/-
**A task starts once.**

`_yos_task_shell` is entered when PendSV restores a frame that `_yos_init_task_stack` has built, and
nothing has been saved over it since; its argument is the `R0` of that frame. A run puts out what
happens to the saved stacks (`StackMove`), and `ShellTrack` reads off it which frames are fresh and which
entries there are. That a restored stack still holds what was saved on it is assumed here, as in `Sys`: the
stacks are large enough for the contexts saved on them. The handler builds frames for CREATED tasks only,
and a task is not CREATED any more from its first dispatch on (`Life.Begun`), so both the entry and the
task function are behind a task that is not.
-/

import YosStm32.Kernel.TaskLife

namespace YosStm32

open Lib Mutex

/-! ### The saved stacks -/

/-- What happens to the saved stack of a task. -/
inductive StackMove where
  /-- `_yos_init_task_stack(taskId, _all_tasks + slot)`. -/
  | built (taskId slot : Nat)
  /-- PendSV saves the context of the running task on it. -/
  | saved (slot : Nat)
  /-- PendSV restores what lies on it. -/
  | restored (slot : Nat)
  deriving DecidableEq, Repr

/-- The frame that `sys_tick_handler` builds. -/
def handlerMoves (k : Kernel) : List StackMove :=
  if (sysTickHandler k).1 = .switchCreated then
    (sysTickHandler k).2.nextTask.toList.map (.built (sysTickHandler k).2.nextTaskId)
  else []

/-- What an event does to the saved stacks, in order. -/
def stackMoves (s : Sys) : Event → List StackMove
  | .sysTick => handlerMoves s.kernel
  | .exec => if s.critical = some .handler then handlerMoves s.kernel else []
  | .pendSv _ => s.kernel.currentTask.toList.map .saved ++ s.kernel.nextTask.toList.map .restored
  | _ => []

/-- The task that an event makes enter its task function. -/
def entersBody (s : Sys) : Event → List Nat
  | .enterTask =>
      s.kernel.currentTask.toList.filter fun task => (s.kernel.allTasks task).taskFunc.isSome
  | _ => []

namespace Life

/-- The same for a step; `yos_start` builds the frame of the first task. -/
def stackMoves : Life → LifeEvent → List StackMove
  | .boot k, .start _ =>
      match yosStart k true with
      | some k' => k'.currentTask.toList.map (.built k'.currentTaskId)
      | none => []
  | .running s, .run event => YosStm32.stackMoves s event
  | _, _ => []

def entersBody : Life → LifeEvent → List Nat
  | .running s, .run event => YosStm32.entersBody s event
  | _, _ => []

end Life

/-- The fresh frames, with the argument that each carries, and the entries of `_yos_task_shell` so far:
the slot and the argument. -/
structure ShellTrack where
  fresh : Nat → Option Nat
  entries : List (Nat × Nat)

namespace ShellTrack

def init : ShellTrack := ⟨fun _ => none, []⟩

def move (track : ShellTrack) : StackMove → ShellTrack
  | .built taskId slot => { track with fresh := Function.update track.fresh slot (some taskId) }
  | .saved slot => { track with fresh := Function.update track.fresh slot none }
  | .restored slot =>
      { fresh := Function.update track.fresh slot none
        entries := track.entries ++ ((track.fresh slot).map (slot, ·)).toList }

end ShellTrack

/-- The entries of `_yos_task_shell` in a run. -/
def shellEntries (l : Life) (events : List LifeEvent) : List (Nat × Nat) :=
  ((emitted Life.step Life.stackMoves l events).foldl ShellTrack.move .init).entries

/-! ### One step -/

theorem handlerMoves_cases (k : Kernel) (inside : k.currentTaskId < yosMaxTaskCount) :
    handlerMoves k = [] ∨
      ∃ id, handlerMoves k = [.built id id] ∧ (sysTickHandler k).2.status id = .created := by
  have exit := sysTickHandler_exitFor k inside
  have handled := sysTickHandler_handled k inside
  unfold handlerMoves
  split
  · rename_i built
    rw [built] at exit
    cases exit with
    | switchCreated away created =>
        rcases handled.outcome with ⟨back, _⟩ | ⟨_, _, pointer⟩
        · exact absurd back away
        · exact Or.inr ⟨_, by rw [pointer]; rfl, created⟩
  · exact Or.inl rfl

/-- A status that the handler leaves CREATED was so before. -/
theorem Handled.created {k k' : Kernel} (handled : Handled k k') {id : Nat} :
    k'.status id = .created ↔ k.status id = .created := by
  rcases handled.statuses id with kept | ⟨exited, _, cleared⟩ | ⟨waiting, running⟩
  · rw [kept]
  · rw [exited, cleared]
    simp
  · rw [waiting, running]
    simp

/-- **A CREATED task stays so until it is dispatched.** -/
theorem LifeInv.created_kept {s s' : Sys} (inv : LifeInv s) {event : Event} (one : Fired s event s')
    {id : Nat} (created : s.kernel.status id = .created) (stays : id ∉ dispatched s event) :
    s'.kernel.status id = .created := by
  have other : ∀ status, s.kernel.status s.current = .running →
      (s.kernel.setStatus s.current status).status id = .created := by
    intro status running
    rw [Kernel.setStatus_status, if_neg]
    · exact created
    · rintro rfl
      exact nomatch created.symm.trans running
  cases one with
  | sysTick enabled => exact (sysTickHandler_handled _ inv.currentInside).created.mpr created
  | handler place => exact (sysTickHandler_handled _ inv.currentInside).created.mpr created
  | @pendSv tmpSp k enabled pended switched =>
      obtain ⟨next, pointer, _, _, _, _, _, statuses, _⟩ := pendSvSwitch_cases switched
      have away : id ≠ next := by
        rintro rfl
        exact stays (Option.mem_toList.mpr pointer)
      exact ((statuses id).trans (if_neg away)).trans created
  | @delayStatus ticks task place running =>
      obtain rfl := inv.running_eq running
      exact other _ (inv.running_of_delays place)
  | @delayTicks ticks task place running =>
      have kept := Kernel.setTask_sameStatus s.kernel task id
        { s.kernel.allTasks task with blockTicks := ticks } rfl
      exact kept.trans created
  | @enterTask task func enabled clear running entry function =>
      obtain rfl := inv.running_eq running
      exact other _ (inv.entered entry)
  | @enterNull task enabled clear running entry function =>
      obtain rfl := inv.running_eq running
      exact absurd function (inv.functions _ inv.currentLt)
  | @returnTask task enabled clear running inside user =>
      obtain rfl := inv.running_eq running
      exact other _ (inv.running_of_body enabled clear inside)
  | @create task taskFunc data stackSize name enabled clear running inside =>
      rcases yosCreateTask_changes s.kernel inv.tail taskFunc data stackSize name id with
        same | ⟨invalid, _⟩
      · exact same.trans created
      · exact nomatch created.symm.trans invalid
  | scheduleFlag | enable | call | mutex => exact created

/-- **What a step does to the saved stacks**, and to the CREATED tasks. -/
inductive MovesFor (l l' : Life) : List StackMove → Prop where
  | none (kept : ∀ id, l.status id = .created → l'.status id = .created) : MovesFor l l' []
  | built {slot : Nat} (created : l.status slot = .created)
      (kept : ∀ id, l.status id = .created → l'.status id = .created) :
      MovesFor l l' [.built slot slot]
  | switched {current next : Nat} (away : next ≠ current)
      (kept : ∀ id, id ≠ next → l.status id = .created → l'.status id = .created)
      (born : next < l'.kernel.taskIdForNext) (begun : l'.status next ≠ .created) :
      MovesFor l l' [.saved current, .restored next]

namespace Life

variable {l l' : Life} {event : LifeEvent} {events : List LifeEvent}

/-- The task has been dispatched. -/
structure Begun (l : Life) (id : Nat) : Prop where
  born : id < l.kernel.taskIdForNext
  status : l.status id ≠ .created

theorem Ok.count_le (ok : l.Ok) : l.kernel.taskIdForNext ≤ yosMaxTaskCount := by
  cases l with
  | boot k => exact (BootInv.count ok).2
  | running s =>
      have inv : LifeInv s := ok
      exact inv.count

/-- **Once begun, always begun.** -/
theorem Begun.step {id : Nat} (begun : Begun l id) (ok : l.Ok) (one : l.step event = some l') :
    Begun l' id := by
  have born : id < l'.kernel.taskIdForNext := by
    rcases given_step ok one with ⟨_, count⟩ | ⟨_, count⟩
    · exact count ▸ begun.born
    · exact count ▸ Nat.lt_succ_of_lt begun.born
  refine ⟨born, fun created => ?_⟩
  rcases status_step ok one (Nat.lt_of_lt_of_le begun.born ok.count_le) with same | ⟨arrow, out⟩
  · exact begun.status (same.symm.trans created)
  · rw [created] at arrow
    generalize before : l.status id = status at arrow
    cases arrow
    have given := out before
    rcases given_step ok one with ⟨none, _⟩ | ⟨next, _⟩
    · exact nomatch none.symm.trans given
    · have same := List.cons.inj (next.symm.trans given)
      exact absurd same.1 (Nat.ne_of_gt begun.born)

theorem stackMoves_cases (ok : l.Ok) (one : l.step event = some l') :
    MovesFor l l' (l.stackMoves event) := by
  cases lifeStep_of_step one with
  | @create k call =>
      refine .none fun id created => ?_
      rcases yosCreateTask_changes k (BootInv.tail ok) call.taskFunc call.data call.stackSize call.name
        id with same | ⟨invalid, _⟩
      · exact same.trans created
      · exact absurd (created.symm.trans invalid) (by decide)
  | @start k k' mutexes user started =>
      obtain ⟨found, current, _, _, _, kept⟩ := yosStart_effect (BootInv.currentInside ok) started
      have moves : (Life.boot k).stackMoves (.start mutexes) =
          [.built k'.currentTaskId k'.currentTaskId] := by
        rw [Life.stackMoves, started]
        show k'.currentTask.toList.map _ = _
        rw [current]
        rfl
      rw [moves]
      refine .built (BootInv.created ok _ (BootInv.found_lt ok found)).1 fun id created => ?_
      have alive : k.status id ≠ .exited :=
        fun exited => absurd (created.symm.trans exited) (by decide)
      exact (kept id alive).1.trans created
  | @run s s' event stepped =>
      have inv : LifeInv s := ok
      have fired := step_fired stepped
      have byHandler : s'.kernel = (sysTickHandler s.kernel).2 → YosStm32.dispatched s event = [] →
          MovesFor (.running s) (.running s') (handlerMoves s.kernel) := by
        intro kernel undispatched
        have kept : ∀ id, s.kernel.status id = .created → s'.kernel.status id = .created :=
          fun id created => inv.created_kept fired created (undispatched ▸ List.not_mem_nil)
        rcases handlerMoves_cases s.kernel inv.currentInside with none | ⟨id, built, created⟩
        · rw [none]
          exact .none kept
        · rw [built]
          exact .built ((sysTickHandler_handled _ inv.currentInside).created.mp created) kept
      have unmoved : YosStm32.dispatched s event = [] → MovesFor (.running s) (.running s') [] :=
        fun undispatched => .none fun id created =>
          inv.created_kept fired created (undispatched ▸ List.not_mem_nil)
      cases event with
      | sysTick => exact byHandler (kernel_of_callsHandler stepped (Or.inl rfl)) rfl
      | exec =>
          show MovesFor _ _ (if s.critical = some .handler then handlerMoves s.kernel else [])
          split
          · rename_i place
            exact byHandler (kernel_of_callsHandler stepped (Or.inr ⟨rfl, place⟩)) rfl
          · exact unmoved rfl
      | pendSv tmpSp =>
          obtain ⟨_, pended, k, switched, rfl⟩ := pendSv_fired stepped
          have pending := inv.pending pended
          obtain ⟨_, current, running, _⟩ := inv.toKernelInv.switch pended switched
          obtain ⟨_, _, _, _, count, _⟩ := pendSvSwitch_cases switched
          have moves : (Life.running s).stackMoves (.run (.pendSv tmpSp)) =
              [.saved s.current, .restored s.kernel.nextTaskId] := by
            show s.kernel.currentTask.toList.map _ ++ s.kernel.nextTask.toList.map _ = _
            rw [inv.currentTask, pending.nextTask]
            rfl
          rw [moves]
          refine .switched pending.away (fun id other created => ?_) ?_ ?_
          · refine inv.created_kept fired created fun out => other ?_
            rw [YosStm32.dispatched, pending.nextTask] at out
            exact List.mem_singleton.mp out
          · exact Nat.lt_of_lt_of_eq (inv.next_lt pended) count.symm
          · rw [current] at running
            exact fun created => absurd (running.symm.trans created) (by decide)
      | call | enterTask | returnTask | tryLock | unlock | deinitStore | create => exact unmoved rfl

/-- A task that enters its task function has been dispatched. -/
theorem entersBody_begun (ok : l.Ok) (one : l.step event = some l') {id : Nat}
    (enters : id ∈ l.entersBody event) : Begun l' id := by
  cases lifeStep_of_step one with
  | create | start => cases enters
  | @run s s' event stepped =>
      have inv : LifeInv s := ok
      cases event with
      | enterTask =>
          change id ∈ s.kernel.currentTask.toList.filter _ at enters
          rw [inv.currentTask, List.mem_filter, Option.toList_some, List.mem_singleton] at enters
          obtain ⟨rfl, function⟩ := enters
          cases step_fired stepped with
          | @enterTask task func enabled clear running entry function =>
              obtain rfl := inv.running_eq running
              refine ⟨inv.currentLt, fun created => ?_⟩
              have running : (s.kernel.setStatus s.current .running).status s.current = .running :=
                (Kernel.setStatus_status ..).trans (if_pos rfl)
              exact nomatch running.symm.trans created
          | @enterNull task enabled clear running entry null =>
              obtain rfl := inv.running_eq running
              exact absurd null (inv.functions _ inv.currentLt)
          | mutex enabled clear kind => rcases kind with other | other | other <;> cases other
      | _ => cases enters

/-! ### Whole runs -/

/-- What the entries so far have to do with the state. -/
structure Tracks (l : Life) (track : ShellTrack) (bodies : List Nat) : Prop where
  entries : ∀ entry ∈ track.entries, entry.2 = entry.1 ∧ Begun l entry.1
  once : (track.entries.map Prod.fst).Nodup
  fresh : ∀ slot arg, track.fresh slot = some arg → arg = slot ∧ l.status slot = .created
  bodies : ∀ slot ∈ bodies, Begun l slot

/-- **One step.** A fresh frame belongs to a CREATED task, so the entry is the task's first. -/
theorem Tracks.step {track : ShellTrack} {bodies : List Nat} (tracks : Tracks l track bodies)
    (ok : l.Ok) (one : l.step event = some l') :
    Tracks l' ((l.stackMoves event).foldl ShellTrack.move track) (bodies ++ l.entersBody event) := by
  have entries : ∀ entry ∈ track.entries, entry.2 = entry.1 ∧ Begun l' entry.1 := by
    intro entry member
    obtain ⟨same, begun⟩ := tracks.entries entry member
    exact ⟨same, begun.step ok one⟩
  have bodies' : ∀ slot ∈ bodies ++ l.entersBody event, Begun l' slot := by
    intro slot member
    rcases List.mem_append.mp member with before | now
    · exact (tracks.bodies slot before).step ok one
    · exact entersBody_begun ok one now
  have moved := stackMoves_cases ok one
  generalize l.stackMoves event = moves at moved ⊢
  cases moved with
  | none kept =>
      refine ⟨entries, tracks.once, fun slot arg here => ?_, bodies'⟩
      exact (tracks.fresh slot arg here).imp_right (kept slot)
  | @built first created kept =>
      refine ⟨entries, tracks.once, fun slot arg here => ?_, bodies'⟩
      change Function.update track.fresh first (some first) slot = some arg at here
      rw [Function.update_apply] at here
      split at here
      · rename_i same
        rw [same]
        exact ⟨(Option.some.inj here).symm, kept first created⟩
      · exact (tracks.fresh slot arg here).imp_right (kept slot)
  | @switched current next away kept born begun =>
      have unsaved : Function.update track.fresh current none next = track.fresh next :=
        Function.update_of_ne away _ _
      have fresh : ∀ slot arg, Function.update (Function.update track.fresh current none) next none
          slot = some arg → arg = slot ∧ l'.status slot = .created := by
        intro slot arg here
        rw [Function.update_apply] at here
        split at here
        · cases here
        · rename_i other
          rw [Function.update_apply] at here
          split at here
          · cases here
          · exact (tracks.fresh slot arg here).imp_right (kept slot other)
      have list : (([StackMove.saved current, .restored next].foldl ShellTrack.move track)).entries =
          track.entries ++ ((track.fresh next).map (next, ·)).toList := by
        rw [← unsaved]
        rfl
      rcases before : track.fresh next with _ | arg
      · rw [before, Option.map_none, Option.toList_none, List.append_nil] at list
        exact ⟨list ▸ entries, list ▸ tracks.once, fresh, bodies'⟩
      · obtain ⟨rfl, created⟩ := tracks.fresh next arg before
        rw [before, Option.map_some, Option.toList_some] at list
        refine ⟨?_, ?_, fresh, bodies'⟩
        · rw [list]
          intro entry member
          rcases List.mem_append.mp member with old | new
          · exact entries entry old
          · rw [List.mem_singleton.mp new]
            exact ⟨rfl, born, begun⟩
        · rw [list, List.map_append, List.nodup_append]
          refine ⟨tracks.once, List.pairwise_singleton .., fun slot old other new same => ?_⟩
          -- A task that has entered before would not be CREATED any more.
          obtain ⟨entry, member, rfl⟩ := List.mem_map.mp old
          have begun := (tracks.entries entry member).2.status
          rw [same, List.mem_singleton.mp new] at begun
          exact begun created

/-- What holds at the start. -/
theorem Tracks.init (l : Life) : Tracks l .init [] :=
  ⟨fun _ member => absurd member List.not_mem_nil, List.Pairwise.nil, fun _ _ here => (nomatch here),
    fun _ member => absurd member List.not_mem_nil⟩

theorem Tracks.run {track : ShellTrack} {bodies : List Nat} (tracks : Tracks l track bodies)
    (ok : l.Ok) (run : runEvents Life.step l events = some l') :
    Tracks l' ((emitted Life.step Life.stackMoves l events).foldl ShellTrack.move track)
      (bodies ++ emitted Life.step Life.entersBody l events) := by
  induction events generalizing l track bodies with
  | nil =>
      rw [runEvents_nil, Option.some.injEq] at run
      rw [emitted_nil, emitted_nil, List.append_nil]
      exact run ▸ tracks
  | cons event events ih =>
      obtain ⟨next, one, run⟩ := runEvents_cons.mp run
      rw [emitted_cons one, emitted_cons one, List.foldl_append, ← List.append_assoc]
      exact ih (tracks.step ok one) (ok.step one) run

end Life

/-- **A task starts once.** In every run from `yos_init` on in which `main` creates a user task before
`yos_start`: every entry of `_yos_task_shell` is a task's with its own id, and no task has two; and the
next step, if it builds a frame, builds it with the id of its slot, for a task that has entered neither
`_yos_task_shell` nor its task function. -/
theorem yosTaskShell_once {image : Image} {mem : WordMemory} {events : List LifeEvent} {l : Life}
    (run : runEvents Life.step (Life.init image mem) events = some l) :
    (∀ entry ∈ shellEntries (Life.init image mem) events, entry.2 = entry.1) ∧
    ((shellEntries (Life.init image mem) events).map Prod.fst).Nodup ∧
    ∀ event l' taskId slot, l.step event = some l' → .built taskId slot ∈ l.stackMoves event →
      taskId = slot ∧
        slot ∉ (shellEntries (Life.init image mem) events).map Prod.fst ∧
        slot ∉ emitted Life.step Life.entersBody (Life.init image mem) events := by
  have start := Life.Ok.init image mem
  have tracks := (Life.Tracks.init _).run start run
  refine ⟨fun entry member => (tracks.entries entry member).1, tracks.once,
    fun event l' taskId slot one member => ?_⟩
  have moved := Life.stackMoves_cases (start.run run) one
  generalize l.stackMoves event = moves at moved member
  cases moved with
  | none kept => cases member
  | @built first created kept =>
      obtain ⟨rfl, rfl⟩ := StackMove.built.inj (List.mem_singleton.mp member)
      refine ⟨rfl, fun again => ?_, fun again => ?_⟩
      · obtain ⟨entry, before, same⟩ := List.mem_map.mp again
        exact (same ▸ (tracks.entries entry before).2).status created
      · exact (tracks.bodies _ again).status created
  | switched => simp at member

/-- In the sample run the idle task and the user task have entered `_yos_task_shell`, once each and with
their own ids; no step builds a frame for either of them again. -/
theorem yosTaskShell_once_sampleLife :
    ∃ l, runEvents Life.step (Life.init ⟨0x08000101, 0x08000201, 0x08000301⟩ fun _ => 0) sampleLife =
        some l ∧
      shellEntries (Life.init ⟨0x08000101, 0x08000201, 0x08000301⟩ fun _ => 0) sampleLife =
        [(0, 0), (1, 1)] ∧
      ∀ event l' taskId slot, l.step event = some l' → .built taskId slot ∈ l.stackMoves event →
        slot ≠ 0 ∧ slot ≠ 1 := by
  have runs : (runEvents Life.step (Life.init ⟨0x08000101, 0x08000201, 0x08000301⟩ fun _ => 0)
      sampleLife).isSome := by decide +kernel
  obtain ⟨l, run⟩ := Option.isSome_iff_exists.mp runs
  have entries : shellEntries (Life.init ⟨0x08000101, 0x08000201, 0x08000301⟩ fun _ => 0) sampleLife =
      [(0, 0), (1, 1)] := by decide +kernel
  refine ⟨l, run, entries, fun event l' taskId slot one builds => ?_⟩
  obtain ⟨-, fresh, -⟩ := (yosTaskShell_once run).2.2 event l' taskId slot one builds
  rw [entries] at fresh
  simpa using fresh

end YosStm32
