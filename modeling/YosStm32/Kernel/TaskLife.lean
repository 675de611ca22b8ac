/-
**Whole runs, from `yos_init` on.**

`Life` is the program before `yos_start`, when `main` creates tasks, or after it. Its steps are the
creations, `yos_start` once there is a user task, and the events of `Sys.step`. The ids given out
increase from creation to creation, and `LifeInv.exited` says what becomes of a task that has left
its task function; `taskLifeCycle` puts both together for all runs.
-/

import YosStm32.Kernel.LifeCycle

namespace YosStm32

open Lib Mutex

/-! ### Runs -/

inductive Life where
  /-- `yos_init` has returned, `yos_start` is still to come. -/
  | boot (k : Kernel)
  /-- `yos_start` has enabled interrupts. -/
  | running (s : Sys)

inductive LifeEvent where
  | create (call : CreateArgs)
  | start (mutexes : Nat → Ymutex)
  | run (event : Event)

namespace Life

/-- The kernel's statics. -/
def kernel : Life → Kernel
  | .boot k => k
  | .running s => s.kernel

/-- When `yos_init` returns. -/
def init (image : Image) (mem : WordMemory) : Life := .boot (yosInit (zeroedKernel image mem))

/-- One step; `main` creates a user task before it calls `yos_start`. -/
def step : Life → LifeEvent → Option Life
  | .boot k, .create call =>
      some (.boot (yosCreateTask k call.taskFunc call.data call.stackSize call.name).2)
  | .boot k, .start mutexes =>
      if 1 < k.taskIdForNext then
        (yosStart k true).map fun k => .running (startedSys k mutexes)
      else none
  | .running s, .run event => (s.step event).map .running
  | _, _ => none

/-- The ids that a step gives out. -/
def given : Life → LifeEvent → List Nat
  | .boot k, .create call =>
      newTask (yosCreateTask k call.taskFunc call.data call.stackSize call.name).1
  | .running s, .run event => YosStm32.given s event
  | _, _ => []

/-- The slots that a step dispatches. -/
def dispatched : Life → LifeEvent → List Nat
  | .running s, .run event => YosStm32.dispatched s event
  | _, _ => []

/-- The search of a handler call goes past slot `id`. -/
def Passes : Life → LifeEvent → Nat → Prop
  | .running s, .run event, id => YosStm32.Passes s event id
  | _, _, _ => False

/-- What holds in every state of a run. -/
def Ok : Life → Prop
  | .boot k => BootInv k
  | .running s => LifeInv s

end Life

/-- The steps of a run. -/
inductive LifeStep : Life → LifeEvent → Life → Prop where
  | create {k : Kernel} {call : CreateArgs} :
      LifeStep (.boot k) (.create call)
        (.boot (yosCreateTask k call.taskFunc call.data call.stackSize call.name).2)
  | start {k k' : Kernel} {mutexes : Nat → Ymutex} (user : 1 < k.taskIdForNext)
      (started : yosStart k true = some k') :
      LifeStep (.boot k) (.start mutexes) (.running (startedSys k' mutexes))
  | run {s s' : Sys} {event : Event} (one : s.step event = some s') :
      LifeStep (.running s) (.run event) (.running s')

theorem lifeStep_of_step {l l' : Life} {event : LifeEvent} (one : l.step event = some l') :
    LifeStep l event l' := by
  cases l with
  | boot k =>
      cases event with
      | create call =>
          obtain rfl := Option.some.inj one
          exact .create
      | start mutexes =>
          simp only [Life.step, Option.ite_none_right_eq_some, Option.map_eq_some_iff] at one
          obtain ⟨user, k', started, rfl⟩ := one
          exact .start user started
      | run event => cases one
  | running s =>
      cases event with
      | create call => cases one
      | start mutexes => cases one
      | run event =>
          obtain ⟨s', stepped, rfl⟩ := Option.map_eq_some_iff.mp one
          exact .run stepped

/-- `yos_start` runs on in the first task's place. -/
theorem startedSys_first (k : Kernel) (mutexes : Nat → Ymutex) :
    (startedSys k mutexes).context (startedSys k mutexes).current = .start := by
  show Function.update (fun _ => ThreadPoint.shell) k.currentTaskId .start k.currentTaskId = .start
  rw [Function.update_self]

namespace BootInv

/-- **The life cycle's invariant when `yos_start` enables interrupts.** -/
theorem lifeInv {k k' : Kernel} (inv : BootInv k) (started : yosStart k true = some k')
    (mutexes : Nat → Ymutex) : LifeInv (startedSys k' mutexes) := by
  obtain ⟨_, _, count, clear, _, kept⟩ := yosStart_effect inv.currentInside started
  have context : (startedSys k' mutexes).context =
      Function.update (fun _ => .shell) k'.currentTaskId .start := rfl
  have below : k'.currentTaskId < k'.taskIdForNext := (inv.start started mutexes).currentLt
  refine ⟨inv.start started mutexes, fun id born => ?_, fun id above => ?_, fun shell => ?_,
    fun ticks place => (nomatch place), fun pended => ?_⟩
  · have created : k'.status id = .created := by
      have born' : id < k.taskIdForNext := count ▸ born
      rw [(kept id (inv.ne_exited id (Nat.lt_of_lt_of_le born' inv.count.2))).1]
      exact (inv.created id born').1
    show PointFits (k'.status id) _
    rw [created, context, Function.update_apply]
    split
    · rfl
    · exact Or.inl rfl
  · change k'.taskIdForNext ≤ id at above
    rw [context, Function.update_of_ne (Nat.ne_of_gt (Nat.lt_of_lt_of_le below above))]
  · exact nomatch (startedSys_first k' mutexes).symm.trans shell
  · exact nomatch (clear.trans inv.clear).symm.trans pended

end BootInv

namespace Life

variable {l l' : Life} {event : LifeEvent} {events : List LifeEvent}

theorem Ok.init (image : Image) (mem : WordMemory) : (Life.init image mem).Ok :=
  BootInv.init image mem

theorem Ok.step (ok : l.Ok) (one : l.step event = some l') : l'.Ok := by
  cases lifeStep_of_step one with
  | create => exact (BootInv.create ok rfl).1
  | start user started => exact BootInv.lifeInv ok started _
  | run stepped => exact LifeInv.step ok stepped

theorem Ok.run (ok : l.Ok) (run : runEvents Life.step l events = some l') : l'.Ok :=
  runEvents_invariant Ok (fun _ _ _ ok one => ok.step one) ok run

/-- The slots behind the last one that has been filled are INVALID. -/
theorem Ok.tail (ok : l.Ok) {id : Nat} (beyond : l.kernel.taskIdForNext ≤ id)
    (inside : id < yosMaxTaskCount) : l.kernel.status id = .invalid := by
  cases l with
  | boot k => exact BootInv.tail ok id beyond inside
  | running s =>
      have inv : LifeInv s := ok
      exact inv.tail id beyond inside

/-! ### Ids given out -/

/-- A step gives out the next id, or none. -/
theorem given_step (ok : l.Ok) (one : l.step event = some l') :
    l.given event = [] ∧ l'.kernel.taskIdForNext = l.kernel.taskIdForNext ∨
      l.given event = [l.kernel.taskIdForNext] ∧
        l'.kernel.taskIdForNext = l.kernel.taskIdForNext + 1 := by
  cases lifeStep_of_step one with
  | @create k call =>
      exact (newTask_yosCreateTask k call.taskFunc call.data call.stackSize call.name).imp_left
        fun ⟨out, same⟩ => ⟨out, congrArg Kernel.taskIdForNext same⟩
  | @start k k' mutexes user started =>
      exact Or.inl ⟨rfl, (yosStart_effect (BootInv.currentInside ok) started).2.2.1⟩
  | @run s s' event stepped =>
      exact LifeInv.given_step ok (step_fired stepped)

/-- The ids given out follow each other. -/
theorem given_range (ok : l.Ok) (run : runEvents Life.step l events = some l') :
    List.range l.kernel.taskIdForNext ++ emitted Life.step Life.given l events =
      List.range l'.kernel.taskIdForNext := by
  refine (emitted_history Life.given
    (fun next past => next.Ok ∧
      List.range l.kernel.taskIdForNext ++ past = List.range next.kernel.taskIdForNext)
    (fun before past event next ⟨ok, follow⟩ one => ⟨ok.step one, ?_⟩)
    ⟨ok, List.append_nil _⟩ run).2
  rw [← List.append_assoc, follow]
  rcases given_step ok one with ⟨none, same⟩ | ⟨out, count⟩
  · rw [none, List.append_nil, same]
  · rw [out, count, List.range_succ]

/-- **The ids given out increase**, starting from the next one. -/
theorem given_increasing (ok : l.Ok) (run : runEvents Life.step l events = some l') :
    (emitted Life.step Life.given l events).Pairwise (· < ·) ∧
      ∀ id ∈ emitted Life.step Life.given l events, l.kernel.taskIdForNext ≤ id := by
  have sorted : (List.range l'.kernel.taskIdForNext).Pairwise (· < ·) := List.pairwise_lt_range
  rw [← given_range ok run, List.pairwise_append] at sorted
  obtain ⟨-, increasing, above⟩ := sorted
  refine ⟨increasing, fun id member => ?_⟩
  by_contra below
  exact Nat.lt_irrefl id (above id (List.mem_range.mpr (Nat.lt_of_not_le below)) id member)

/-! ### What becomes of a status -/

/-- The status of a slot. -/
def status (l : Life) (id : Nat) : YosTaskStatus := l.kernel.status id

/-- A step changes a status along one of the arrows; an INVALID slot only when it is given out. -/
theorem status_step (ok : l.Ok) (one : l.step event = some l') {id : Nat}
    (slot : id < yosMaxTaskCount) :
    l'.status id = l.status id ∨
      StatusChange (l.status id) (l'.status id) ∧
        (l.status id = .invalid → l.given event = [id]) := by
  cases lifeStep_of_step one with
  | @create k call =>
      rcases yosCreateTask_changes k (BootInv.tail ok) call.taskFunc call.data call.stackSize call.name
        id with same | ⟨invalid, created, out⟩
      · exact Or.inl same
      · refine Or.inr ⟨?_, fun _ => out⟩
        show StatusChange (k.status id) ((yosCreateTask k _ _ _ _).2.status id)
        rw [invalid, created]
        exact .create
  | @start k k' mutexes user started =>
      obtain ⟨_, _, _, _, _, kept⟩ := yosStart_effect (BootInv.currentInside ok) started
      exact Or.inl (kept id (BootInv.ne_exited ok id slot)).1
  | @run s s' event stepped =>
      rcases LifeInv.changes ok (step_fired stepped) id with
        same | ⟨arrow, valid, _⟩ | ⟨invalid, created, out⟩
      · exact Or.inl same
      · exact Or.inr ⟨arrow, fun invalid => absurd invalid valid⟩
      · refine Or.inr ⟨?_, fun _ => out⟩
        show StatusChange (s.kernel.status id) (s'.kernel.status id)
        rw [invalid, created]
        exact .create

/-- Only tasks that can run are dispatched. -/
theorem dispatched_runnable (ok : l.Ok) (one : l.step event = some l') {id : Nat}
    (out : id ∈ l.dispatched event) : (l.status id).Runnable := by
  cases lifeStep_of_step one with
  | create | start => cases out
  | @run s s' event stepped =>
      by_cases thread : ∀ tmpSp, event ≠ .pendSv tmpSp
      · change id ∈ YosStm32.dispatched s event at out
        rw [dispatched_other thread] at out
        cases out
      · obtain ⟨tmpSp, rfl⟩ := pendSv_of_not_thread thread
        have inv : LifeInv s := ok
        have pended := (pendSv_fired stepped).2.1
        have pending := inv.pending pended
        change id ∈ s.kernel.nextTask.toList at out
        rw [pending.nextTask, Option.toList_some, List.mem_singleton] at out
        exact out ▸ pending.found.good_of_ne pending.away

/-- The task has left its task function. -/
structure Gone (l : Life) (id : Nat) : Prop where
  slot : id < yosMaxTaskCount
  born : id < l.kernel.taskIdForNext
  status : l.status id = .exited ∨ l.status id = .invalid

/-- An EXITED task is gone. -/
theorem Ok.gone (ok : l.Ok) {id : Nat} (slot : id < yosMaxTaskCount)
    (exited : l.status id = .exited) : Gone l id := by
  refine ⟨slot, ?_, Or.inl exited⟩
  by_contra beyond
  cases l with
  | boot k => exact nomatch exited.symm.trans (BootInv.tail ok id (Nat.le_of_not_lt beyond) slot)
  | running s =>
      have inv : LifeInv s := ok
      exact nomatch exited.symm.trans (inv.tail id (Nat.le_of_not_lt beyond) slot)

/-- **A task that is gone stays gone**: it is not given out again and not dispatched. -/
theorem Gone.step {id : Nat} (gone : Gone l id) (ok : l.Ok) (one : l.step event = some l') :
    Gone l' id ∧ id ∉ l.given event ∧ id ∉ l.dispatched event := by
  have unborn : id ∉ l.given event := by
    intro out
    rcases given_step ok one with ⟨none, _⟩ | ⟨next, _⟩
    · rw [none] at out
      cases out
    · rw [next, List.mem_singleton] at out
      exact absurd gone.born (Nat.not_lt.mpr (Nat.le_of_eq out.symm))
  refine ⟨⟨gone.slot, ?_, ?_⟩, unborn, fun out => ?_⟩
  · rcases given_step ok one with ⟨_, count⟩ | ⟨_, count⟩
    · rw [count]
      exact gone.born
    · rw [count]
      exact Nat.lt_succ_of_lt gone.born
  · rcases status_step ok one gone.slot with same | ⟨arrow, invalid⟩
    · rw [same]
      exact gone.status
    · rcases gone.status with exited | before
      · rw [exited] at arrow
        generalize l'.status id = status at arrow
        cases arrow
        exact Or.inr rfl
      · exact absurd (invalid before ▸ List.mem_singleton_self id) unborn
  · have runnable := dispatched_runnable ok one out
    rcases gone.status with exited | invalid
    · exact absurd exited runnable.ne_exited
    · exact absurd invalid runnable.ne_invalid

/-- A task that is gone, over a run. -/
theorem Gone.run {id : Nat} (gone : Gone l id) (ok : l.Ok)
    (run : runEvents Life.step l events = some l') :
    Gone l' id ∧ id ∉ emitted Life.step Life.given l events ∧
      id ∉ emitted Life.step Life.dispatched l events := by
  have never : ∀ output : Life → LifeEvent → List Nat,
      (∀ before event next, Ok before → Gone before id → before.step event = some next →
        id ∉ output before event) →
      Gone l' id ∧ id ∉ emitted Life.step output l events := by
    intro output absent
    obtain ⟨⟨-, last⟩, others⟩ := emitted_all output (fun l => l.Ok ∧ Gone l id) (· ≠ id)
      (fun before event next ⟨ok, gone⟩ one => ⟨⟨ok.step one, (gone.step ok one).1⟩,
        fun out member same => absent before event next ok gone one (same ▸ member)⟩)
      ⟨ok, gone⟩ run
    exact ⟨last, fun member => others id member rfl⟩
  obtain ⟨last, unborn⟩ := never Life.given fun _ _ _ ok gone one => (gone.step ok one).2.1
  exact ⟨last, unborn, (never Life.dispatched fun _ _ _ ok gone one => (gone.step ok one).2.2).2⟩

/-- A gone task that is INVALID stays so. -/
theorem Gone.invalid_run {id : Nat} (gone : Gone l id) (ok : l.Ok) (invalid : l.status id = .invalid)
    (run : runEvents Life.step l events = some l') : l'.status id = .invalid := by
  refine (runEvents_invariant (fun l => l.Ok ∧ Gone l id ∧ l.status id = .invalid) ?_
    ⟨ok, gone, invalid⟩ run).2.2
  rintro before event next ⟨ok, gone, invalid⟩ one
  obtain ⟨gone', unborn, _⟩ := gone.step ok one
  refine ⟨ok.step one, gone', ?_⟩
  rcases status_step ok one gone.slot with same | ⟨_, out⟩
  · exact same.trans invalid
  · exact absurd (out invalid ▸ List.mem_singleton_self id) unborn

/-! ### When the search goes past a slot -/

/-- In some step of the run, the search goes past slot `id`. -/
def PassedIn (l : Life) (events : List LifeEvent) (id : Nat) : Prop :=
  ∃ first event rest middle, events = first ++ event :: rest ∧
    runEvents Life.step l first = some middle ∧ middle.Passes event id

theorem passedIn_cons {id : Nat} (one : l.step event = some l') :
    PassedIn l (event :: events) id ↔ l.Passes event id ∨ PassedIn l' events id := by
  constructor
  · rintro ⟨first, passing, rest, middle, split, run, passes⟩
    cases first with
    | nil =>
        rw [List.nil_append, List.cons.injEq] at split
        rw [runEvents_nil, Option.some.injEq] at run
        obtain ⟨rfl, rfl⟩ := split
        exact Or.inl (run ▸ passes)
    | cons head first =>
        rw [List.cons_append, List.cons.injEq] at split
        obtain ⟨rfl, rfl⟩ := split
        obtain ⟨next, one', run⟩ := runEvents_cons.mp run
        obtain rfl := Option.some.inj (one.symm.trans one')
        exact Or.inr ⟨first, passing, rest, middle, rfl, run, passes⟩
  · rintro (passes | ⟨first, passing, rest, middle, rfl, run, passes⟩)
    · exact ⟨[], event, events, l, rfl, rfl, passes⟩
    · exact ⟨event :: first, passing, rest, middle, rfl, runEvents_cons.mpr ⟨l', one, run⟩, passes⟩

/-- One step of an EXITED task. -/
theorem exited_step (ok : l.Ok) (one : l.step event = some l') {id : Nat}
    (slot : id < yosMaxTaskCount) (exited : l.status id = .exited) :
    l'.status id = .exited ∧ ¬ l.Passes event id ∨ l'.status id = .invalid ∧ l.Passes event id := by
  cases lifeStep_of_step one with
  | create | start =>
      exact absurd exited (BootInv.ne_exited ok id slot)
  | run stepped => exact LifeInv.exited ok stepped slot exited

/-- **An EXITED task is INVALID from the first search that goes past it.** -/
theorem exited_run (ok : l.Ok) (run : runEvents Life.step l events = some l') {id : Nat}
    (slot : id < yosMaxTaskCount) (exited : l.status id = .exited) :
    l'.status id = .invalid ↔ PassedIn l events id := by
  induction events generalizing l with
  | nil =>
      rw [runEvents_nil, Option.some.injEq] at run
      constructor
      · intro invalid
        exact nomatch (run ▸ exited : l'.status id = .exited).symm.trans invalid
      · rintro ⟨first, event, rest, middle, split, _⟩
        exact absurd split.symm (List.append_ne_nil_of_right_ne_nil _ (List.cons_ne_nil _ _))
  | cons event events ih =>
      obtain ⟨next, one, run⟩ := runEvents_cons.mp run
      rw [passedIn_cons one]
      rcases exited_step ok one slot exited with ⟨still, missed⟩ | ⟨swept, passes⟩
      · rw [ih (ok.step one) run still, or_iff_right missed]
      · have gone := ((ok.gone slot exited).step ok one).1
        exact ⟨fun _ => Or.inl passes, fun _ => gone.invalid_run (ok.step one) swept run⟩

end Life

/-- **The life cycle of a task.** In every run from `yos_init` on: a status changes along one of the
six arrows only, out of INVALID by a creation that gives out the slot's id; no id is given out twice
(the idle task's id 0 included); and from the moment a task is EXITED it is EXITED or INVALID for
good, never dispatched and never given out, and `yos_get_task_info` fails on it exactly from the first
search that goes past it. -/
theorem taskLifeCycle {image : Image} {mem : WordMemory} {events : List LifeEvent} {l : Life}
    (run : runEvents Life.step (Life.init image mem) events = some l) :
    (∀ event l' id, l.step event = some l' → id < yosMaxTaskCount → l'.status id ≠ l.status id →
      StatusChange (l.status id) (l'.status id) ∧
        (l.status id = .invalid → l.given event = [id])) ∧
    (0 :: emitted Life.step Life.given (Life.init image mem) events).Nodup ∧
    ∀ id, id < yosMaxTaskCount → l.status id = .exited →
      ∀ later l', runEvents Life.step l later = some l' →
        (l'.status id = .exited ∨ l'.status id = .invalid) ∧
        id ∉ emitted Life.step Life.dispatched l later ∧
        id ∉ emitted Life.step Life.given l later ∧
        ((∀ taskInfo, yosGetTaskInfo l'.kernel id taskInfo = some (-1, taskInfo)) ↔
          Life.PassedIn l later id) := by
  have start := Life.Ok.init image mem
  have ok := start.run run
  refine ⟨fun event l' id one slot changed => ?_, ?_, fun id slot exited later l' rest => ?_⟩
  · exact (Life.status_step ok one slot).resolve_left changed
  · obtain ⟨increasing, above⟩ := Life.given_increasing start run
    refine List.nodup_cons.mpr ⟨fun again => ?_, increasing.imp Nat.ne_of_lt⟩
    have first := above 0 again
    rw [Life.init, Life.kernel, (yosInit_effect _).1] at first
    exact absurd first (by decide)
  · obtain ⟨gone, unborn, still⟩ := (ok.gone slot exited).run ok rest
    refine ⟨gone.status, still, unborn, ?_⟩
    rw [← Life.exited_run ok rest slot exited]
    constructor
    · intro fails
      by_contra valid
      exact nomatch (yosGetTaskInfo_valid slot valid).symm.trans (fails none)
    · exact fun invalid => yosGetTaskInfo_invalid invalid

/-- One user task is created, started and dispatched, and returns from its task function. -/
def sampleLife : List LifeEvent :=
  sampleCalls.map .create ++ .start (fun _ => ⟨ymutexOwnerNone⟩) ::
    (sampleEvents ++ [Event.returnTask]).map .run

theorem taskLifeCycle_sampleLife :
    ∃ l, runEvents Life.step (Life.init ⟨0x08000101, 0x08000201, 0x08000301⟩ fun _ => 0) sampleLife =
        some l ∧ l.status 1 = .exited ∧
      ∀ later l', runEvents Life.step l later = some l' →
        l'.status 1 = .exited ∨ l'.status 1 = .invalid := by
  have exits : (runEvents Life.step (Life.init ⟨0x08000101, 0x08000201, 0x08000301⟩ fun _ => 0)
      sampleLife).any fun l => decide (l.status 1 = .exited) := by decide +kernel
  obtain ⟨l, run, exited⟩ := (Option.any_eq_true _ _).mp exits
  rw [decide_eq_true_eq] at exited
  obtain ⟨_, _, gone⟩ := taskLifeCycle run
  exact ⟨l, run, exited, fun later l' rest => (gone 1 (by decide) exited later l' rest).1⟩

end YosStm32
