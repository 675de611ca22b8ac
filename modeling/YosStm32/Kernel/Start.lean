/-
**`yos_start` and its tail.**

The code after the `CPSIE I` of `yos_start` runs in the first task's place, which stays CREATED. With
a user task the first task is not the idle task, so the tail's `schedule()` (or a tick before it)
switches away, and a CREATED task gets a fresh frame before it is dispatched again. With the idle task
alone the search comes back to it: the `schedule()` does not switch, and `yos_start` goes on to its
end. `NeverBack` is what the first case guarantees in every state, as long as every stack is large enough
for the contexts saved on it (the `context` of `Sys`).
-/

import YosStm32.Kernel.Creation

namespace YosStm32

open Lib Mutex

/-! ### Tasks before the start -/

section Creation

variable {k : Kernel} {call : CreateArgs}

/-- Calls that are all refused change nothing. -/
theorem createTasks_refused {calls : List CreateArgs} (refused : ∀ call ∈ calls, ¬ call.Valid) :
    createTasks k calls = k := by
  induction calls with
  | nil => rfl
  | cons call calls ih =>
      show createTasks (yosCreateTask k _ _ _ _).2 calls = k
      rw [yosCreateTask_refused (Or.inl (refused call (List.mem_cons_self ..)))]
      exact ih fun other member => refused other (List.mem_cons_of_mem _ member)

/-- The number of tasks never goes down. -/
theorem createTasks_count_le (inv : BootInv k) (calls : List CreateArgs) :
    k.taskIdForNext ≤ (createTasks k calls).taskIdForNext := by
  induction calls generalizing k with
  | nil => exact Nat.le_refl _
  | cons call calls ih => exact Nat.le_trans (inv.create rfl).2 (ih (inv.create rfl).1)

/-- **A valid call gives a user task.** -/
theorem createTasks_user (inv : BootInv k) {calls : List CreateArgs}
    (valid : ∃ call ∈ calls, call.Valid) : 1 < (createTasks k calls).taskIdForNext := by
  obtain ⟨call, member, valid⟩ := valid
  obtain ⟨before, after, rfl⟩ := List.append_of_mem member
  have inv' := inv.createTasks before
  have split : createTasks k (before ++ call :: after) =
      createTasks (yosCreateTask (createTasks k before) call.taskFunc call.data call.stackSize
        call.name).2 after := by
    rw [createTasks, List.foldl_append]
    rfl
  have created : BootInv (yosCreateTask (createTasks k before) call.taskFunc call.data call.stackSize
      call.name).2 ∧ _ := inv'.create rfl
  rw [split]
  refine Nat.lt_of_lt_of_le ?_ (createTasks_count_le created.1 after)
  by_cases room : (createTasks k before).taskIdForNext < yosMaxTaskCount
  · rw [(yosCreateTask_accepted valid room).2.1]
    exact Nat.succ_lt_succ inv'.count.1
  · exact Nat.lt_of_lt_of_le (by decide) (Nat.le_trans (Nat.le_of_not_lt room) created.2)

end Creation

/-! ### The tail -/

/-- What the tail of `yos_start` relies on. -/
structure TailInv (s : Sys) : Prop extends LifeInv s where
  user : s.context s.current = .start ∨ s.context s.current = .startDone → s.current ≠ 0
  done : s.context s.current = .startDone → OnTheWay s.critical ∨ s.kernel.pendsv = true

namespace TailInv

variable {s s' : Sys}

/-- A step after which the running code is not the tail. -/
theorem of_other (inv : LifeInv s') {point : ThreadPoint} (here : s'.context s'.current = point)
    (notStart : point ≠ .start) (notDone : point ≠ .startDone) : TailInv s' := by
  refine ⟨inv, fun tail => ?_, fun tail => absurd (here.symm.trans tail) notDone⟩
  rcases tail with start | done
  · exact absurd (here.symm.trans start) notStart
  · exact absurd (here.symm.trans done) notDone

/-- **Every event keeps the invariant.** -/
theorem fired (inv : TailInv s) {event : Event} (one : Fired s event s') : TailInv s' := by
  have inv' := inv.toLifeInv.fired one
  -- The handler builds no frame for the current task, so its point stays.
  have handler : s.afterHandler.context s.afterHandler.current = s.context s.current ∧
      s.afterHandler.current = s.current := by
    have current : s.afterHandler.current = s.current :=
      (sysTickHandler_handled s.kernel inv.currentInside).currentTaskId
    have exit := sysTickHandler_exitFor s.kernel inv.currentInside
    rw [current, LifeInv.afterHandler_context]
    refine ⟨?_, rfl⟩
    split
    · rename_i built
      rw [built] at exit
      cases exit with
      | switchCreated away _ => rw [Function.update_of_ne (Ne.symm away)]
    · rfl
  cases one with
  | sysTick enabled =>
      refine ⟨inv', ?_, fun done => ?_⟩
      · rw [handler.1, handler.2]
        exact inv.user
      · rw [handler.1] at done
        exact Or.inr (inv.toKernelInv.handler_pends (inv.user (Or.inr done)))
  | handler place =>
      refine ⟨inv', ?_, fun done => ?_⟩
      · show s.afterHandler.context s.afterHandler.current = _ ∨ _ → s.afterHandler.current ≠ 0
        rw [handler.1, handler.2]
        exact inv.user
      · change s.afterHandler.context s.afterHandler.current = _ at done
        rw [handler.1] at done
        exact Or.inr (inv.toKernelInv.handler_pends (inv.user (Or.inr done)))
  | @pendSv tmpSp k enabled pended switched =>
      have current := (inv.toKernelInv.switch pended switched).2.1
      have here : s.context k.currentTaskId = s.context s.kernel.nextTaskId := congrArg _ current
      exact of_other inv' here (inv.next pended).1 (inv.next pended).2
  | @delayStatus ticks task place running =>
      exact of_other inv' (inv.delays ticks place) (by decide) (by decide)
  | delayTicks | scheduleFlag => exact ⟨inv', inv.user, fun _ => Or.inl (by simp [OnTheWay])⟩
  | enable place =>
      refine ⟨inv', inv.user, fun done => Or.inr ?_⟩
      rcases inv.done done with ⟨_, notEnable⟩ | pended
      · exact absurd place notEnable
      · exact pended
  | @call call task point enabled clear running allowed resume =>
      obtain rfl := inv.running_eq running
      have here : (Function.update s.context s.current point) s.current = point :=
        Function.update_self ..
      refine ⟨inv', fun tail => ?_, fun _ => Or.inl ?_⟩
      · refine inv.user (Or.inl ?_)
        change Function.update s.context s.current point s.current = .start ∨
          Function.update s.context s.current point s.current = .startDone at tail
        rw [here] at tail
        generalize s.context s.current = before at resume
        cases call <;> cases before <;> cases resume <;> simp at tail ⊢
      · cases call <;> simp [OnTheWay, Call.entry]
  | @enterTask task func enabled clear running entry function =>
      obtain rfl := inv.running_eq running
      have here : Function.update s.context s.current .body s.current = .body :=
        Function.update_self ..
      exact of_other inv' here (by decide) (by decide)
  | @enterNull task enabled clear running entry function =>
      obtain rfl := inv.running_eq running
      exact absurd function (inv.functions _ inv.currentLt)
  | @returnTask task enabled clear running inside user =>
      obtain rfl := inv.running_eq running
      have here : Function.update s.context s.current .resched s.current = .resched :=
        Function.update_self ..
      exact of_other inv' here (by decide) (by decide)
  | mutex enabled clear kind => exact ⟨inv', inv.user, inv.done⟩
  | @create task taskFunc data stackSize name enabled clear running inside =>
      obtain rfl := inv.running_eq running
      have current : (yosCreateTask s.kernel taskFunc data stackSize name).2.currentTaskId =
          s.current := by
        rcases yosCreateTask_effect s.kernel taskFunc data stackSize name rfl with
          same | ⟨_, _, _, current, _⟩
        · rw [same]
        · exact current
      exact of_other inv' ((congrArg s.context current).trans inside) (by decide) (by decide)

theorem step (inv : TailInv s) {event : Event} (one : s.step event = some s') : TailInv s' :=
  inv.fired (step_fired one)

end TailInv

/-! ### Coming back -/

/-- `yos_start` does not come back from a state, and is not gone back to. -/
structure NeverBack (s : Sys) : Prop where
  /-- The tail does not go on after its `schedule()`. -/
  past : s.critical = none → s.kernel.pendsv = false → s.context s.current ≠ .startDone
  /-- The `schedule()` leaves a switch to another task pended when interrupts are enabled again. -/
  call : s.context s.current = .start → ∀ s', s.step (.call .schedule) = some s' →
    ∃ s'', runEvents Sys.step s' (List.replicate Call.schedule.statements .exec) = some s'' ∧
      s''.critical = none ∧ s''.kernel.pendsv = true ∧ s''.kernel.nextTaskId ≠ s.current
  /-- So does a tick that comes earlier. -/
  tick : s.context s.current = .start → s.critical = none →
    s.afterHandler.kernel.pendsv = true ∧ s.afterHandler.kernel.nextTaskId ≠ s.current
  /-- A switch never goes to code in `yos_start`: a CREATED task begins at `_yos_task_shell`. -/
  rebuilt : s.kernel.pendsv = true →
    s.context s.kernel.nextTaskId ≠ .start ∧ s.context s.kernel.nextTaskId ≠ .startDone ∧
      (s.kernel.status s.kernel.nextTaskId = .created → s.context s.kernel.nextTaskId = .shell)

theorem TailInv.neverBack {s : Sys} (inv : TailInv s) : NeverBack s := by
  refine ⟨fun enabled clear done => ?_, fun start s' called => ?_, fun start enabled => ?_,
    fun pended => ?_⟩
  · rcases inv.done done with ⟨disabled, _⟩ | pended
    · exact disabled enabled
    · exact nomatch clear.symm.trans pended
  · obtain ⟨s'', finish, enabled, pended, _, away⟩ :=
      call_pends inv.toInv called (inv.user (Or.inl start))
    exact ⟨s'', finish, enabled, pended, away⟩
  · have pended := inv.toKernelInv.handler_pends (inv.user (Or.inl start))
    have away := (inv.toKernelInv.handled.pending pended).away
    rw [(sysTickHandler_handled s.kernel inv.currentInside).currentTaskId] at away
    exact ⟨pended, away⟩
  · have pending := inv.pending pended
    obtain ⟨notStart, notDone⟩ := inv.next pended
    refine ⟨notStart, notDone, fun created => ?_⟩
    have fits := inv.points _ (inv.next_lt pended)
    rcases fits.of_runnable (Or.inl created) notStart notDone with shell | ⟨_, running⟩
    · exact shell
    · exact nomatch created.symm.trans running

/-- `yos_start` never comes back in a run. -/
def NeverComesBack (calls : List CreateArgs) : Prop :=
  ∀ first events s, Started calls first → runEvents Sys.step first events = some s → NeverBack s

/-- With a user task, the first task is not the idle task. -/
theorem Started.tailInv {calls : List CreateArgs} {first : Sys} (started : Started calls first)
    (valid : ∃ call ∈ calls, call.Valid) : TailInv first := by
  obtain ⟨image, mem, k, mutexes, start, rfl⟩ := started
  have boot := BootInv.init image mem
  have inv := boot.createTasks calls
  have user := createTasks_user boot valid
  have found := (yosStart_effect inv.currentInside start).1
  have notIdle : k.currentTaskId ≠ 0 := by
    have created := (inv.created 1 user).1
    rw [inv.first] at found
    exact found.ne_of_good (by decide) (by decide) (Or.inl created) (by decide)
  have here := startedSys_first k mutexes
  exact ⟨inv.lifeInv start mutexes, fun _ => notIdle, fun done => nomatch here.symm.trans done⟩

/-! ### The idle task alone -/

/-- The state when `yos_start` enables interrupts with the idle task alone. -/
def idleStart : Option Sys :=
  (yosStart (yosInit (zeroedKernel ⟨0x08000101, 0x08000201, 0x08000301⟩ fun _ => 0)) true).map
    fun k => startedSys k fun _ => ⟨ymutexOwnerNone⟩

/-- The `schedule()` of the tail. -/
def tailEvents : List Event := [.call .schedule, .exec, .exec, .exec]

/-- The tail goes on after its `schedule()`. -/
theorem idleStart_comesBack :
    (idleStart.bind fun s => runEvents Sys.step s tailEvents).any fun s =>
      decide (s.critical = none ∧ s.kernel.pendsv = false ∧ s.context s.current = .startDone) := by
  decide +kernel

/-- **With the idle task alone, `yos_start` comes back.** -/
theorem comesBack_of_refused {calls : List CreateArgs} (refused : ∀ call ∈ calls, ¬ call.Valid) :
    ¬ NeverComesBack calls := by
  intro never
  obtain ⟨s, run, here⟩ := (Option.any_eq_true _ _).mp idleStart_comesBack
  rw [decide_eq_true_eq] at here
  obtain ⟨first, start, run⟩ := Option.bind_eq_some_iff.mp run
  obtain ⟨k, boot, same⟩ := Option.map_eq_some_iff.mp start
  have started : Started calls first := by
    refine ⟨⟨0x08000101, 0x08000201, 0x08000301⟩, fun _ => 0, k, fun _ => ⟨ymutexOwnerNone⟩, ?_,
      same.symm⟩
    rw [createTasks_refused refused]
    exact boot
  exact (never first tailEvents s started run).past here.1 here.2.1 here.2.2

/-- **When `yos_start` never comes back**: exactly when `main` has created a task before it. -/
theorem yosStart_neverComesBack_iff (calls : List CreateArgs) :
    NeverComesBack calls ↔ ∃ call ∈ calls, call.Valid := by
  constructor
  · intro never
    by_contra none
    exact comesBack_of_refused (fun call member valid => none ⟨call, member, valid⟩) never
  · intro valid first events s started run
    exact (runEvents_invariant TailInv (fun _ _ _ inv one => inv.step one)
      (started.tailInv valid) run).neverBack

/-- No task is created. -/
theorem yosStart_comesBack_idle : ¬ NeverComesBack [] :=
  comesBack_of_refused fun _ member => absurd member List.not_mem_nil

end YosStm32
