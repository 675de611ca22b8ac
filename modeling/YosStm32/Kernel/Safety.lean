/-
**The scheduler's state in every reachable state.**

`SchedulerState` states what can be relied on after `yos_start`, in terms of the globals and the
table alone; `schedulerState_reachable` proves it from the invariant. The calls are followed
statement by statement (`call_finishes`): a `schedule()` or `yos_task_delay` runs to its
`cm_enable_interrupts()` through one handler call, and by then a switch is pended.
-/

import YosStm32.Kernel.Invariant

namespace YosStm32

open Lib Mutex

/-! ### A call, statement by statement -/

section Calls

variable {s s' : Sys}

/-- From the flag store on: the handler is entered, and interrupts are enabled after it. -/
theorem schedule_finishes (inv : Inv s) (place : s.critical = some .scheduleFlag) :
    ∃ before, Inv before ∧ before.critical = some .handler ∧ before.current = s.current ∧
      runEvents Sys.step s [.exec, .exec, .exec] =
        some { before.afterHandler with critical := none } := by
  have flagged : s.step .exec = some
      { s with
        kernel := { s.kernel with isSystickTriggerByInt := false }
        critical := some .handler } := by
    simp only [Sys.step, Sys.execute, place]
  refine ⟨_, inv.step flagged, rfl, rfl, ?_⟩
  exact runEvents_cons.mpr ⟨_, flagged, rfl⟩

/-- The two stores of `yos_task_delay` come before the flag store. -/
theorem delay_finishes {ticks : Nat} (inv : Inv s) (place : s.critical = some (.delayStatus ticks)) :
    ∃ before, Inv before ∧ before.critical = some .handler ∧ before.current = s.current ∧
      runEvents Sys.step s [.exec, .exec, .exec, .exec, .exec] =
        some { before.afterHandler with critical := none } := by
  have waits : s.step .exec = some
      { s with
        kernel := s.kernel.setStatus s.current .waiting
        critical := some (.delayTicks ticks) } := by
    simp only [Sys.step, Sys.execute, place, inv.currentTask, Option.map_some]
  have inv' := inv.step waits
  have counts := inv'.currentTask
  generalize waiting : Sys.mk (s.kernel.setStatus s.current .waiting) s.context
    (some (.delayTicks ticks)) s.mutexes = s₁ at waits inv' counts
  have stored : s₁.step .exec = some
      { s₁ with
        kernel := s₁.kernel.setTask s₁.current
          { s₁.kernel.allTasks s₁.current with blockTicks := ticks }
        critical := some .scheduleFlag } := by
    simp only [Sys.step, Sys.execute, ← waiting, Kernel.setStatus, Kernel.setTask_currentTask,
      inv.currentTask, Option.map_some]
    rfl
  obtain ⟨before, inside, entered, same, finish⟩ := schedule_finishes (inv'.step stored) rfl
  refine ⟨before, inside, entered, same.trans ?_, ?_⟩
  · rw [← waiting]
    rfl
  · exact runEvents_cons.mpr ⟨_, waits, runEvents_cons.mpr ⟨_, stored, finish⟩⟩

/-- **A call runs to its end**: its statements, all with interrupts disabled, lead through the tick
handler, entered with the same current task. -/
theorem call_finishes (inv : Inv s) {call : Call} (called : s.step (.call call) = some s') :
    ∃ before, Inv before ∧ before.critical = some .handler ∧ before.current = s.current ∧
      runEvents Sys.step s' (List.replicate call.statements .exec) =
        some { before.afterHandler with critical := none } := by
  have inv' := inv.step called
  obtain ⟨_, _, task, point, _, _, _, rfl⟩ := call_fired called
  cases call with
  | schedule => exact schedule_finishes inv' rfl
  | delay ticks => exact delay_finishes inv' rfl

end Calls

/-! ### What holds after `yos_start` -/

/-- What holds in every state after `yos_start`. -/
structure SchedulerState (s : Sys) : Prop where
  /-- The idle task is CREATED or RUNNING. -/
  idle : s.kernel.status 0 = .created ∨ s.kernel.status 0 = .running
  /-- `_CURRENT_TASK` is `_all_tasks + _CURRENT_TASK_ID`, a task that was created. -/
  current : s.kernel.currentTask = some s.kernel.currentTaskId ∧
    s.kernel.currentTaskId < s.kernel.taskIdForNext
  /-- The slots that were never given out are INVALID. -/
  tail : ∀ id, s.kernel.taskIdForNext ≤ id → id < yosMaxTaskCount → s.kernel.status id = .invalid
  /-- While the current task's thread can run, the task is neither WAITING nor INVALID. -/
  awake : s.critical = none → s.kernel.pendsv = false →
    s.kernel.status s.kernel.currentTaskId ≠ .waiting ∧
      s.kernel.status s.kernel.currentTaskId ≠ .invalid
  /-- At every PendSV entry the next task is another one, and can run. -/
  entry : s.critical = none → s.kernel.pendsv = true →
    s.kernel.nextTask = some s.kernel.nextTaskId ∧ s.kernel.nextTaskId ≠ s.kernel.currentTaskId ∧
      (s.kernel.status s.kernel.nextTaskId = .created ∨
        s.kernel.status s.kernel.nextTaskId = .running)
  /-- A handler call never leaves through an "Invalid task" branch. -/
  branches : (sysTickHandler s.kernel).1 ≠ .exitedTask ∧ (sysTickHandler s.kernel).1 ≠ .invalidTask
  /-- A call by a user task ends with a switch to another task pended. -/
  calls : ∀ call s', s.step (.call call) = some s' → s.kernel.currentTaskId ≠ 0 →
    ∃ s'', runEvents Sys.step s' (List.replicate call.statements .exec) = some s'' ∧
      s''.critical = none ∧ s''.kernel.pendsv = true ∧
      s''.kernel.currentTaskId = s.kernel.currentTaskId ∧
      s''.kernel.nextTaskId ≠ s.kernel.currentTaskId

theorem sysTickHandler_exit (k : Kernel) (inside : k.currentTaskId < yosMaxTaskCount) :
    (sysTickHandler k).1 ≠ .exitedTask ∧ (sysTickHandler k).1 ≠ .invalidTask := by
  unfold sysTickHandler
  split
  · exact scheduleTasks_exit (updateTaskBlockTicksIrq k) inside
  · exact scheduleTasks_exit { k with isSystickTriggerByInt := true } inside

/-- A user task's call leaves a switch pended. -/
theorem call_pends {s s' : Sys} (inv : Inv s) {call : Call} (called : s.step (.call call) = some s')
    (user : s.current ≠ 0) :
    ∃ s'', runEvents Sys.step s' (List.replicate call.statements .exec) = some s'' ∧
      s''.critical = none ∧ s''.kernel.pendsv = true ∧ s''.current = s.current ∧
      s''.kernel.nextTaskId ≠ s.current := by
  obtain ⟨before, inside, _, same, finish⟩ := call_finishes inv called
  have handled := sysTickHandler_handled before.kernel inside.currentInside
  have pended := inside.toKernelInv.handler_pends (ne_of_eq_of_ne same user)
  have current : (sysTickHandler before.kernel).2.currentTaskId = s.current :=
    handled.currentTaskId.trans same
  refine ⟨_, finish, rfl, pended, current, ?_⟩
  rw [← current]
  exact (inside.toKernelInv.handled.pending pended).away

/-- **The scheduler state invariant.** -/
theorem schedulerState_reachable {s : Sys} (reachable : Reachable s) : SchedulerState s := by
  have inv := reachable.inv
  exact
    { idle := inv.idle
      current := ⟨inv.currentTask, inv.currentLt⟩
      tail := inv.tail
      awake := fun enabled clear => ⟨inv.awake enabled clear, inv.alive⟩
      entry := fun _ pended => by
        have pending := inv.pending pended
        exact ⟨pending.nextTask, pending.away, pending.found.good_of_ne pending.away⟩
      branches := sysTickHandler_exit s.kernel inv.currentInside
      calls := fun _ _ called user => call_pends inv called user }

/-! ### A run of one user task -/

/-- One user task is created before `yos_start`. -/
def sampleCalls : List CreateArgs :=
  [{ taskFunc := some 0x08000401, data := 0, stackSize := 1024, name := none }]

def sampleStart : Option Sys :=
  (yosStart (createTasks (yosInit (zeroedKernel ⟨0x08000101, 0x08000201, 0x08000301⟩ fun _ => 0))
    sampleCalls) true).map fun k => startedSys k fun _ => ⟨ymutexOwnerNone⟩

/-- `yos_start` gives way to the idle task, and the next tick starts the user task. -/
def sampleEvents : List Event :=
  [.call .schedule, .exec, .exec, .exec, .pendSv 0x20004000, .sysTick, .pendSv 0x20004800, .enterTask]

def sampleRun : Option Sys := sampleStart.bind fun s => runEvents Sys.step s sampleEvents

theorem sampleRun_isSome : sampleRun.isSome := by decide +kernel

def sampleSys : Sys := sampleRun.get sampleRun_isSome

theorem sampleSys_reachable : Reachable sampleSys := by
  have run : sampleRun = some sampleSys := (Option.some_get sampleRun_isSome).symm
  obtain ⟨first, start, run⟩ := Option.bind_eq_some_iff.mp run
  obtain ⟨k, boot, same⟩ := Option.map_eq_some_iff.mp start
  exact ⟨sampleCalls, first, sampleEvents, ⟨_, _, k, _, boot, same.symm⟩, run⟩

theorem schedulerState_sampleSys : SchedulerState sampleSys :=
  schedulerState_reachable sampleSys_reachable

end YosStm32
