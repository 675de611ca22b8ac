/-
**The kernel with its tasks and interrupts.**

`Sys` adds to the kernel's statics what the processor is executing: the point each task's code has
reached, and the statement the running code stands at while interrupts are disabled. `step` takes
one event:

* `sysTick` and `pendSv`, the two exceptions, only while interrupts are enabled (they have one
  priority, so neither comes inside the other); PendSV also needs its pending bit;
* `exec`, the next statement of the critical section of `schedule` or `yos_task_delay`;
* what the running task does with interrupts enabled: calls, the two status stores of
  `_yos_task_shell`, the mutex sections, creations. A pended PendSV is taken before any of these.

A task function is an arbitrary sequence of such calls; the idle task's never delays and never
returns. `context` stands for what is saved on the stacks: it assumes that every stack is large enough for
the contexts saved on it, and that a task writes inside its own stack only. Contexts are kept word by word
under the same assumptions (`Layout`, `Switchable`). `Started` is what `yos_init`, a list of
`yos_create_task` calls and `yos_start` leave behind when interrupts are enabled, `Reachable` is every later
state.
-/

import YosStm32.Kernel.Scheduler
import YosStm32.Lib.Run
import YosStm32.Mutex.Ymutex

namespace YosStm32

open Lib Mutex

/-- Where the code of a task stands between its calls. -/
inductive ThreadPoint where
  /-- In `yos_start`, before its `schedule()`. -/
  | start
  /-- In `yos_start`, in or after its `schedule()`. -/
  | startDone
  /-- At the entry of `_yos_task_shell`. -/
  | shell
  /-- In the task function. -/
  | body
  /-- In `_yos_task_shell`, before its `schedule()`. -/
  | resched
  /-- In `_yos_task_shell`, in or after its `schedule()`. -/
  | reschedDone
  deriving DecidableEq, Repr

/-- The next statement, with interrupts disabled. -/
inductive CriticalPoint where
  /-- `_CURRENT_TASK->status = YOS_TASK_STATUS_WAITING`. -/
  | delayStatus (ticks : Nat)
  /-- `_CURRENT_TASK->block_ticks = ticks`. -/
  | delayTicks (ticks : Nat)
  /-- `is_systick_trigger_by_int = 0`. -/
  | scheduleFlag
  /-- `sys_tick_handler()`. -/
  | handler
  /-- `cm_enable_interrupts()`. -/
  | enable
  deriving DecidableEq, Repr

/-- The kernel calls that switch tasks. -/
inductive Call where
  | schedule
  | delay (ticks : Nat)
  deriving DecidableEq, Repr

/-- The first statement of a call after `cm_disable_interrupts()`. -/
def Call.entry : Call → CriticalPoint
  | .schedule => .scheduleFlag
  | .delay ticks => .delayStatus ticks

/-- The number of statements of a call after `cm_disable_interrupts()`. -/
def Call.statements : Call → Nat
  | .schedule => 3
  | .delay _ => 5

/-- Where a task can make the call, and where it stands after it. -/
def Call.resume : Call → ThreadPoint → Option ThreadPoint
  | _, .body => some .body
  | .schedule, .start => some .startDone
  | .schedule, .resched => some .reschedDone
  | _, _ => none

inductive Event where
  | sysTick
  | pendSv (tmpSp : Nat)
  | exec
  | call (call : Call)
  | enterTask
  | returnTask
  | tryLock (mutex : Nat)
  | unlock (mutex : Nat)
  | deinitStore (mutex : Nat)
  | create (taskFunc : Option Nat) (data stackSize : Nat) (name : Option (List UInt8))
  deriving DecidableEq, Repr

structure Sys where
  kernel : Kernel
  context : Nat → ThreadPoint
  critical : Option CriticalPoint
  mutexes : Nat → Ymutex

namespace Sys

/-- The task whose context is running has the id that the kernel works with. -/
abbrev current (s : Sys) : Nat := s.kernel.currentTaskId

/-- `sys_tick_handler`. Building a frame makes the task begin at `_yos_task_shell`. -/
def afterHandler (s : Sys) : Sys :=
  let (leave, kernel) := sysTickHandler s.kernel
  { s with
    kernel := kernel
    context := if leave = .switchCreated then
        Function.update s.context kernel.nextTaskId .shell
      else s.context }

@[simp] theorem afterHandler_kernel (s : Sys) : s.afterHandler.kernel = (sysTickHandler s.kernel).2 :=
  rfl
@[simp] theorem afterHandler_critical (s : Sys) : s.afterHandler.critical = s.critical := rfl

/-- The running task does something, with interrupts enabled and no PendSV waiting. -/
def asThread (s : Sys) (act : Nat → Option Sys) : Option Sys :=
  if s.critical = none ∧ s.kernel.pendsv = false then s.kernel.currentTask.bind act else none

theorem asThread_eq_some {s s' : Sys} {act : Nat → Option Sys} :
    s.asThread act = some s' ↔ s.critical = none ∧ s.kernel.pendsv = false ∧
      ∃ task, s.kernel.currentTask = some task ∧ act task = some s' := by
  unfold asThread
  split
  · rename_i free
    simp [free, Option.bind_eq_some_iff]
  · rename_i busy
    simp only [reduceCtorEq, false_iff]
    rintro ⟨enabled, clear, _⟩
    exact busy ⟨enabled, clear⟩

/-- The mutex sections and stores only happen in task functions. -/
def asMutexUser (s : Sys) (mutex : Nat) (act : Ymutex → Ymutex) : Option Sys :=
  s.asThread fun task =>
    if s.context task = .body then
      some { s with mutexes := Function.update s.mutexes mutex (act (s.mutexes mutex)) }
    else none

/-- One statement with interrupts disabled. -/
def execute (s : Sys) : Option Sys :=
  match s.critical with
  | none => none
  | some (.delayStatus ticks) => s.kernel.currentTask.map fun task =>
      { s with
        kernel := s.kernel.setStatus task .waiting
        critical := some (.delayTicks ticks) }
  | some (.delayTicks ticks) => s.kernel.currentTask.map fun task =>
      { s with
        kernel := s.kernel.setTask task { s.kernel.allTasks task with blockTicks := ticks }
        critical := some .scheduleFlag }
  | some .scheduleFlag => some
      { s with
        kernel := { s.kernel with isSystickTriggerByInt := false }
        critical := some .handler }
  | some .handler => some { s.afterHandler with critical := some .enable }
  | some .enable => some { s with critical := none }

/-- One event. -/
def step (s : Sys) : Event → Option Sys
  | .sysTick => if s.critical = none then some s.afterHandler else none
  | .pendSv tmpSp =>
      if s.critical = none ∧ s.kernel.pendsv = true then
        (pendSvSwitch { s.kernel with pendsv := false } tmpSp).map fun kernel =>
          { s with kernel := kernel }
      else none
  | .exec => s.execute
  | .call call => s.asThread fun task =>
      -- The idle task never delays.
      if task = 0 ∧ call ≠ .schedule then none
      else (call.resume (s.context task)).map fun point =>
        { s with
          context := Function.update s.context task point
          critical := some call.entry }
  | .enterTask => s.asThread fun task =>
      if s.context task = .shell then
        match (s.kernel.allTasks task).taskFunc with
        | some _ => some
            { s with
              kernel := s.kernel.setStatus task .running
              context := Function.update s.context task .body }
        | none => some
            { s with
              kernel := s.kernel.setStatus task .exited
              context := Function.update s.context task .resched }
      else none
  | .returnTask => s.asThread fun task =>
      if s.context task = .body ∧ task ≠ 0 then some
        { s with
          kernel := s.kernel.setStatus task .exited
          context := Function.update s.context task .resched }
      else none
  | .tryLock mutex => s.asMutexUser mutex fun m => (tryLockSection m s.current).2
  | .unlock mutex => s.asMutexUser mutex fun m => (unlockSection m s.current).2
  | .deinitStore mutex => s.asMutexUser mutex deinitStore
  | .create taskFunc data stackSize name => s.asThread fun task =>
      if s.context task = .body then
        some { s with kernel := (yosCreateTask s.kernel taskFunc data stackSize name).2 }
      else none

end Sys

/-! ### Start -/

/-- The arguments of one `yos_create_task` call. -/
structure CreateArgs where
  taskFunc : Option Nat
  data : Nat
  stackSize : Nat
  name : Option (List UInt8)

/-- The `yos_create_task` calls that `main` makes before `yos_start`. -/
def createTasks (k : Kernel) (calls : List CreateArgs) : Kernel :=
  calls.foldl (fun k call => (yosCreateTask k call.taskFunc call.data call.stackSize call.name).2) k

/-- The statics as the program finds them: zeroed, `is_systick_trigger_by_int` set. -/
def zeroedKernel (image : Image) (mem : WordMemory) : Kernel :=
  { image := image
    allTasks := fun _ =>
      { taskFunc := none, data := 0, bp := 0, sp := 0, minSpByNow := 0, stackSize := 0
        status := .created, blockTicks := 0, name := List.replicate yosTaskNameMaxLength 0 }
    stackBpForNextTask := 0
    taskIdForNext := 0
    currentTaskId := 0
    currentTask := none
    tmpSp := 0
    nextTaskId := 0
    nextTask := none
    isSystickTriggerByInt := true
    pendsv := false
    mem := mem }

/-- `yos_start` up to the point where it enables interrupts. `systickSetFrequency` is what the
library call of that name returns; `none` is an early return. -/
def yosStart (k : Kernel) (systickSetFrequency : Bool) : Option Kernel :=
  let (firstTaskId, k) := findNextTaskToRun k
  if firstTaskId ≥ yosMaxTaskCount then none
  else if systickSetFrequency = false then none
  else
    let k := { k with currentTaskId := firstTaskId, currentTask := some firstTaskId }
    let k := { k with nextTask := some firstTaskId, nextTaskId := firstTaskId }
    some (yosInitTaskStack k firstTaskId firstTaskId)

/-- The system when `yos_start` enables interrupts: the tail of `yos_start` runs in the first
task's place. -/
def startedSys (k : Kernel) (mutexes : Nat → Ymutex) : Sys :=
  { kernel := k
    context := Function.update (fun _ => .shell) k.currentTaskId .start
    critical := none
    mutexes := mutexes }

/-- `s` is the state in which `yos_start` enables interrupts, after `yos_init` and the calls. -/
def Started (calls : List CreateArgs) (s : Sys) : Prop :=
  ∃ image mem k mutexes,
    yosStart (createTasks (yosInit (zeroedKernel image mem)) calls) true = some k ∧
      s = startedSys k mutexes

/-- Every state after `yos_start` has enabled interrupts. -/
def Reachable (s : Sys) : Prop :=
  ∃ calls first events, Started calls first ∧ runEvents Sys.step first events = some s

end YosStm32
