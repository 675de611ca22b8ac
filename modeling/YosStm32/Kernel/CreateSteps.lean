/-
**`yos_create_task`, statement by statement.**

After `yos_start` a tick can come between any two statements of a call, and switch to another task that
is in a call of its own: the function has no critical section. `Creation` holds a call's arguments, its
`task_id` and its next statement; the globals and the table are the kernel's. All other steps are those
of `Sys.step`, the interrupts' between the statements of a call, too.

A call reads `task_id_for_next` long before it counts it up (`CreationPoint.holdsId`), and
`stack_bp_for_next_task` long before it moves it (`CreationPoint.holdsBp`).
-/

import YosStm32.Kernel.Creation
import YosStm32.Lib.Threads

namespace YosStm32

open Lib

/-- The arguments of a call, as their types allow them. -/
structure CreateCall extends CreateArgs where
  typed : toCreateArgs.Typed

/-- The next statement of a call. -/
inductive CreationPoint where
  /-- The three tests. -/
  | check
  /-- `task_id = task_id_for_next`. -/
  | readId
  /-- The stores into the slot. -/
  | taskFunc
  | data
  | bp
  | sp
  | minSpByNow
  | stackSize
  | status
  | blockTicks
  /-- `strncpy` or `snprintf`. -/
  | name
  /-- `this_task->name[sizeof(this_task->name) - 1] = '\0'`. -/
  | terminator
  /-- `task_id_for_next++`. -/
  | countUp
  /-- `stack_bp_for_next_task -= stack_size`. -/
  | moveBp
  /-- `return task_id`. -/
  | leave
  deriving DecidableEq, Repr

/-- A call of `yos_create_task`. -/
structure Creation where
  args : CreateCall
  taskId : Nat
  point : CreationPoint

/-- A call at its first statement. -/
def CreateCall.begin (args : CreateCall) : Creation := ⟨args, 0, .check⟩

/-- The name field after `strncpy` or `snprintf`. -/
def Creation.named (c : Creation) (old : List UInt8) : List UInt8 :=
  match c.args.name with
  | some text => strncpy yosTaskNameMaxLength text
  | none => snprintf old yosTaskNameMaxLength (taskDefaultName c.taskId)

/-- A store into the slot of a call. -/
def Creation.store (c : Creation) (k : Kernel) (task : YosTask) (next : CreationPoint) :
    Kernel × (Creation ⊕ Int) :=
  (k.setTask c.taskId task, .inl { c with point := next })

/-- One statement: the call goes on, or returns. -/
def creationStatement (k : Kernel) (c : Creation) : Kernel × (Creation ⊕ Int) :=
  let task := k.allTasks c.taskId
  match c.point with
  | .check =>
      if c.args.taskFunc = none ∨ c.args.stackSize = 0 ∨ k.taskIdForNext ≥ yosMaxTaskCount then
        (k, .inr (-1))
      else (k, .inl { c with point := .readId })
  | .readId => (k, .inl { c with taskId := k.taskIdForNext, point := .taskFunc })
  | .taskFunc => c.store k { task with taskFunc := c.args.taskFunc } .data
  | .data => c.store k { task with data := c.args.data } .bp
  | .bp => c.store k { task with bp := k.stackBpForNextTask } .sp
  | .sp => c.store k { task with sp := task.bp } .minSpByNow
  | .minSpByNow => c.store k { task with minSpByNow := task.sp } .stackSize
  | .stackSize => c.store k { task with stackSize := c.args.stackSize } .status
  | .status => c.store k { task with status := .created } .blockTicks
  | .blockTicks => c.store k { task with blockTicks := 0 } .name
  | .name => c.store k { task with name := c.named task.name } .terminator
  | .terminator =>
      c.store k { task with name := task.name.set (yosTaskNameMaxLength - 1) 0 } .countUp
  | .countUp =>
      ({ k with taskIdForNext := k.taskIdForNext + 1 }, .inl { c with point := .moveBp })
  | .moveBp =>
      ({ k with stackBpForNextTask := wrapSub k.stackBpForNextTask c.args.stackSize },
        .inl { c with point := .leave })
  | .leave => (k, .inr c.taskId)

/-- The call and its id, when it returns. -/
def Creation.given (c : Creation) : List (CreateCall × Nat) :=
  if c.point = .leave then [(c.args, c.taskId)] else []

/-! ### The system -/

/-- The kernel, and every task's call. -/
structure CreationSys where
  sys : Sys
  calls : Nat → Option Creation

inductive CreationEvent where
  /-- Anything but a creation. -/
  | sys (event : Event)
  | begin (args : CreateCall)
  | statement

/-- The two exceptions. -/
def Event.isInterrupt : Event → Bool
  | .sysTick | .pendSv _ => true
  | _ => false

namespace CreationSys

/-- The task that runs, with interrupts enabled and no PendSV waiting. -/
def thread (s : CreationSys) : Option Nat :=
  if s.sys.critical = none ∧ s.sys.kernel.pendsv = false then s.sys.kernel.currentTask else none

/-- The running task is in a call. -/
def busy (s : CreationSys) : Bool := (s.sys.kernel.currentTask.bind s.calls).isSome

/-- One step. A task that is in a call does nothing else. -/
def step (s : CreationSys) : CreationEvent → Option CreationSys
  | .sys (.create ..) => none
  | .sys event =>
      if event.isInterrupt ∨ s.busy = false then
        (s.sys.step event).map fun sys => { s with sys := sys }
      else none
  | .begin args => s.thread.bind fun task =>
      if s.sys.context task = .body ∧ (s.calls task).isNone then
        some { s with calls := Function.update s.calls task (some args.begin) }
      else none
  | .statement => s.thread.bind fun task => (s.calls task).map fun c =>
      { s with
        sys := { s.sys with kernel := (creationStatement s.sys.kernel c).1 }
        calls := Function.update s.calls task (creationStatement s.sys.kernel c).2.getLeft? }

/-- The call that a step ends with an id, and the id. -/
def given (s : CreationSys) : CreationEvent → List (CreateCall × Nat)
  | .statement => (s.thread.bind s.calls).elim [] Creation.given
  | _ => []

end CreationSys

/-! ### One statement -/

/-- The call has read `task_id_for_next` and has not counted it up. -/
def CreationPoint.holdsId : CreationPoint → Bool
  | .taskFunc | .data | .bp | .sp | .minSpByNow | .stackSize | .status | .blockTicks | .name
  | .terminator | .countUp => true
  | _ => false

/-- The call has read `stack_bp_for_next_task` and has not moved it. -/
def CreationPoint.holdsBp : CreationPoint → Bool
  | .sp | .minSpByNow | .stackSize | .status | .blockTicks | .name | .terminator | .countUp
  | .moveBp => true
  | _ => false

/-- The slot when the stores from a point on are done, apart from the place of the stack. -/
def Creation.finish (c : Creation) (task : YosTask) : YosTask :=
  match c.point with
  | .taskFunc =>
      { task with
        taskFunc := c.args.taskFunc, data := c.args.data, stackSize := c.args.stackSize
        name := (c.named task.name).set (yosTaskNameMaxLength - 1) 0 }
  | .data =>
      { task with
        data := c.args.data, stackSize := c.args.stackSize
        name := (c.named task.name).set (yosTaskNameMaxLength - 1) 0 }
  | .bp | .sp | .minSpByNow | .stackSize =>
      { task with
        stackSize := c.args.stackSize
        name := (c.named task.name).set (yosTaskNameMaxLength - 1) 0 }
  | .status | .blockTicks | .name =>
      { task with name := (c.named task.name).set (yosTaskNameMaxLength - 1) 0 }
  | .terminator => { task with name := task.name.set (yosTaskNameMaxLength - 1) 0 }
  | _ => task

/-- **What one statement does.** -/
inductive CreationFor (k : Kernel) (c : Creation) : Kernel × (Creation ⊕ Int) → Prop where
  | refuse (place : c.point = .check) : CreationFor k c (k, .inr (-1))
  | pass (place : c.point = .check) : CreationFor k c (k, .inl { c with point := .readId })
  | readId (place : c.point = .readId) :
      CreationFor k c (k, .inl { c with taskId := k.taskIdForNext, point := .taskFunc })
  | bp (place : c.point = .bp) :
      CreationFor k c
        (c.store k { k.allTasks c.taskId with bp := k.stackBpForNextTask } .sp)
  /-- A store of another field. -/
  | store {task : YosTask} {next : CreationPoint} (holdsId : c.point.holdsId = true)
      (holdsId' : next.holdsId = true) (holdsBp : next.holdsBp = c.point.holdsBp)
      (bp : task.bp = (k.allTasks c.taskId).bp)
      (size : (k.allTasks c.taskId).name.length = yosTaskNameMaxLength →
        task.name.length = yosTaskNameMaxLength)
      (finish : ∀ id call, Filled (c.finish (k.allTasks c.taskId)) id call →
        Filled ({ c with point := next }.finish task) id call) :
      CreationFor k c (c.store k task next)
  | countUp (place : c.point = .countUp) :
      CreationFor k c
        ({ k with taskIdForNext := k.taskIdForNext + 1 }, .inl { c with point := .moveBp })
  | moveBp (place : c.point = .moveBp) :
      CreationFor k c
        ({ k with stackBpForNextTask := wrapSub k.stackBpForNextTask c.args.stackSize },
          .inl { c with point := .leave })
  | leave (place : c.point = .leave) : CreationFor k c (k, .inr c.taskId)

theorem Creation.named_length (c : Creation) {old : List UInt8}
    (size : old.length = yosTaskNameMaxLength) : (c.named old).length = yosTaskNameMaxLength := by
  rw [Creation.named]
  split
  · exact strncpy_length _ _
  · have whole : snprintf old yosTaskNameMaxLength (taskDefaultName c.taskId) =
        taskDefaultName c.taskId ++ 0 :: old.drop 7 := rfl
    rw [whole, List.length_append, List.length_cons, List.length_drop, size]
    rfl

theorem creationStatement_for (k : Kernel) (c : Creation) :
    CreationFor k c (creationStatement k c) := by
  rcases c with ⟨args, taskId, point⟩
  cases point with
  | check =>
      rw [creationStatement]
      dsimp only
      split_ifs
      · exact .refuse rfl
      · exact .pass rfl
  | readId => exact .readId rfl
  | bp => exact .bp rfl
  | taskFunc | data | sp | minSpByNow | stackSize | status | blockTicks =>
      refine .store rfl rfl rfl rfl id fun _ _ filled => ?_
      exact ⟨filled.taskFunc, filled.data, filled.stackSize, filled.name⟩
  | name =>
      refine .store rfl rfl rfl rfl (Creation.named_length _) fun _ _ filled => ?_
      exact ⟨filled.taskFunc, filled.data, filled.stackSize, filled.name⟩
  | terminator =>
      refine .store rfl rfl rfl rfl ((List.length_set ..).trans ·) fun _ _ filled => ?_
      exact ⟨filled.taskFunc, filled.data, filled.stackSize, filled.name⟩
  | countUp => exact .countUp rfl
  | moveBp => exact .moveBp rfl
  | leave => exact .leave rfl

/-- **Without interruption** the statements are `yos_create_task`. -/
theorem creationStatement_alone (k : Kernel) (call : CreateCall) :
    let made := yosCreateTask k call.taskFunc call.data call.stackSize call.name
    ∃ fuel, runAlone creationStatement fuel k call.begin = some (made.2, made.1) := by
  intro made
  refine ⟨15, ?_⟩
  by_cases refused : call.taskFunc = none ∨ call.stackSize = 0 ∨ k.taskIdForNext ≥ yosMaxTaskCount
  · have result : made = (-1, k) := if_pos refused
    rw [result]
    simp [runAlone, creationStatement, CreateCall.begin, refused]
  · show _ = some ((yosCreateTask ..).2, (yosCreateTask ..).1)
    rw [yosCreateTask, if_neg refused]
    cases named : call.name <;>
      simp [runAlone, creationStatement, CreateCall.begin, refused, Creation.store, Kernel.setTask,
        Creation.named, named]

end YosStm32
