/-
**The task table and the globals of the kernel** (`yos.c`, `yos.h`, `yos_core.h`, `ystack.h`).

`Kernel` holds the static variables of `yos.c`, the PendSV pending bit of the interrupt controller
and the RAM words that the kernel writes (the task stacks). A pointer into `_all_tasks` is the index
of the slot, a `NULL` pointer is `none`; pointers and words are naturals with the 32-bit wrap written
out. Creation (`yosCreateTask`) and initialisation (`yosInit`) are here, the scheduler is in
`Kernel.Scheduler`.
-/

import YosStm32.Lib.WordMemory

namespace YosStm32

open Lib

/-! ### Constants -/

/-- `YOS_MAX_TASK_COUNT`. -/
abbrev yosMaxTaskCount : Nat := 8

/-- `YOS_TASK_NAME_MAX_LENGTH`. -/
def yosTaskNameMaxLength : Nat := 8

/-- `YOS_SRAM_BASE_ADDRESS`. -/
def yosSramBaseAddress : Nat := 0x20000000

/-- `SRAM_SIZE`. -/
def sramSize : Nat := 20 * 1024

/-- `YOS_MAIN_STACK_SIZE`. -/
def yosMainStackSize : Nat := 1024 * 1

/-- `YOS_PROCESS_STACK_ADDRESS`. -/
def yosProcessStackAddress : Nat := yosSramBaseAddress + sramSize - yosMainStackSize

/-- `YOS_IDLE_TASK_STACK_SIZE`, without debug output. -/
def yosIdleTaskStackSize : Nat := 128

/-- `YOS_IDLE_TASK_NAME`: `"yosidle"`. -/
def yosIdleTaskName : List UInt8 := [121, 111, 115, 105, 100, 108, 101]

/-! ### Tasks -/

/-- `enum yos_task_status`. -/
inductive YosTaskStatus where
  | invalid
  | created
  | running
  | waiting
  | exited
  deriving DecidableEq, Repr

/-- The two statuses that the scheduler may switch to. -/
def YosTaskStatus.Runnable (status : YosTaskStatus) : Prop :=
  status = .created ∨ status = .running

instance : DecidablePred YosTaskStatus.Runnable :=
  fun status => inferInstanceAs (Decidable (status = .created ∨ status = .running))

/-- `struct yos_task`, with `YOS_RECORD_STACK_USAGE` on. -/
structure YosTask where
  taskFunc : Option Nat
  data : Nat
  bp : Nat
  sp : Nat
  minSpByNow : Nat
  stackSize : Nat
  status : YosTaskStatus
  blockTicks : Nat
  name : List UInt8
  deriving DecidableEq, Repr

/-- The fields that only `yos_create_task` writes. -/
def YosTask.fixed (task : YosTask) : Option Nat × Nat × Nat × Nat × List UInt8 :=
  (task.taskFunc, task.data, task.bp, task.stackSize, task.name)

/-- The code addresses that the kernel stores in data, fixed by the linker. -/
structure Image where
  yosTaskShell : Nat
  yosStartError : Nat
  yosIdleTask : Nat
  deriving DecidableEq, Repr

/-- The statics of `yos.c`, the PendSV pending bit and the RAM. -/
structure Kernel where
  image : Image
  allTasks : Nat → YosTask
  stackBpForNextTask : Nat
  taskIdForNext : Nat
  currentTaskId : Nat
  currentTask : Option Nat
  tmpSp : Nat
  nextTaskId : Nat
  nextTask : Option Nat
  isSystickTriggerByInt : Bool
  pendsv : Bool
  mem : WordMemory

namespace Kernel

/-- The status of a slot. -/
def status (k : Kernel) (id : Nat) : YosTaskStatus := (k.allTasks id).status

/-- Overwrite one slot. -/
def setTask (k : Kernel) (id : Nat) (task : YosTask) : Kernel :=
  { k with allTasks := Function.update k.allTasks id task }

/-- Store the status of a slot. -/
def setStatus (k : Kernel) (id : Nat) (status : YosTaskStatus) : Kernel :=
  k.setTask id { k.allTasks id with status := status }

section Setters

variable (k : Kernel) (id other : Nat) (task : YosTask) (status : YosTaskStatus)

@[simp] theorem setTask_allTasks :
    (k.setTask id task).allTasks = Function.update k.allTasks id task := rfl
@[simp] theorem setTask_taskIdForNext : (k.setTask id task).taskIdForNext = k.taskIdForNext := rfl
@[simp] theorem setTask_currentTaskId : (k.setTask id task).currentTaskId = k.currentTaskId := rfl
@[simp] theorem setTask_currentTask : (k.setTask id task).currentTask = k.currentTask := rfl
@[simp] theorem setTask_nextTaskId : (k.setTask id task).nextTaskId = k.nextTaskId := rfl
@[simp] theorem setTask_nextTask : (k.setTask id task).nextTask = k.nextTask := rfl
@[simp] theorem setTask_flag :
    (k.setTask id task).isSystickTriggerByInt = k.isSystickTriggerByInt := rfl
@[simp] theorem setTask_pendsv : (k.setTask id task).pendsv = k.pendsv := rfl

theorem setTask_status :
    (k.setTask id task).status other = if other = id then task.status else k.status other := by
  simp only [Kernel.status, setTask_allTasks, Function.update_apply]
  split <;> rfl

theorem setStatus_status :
    (k.setStatus id status).status other = if other = id then status else k.status other :=
  setTask_status k id other _

/-- A store that leaves the slot's status alone. -/
theorem setTask_sameStatus (same : task.status = k.status id) :
    (k.setTask id task).status other = k.status other := by
  rw [setTask_status]
  split
  · rename_i here
    rw [here, same]
  · rfl

theorem setTask_fixed (same : task.fixed = (k.allTasks id).fixed) :
    ((k.setTask id task).allTasks other).fixed = (k.allTasks other).fixed := by
  rw [setTask_allTasks, Function.update_apply]
  split
  · rename_i here
    rw [here, same]
  · rfl

end Setters

end Kernel

/-! ### The C library calls of `yos_create_task` -/

/-- `strncpy` of a string without its terminator into a buffer of `size` bytes. -/
def strncpy (size : Nat) (source : List UInt8) : List UInt8 :=
  source.take size ++ List.replicate (size - source.length) 0

/-- `snprintf` of an already formatted text: at most `size - 1` bytes and the terminator, the rest of
the buffer stays. -/
def snprintf (buffer : List UInt8) (size : Nat) (text : List UInt8) : List UInt8 :=
  text.take (size - 1) ++ 0 :: buffer.drop ((text.take (size - 1)).length + 1)

/-- The text of `"Tsk%03d"` for a task id. -/
def taskDefaultName (id : Nat) : List UInt8 :=
  [84, 115, 107, UInt8.ofNat (48 + id / 100 % 10), UInt8.ofNat (48 + id / 10 % 10),
    UInt8.ofNat (48 + id % 10)]

/-! ### Creation and initialisation -/

/-- `yos_create_task`: the id, or `-1` with nothing changed. -/
def yosCreateTask (k : Kernel) (taskFunc : Option Nat) (data stackSize : Nat)
    (name : Option (List UInt8)) : Int × Kernel :=
  if taskFunc = none ∨ stackSize = 0 ∨ k.taskIdForNext ≥ yosMaxTaskCount then
    (-1, k)
  else
    let taskId := k.taskIdForNext
    let old := k.allTasks taskId
    let named := match name with
      | some text => strncpy yosTaskNameMaxLength text
      | none => snprintf old.name yosTaskNameMaxLength (taskDefaultName taskId)
    let task : YosTask :=
      { taskFunc := taskFunc
        data := data
        bp := k.stackBpForNextTask
        sp := k.stackBpForNextTask
        minSpByNow := k.stackBpForNextTask
        stackSize := stackSize
        status := .created
        blockTicks := 0
        name := named.set (yosTaskNameMaxLength - 1) 0 }
    (taskId,
      { k.setTask taskId task with
        taskIdForNext := taskId + 1
        stackBpForNextTask := wrapSub k.stackBpForNextTask stackSize })

/-- The loop over the whole table that `yos_init` and the tick handler share. -/
def mapTasks (f : YosTask → YosTask) (tasks : Nat → YosTask) : Nat → YosTask :=
  (List.range yosMaxTaskCount).foldl (fun table id => Function.update table id (f (table id))) tasks

theorem foldl_update_range {α : Type} (f : α → α) (table : Nat → α) (count : Nat) :
    (List.range count).foldl (fun table id => Function.update table id (f (table id))) table =
      fun id => if id < count then f (table id) else table id := by
  induction count with
  | zero => funext id; simp
  | succ count ih =>
      rw [List.range_succ, List.foldl_append, ih]
      funext id
      by_cases last : id = count
      · subst last
        simp
      · have bound : id < count + 1 ↔ id < count := by omega
        simp [Function.update_of_ne last, bound]

theorem mapTasks_apply (f : YosTask → YosTask) (tasks : Nat → YosTask) (id : Nat) :
    mapTasks f tasks id = if id < yosMaxTaskCount then f (tasks id) else tasks id :=
  congrFun (foldl_update_range f tasks yosMaxTaskCount) id

/-- `yos_init`. Creating the idle task in the emptied table cannot fail (`yosInit_taskId`), so the
`int` it stores into `_CURRENT_TASK_ID` is a natural. -/
def yosInit (k : Kernel) : Kernel :=
  let emptied : Kernel :=
    { k with
      stackBpForNextTask := yosProcessStackAddress
      taskIdForNext := 0
      allTasks := mapTasks (fun task => { task with status := .invalid }) k.allTasks }
  let (taskId, created) :=
    yosCreateTask emptied (some k.image.yosIdleTask) 0 yosIdleTaskStackSize (some yosIdleTaskName)
  { created with currentTaskId := taskId.toNat }

/-- **What a creation does**: nothing, or it fills the next slot and moves the two counters on. -/
theorem yosCreateTask_cases (k : Kernel) (taskFunc : Option Nat) (data stackSize : Nat)
    (name : Option (List UInt8)) :
    yosCreateTask k taskFunc data stackSize name = (-1, k) ∨
      k.taskIdForNext < yosMaxTaskCount ∧
        ∃ task : YosTask, task.status = .created ∧ task.taskFunc = taskFunc ∧ taskFunc ≠ none ∧
          yosCreateTask k taskFunc data stackSize name =
            ((k.taskIdForNext : Int),
              { k.setTask k.taskIdForNext task with
                taskIdForNext := k.taskIdForNext + 1
                stackBpForNextTask := wrapSub k.stackBpForNextTask stackSize }) := by
  unfold yosCreateTask
  split
  · exact Or.inl rfl
  · rename_i accepted
    simp only [not_or, ge_iff_le, Nat.not_le] at accepted
    exact Or.inr ⟨accepted.2.2, _, rfl, rfl, accepted.1, rfl⟩

/-- The creation as the invariants see it: only the next slot changes, to CREATED. -/
theorem yosCreateTask_effect (k : Kernel) (taskFunc : Option Nat) (data stackSize : Nat)
    (name : Option (List UInt8)) {k' : Kernel}
    (result : (yosCreateTask k taskFunc data stackSize name).2 = k') :
    k' = k ∨ k.taskIdForNext < yosMaxTaskCount ∧ k'.taskIdForNext = k.taskIdForNext + 1 ∧
      k'.currentTask = k.currentTask ∧ k'.currentTaskId = k.currentTaskId ∧ k'.pendsv = k.pendsv ∧
      k'.isSystickTriggerByInt = k.isSystickTriggerByInt ∧
      k'.status k.taskIdForNext = .created ∧ (k'.allTasks k.taskIdForNext).taskFunc ≠ none ∧
      ∀ id, id ≠ k.taskIdForNext → k'.allTasks id = k.allTasks id := by
  rcases yosCreateTask_cases k taskFunc data stackSize name with
    refused | ⟨room, task, created, func, given, made⟩
  · rw [refused] at result
    exact Or.inl result.symm
  · rw [made] at result
    subst result
    refine Or.inr ⟨room, rfl, rfl, rfl, rfl, rfl, ?_, ?_, fun id other => ?_⟩
    · simpa only [Kernel.status, Kernel.setTask_allTasks, Function.update_self] using created
    · simpa only [Kernel.setTask_allTasks, Function.update_self, func] using given
    · simp only [Kernel.setTask_allTasks, Function.update_of_ne other]

theorem yosInit_taskId (k : Kernel) : (yosInit k).currentTaskId = 0 := rfl

/-- The table after `yos_init`: the idle task, and empty slots. -/
theorem yosInit_effect (k : Kernel) :
    (yosInit k).taskIdForNext = 1 ∧ (yosInit k).pendsv = k.pendsv ∧
      (yosInit k).isSystickTriggerByInt = k.isSystickTriggerByInt ∧
      (yosInit k).status 0 = .created ∧ ((yosInit k).allTasks 0).taskFunc ≠ none ∧
      ∀ id, id ≠ 0 → id < yosMaxTaskCount → (yosInit k).status id = .invalid := by
  refine ⟨rfl, rfl, rfl, rfl, Option.some_ne_none _, fun id user inside => ?_⟩
  have table : (yosInit k).allTasks id =
      mapTasks (fun task => { task with status := .invalid }) k.allTasks id :=
    Function.update_of_ne user _ _
  rw [Kernel.status, table, mapTasks_apply, if_pos inside]

end YosStm32
