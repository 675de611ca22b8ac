/-
**Task information** (`yos_get_task_info` in `yos.c`).

The function runs with interrupts disabled. The name is copied with `strcpy`: `none` is a name
without a terminator in its slot, or one longer than the field that it is copied to.
-/

import YosStm32.Kernel.Task
import YosStm32.Lib.CString

namespace YosStm32

open Lib

/-- `struct yos_task_info`. -/
structure YosTaskInfo where
  id : Int
  status : YosTaskStatus
  stackSize : Nat
  stackMaxReachedSize : Nat
  name : List UInt8
  deriving DecidableEq, Repr

/-- `strcpy`. -/
def strcpy (dest src : List UInt8) : Option (List UInt8) :=
  (cString src).bind fun text =>
    if text.length < dest.length then some (text ++ 0 :: dest.drop (text.length + 1)) else none

/-- `yos_get_task_info`: the value returned, and what `task_info` points to. -/
def yosGetTaskInfo (k : Kernel) (taskId : Int) (taskInfo : Option YosTaskInfo) :
    Option (Int × Option YosTaskInfo) :=
  if taskId < 0 ∨ taskId ≥ (yosMaxTaskCount : Int) then some (-1, taskInfo)
  else
    let task := k.allTasks taskId.toNat
    if task.status = .created ∨ task.status = .running ∨ task.status = .waiting ∨
        task.status = .exited then
      match taskInfo with
      | none => some (0, none)
      | some info => (strcpy info.name task.name).map fun name =>
          (0, some
            { id := taskId
              status := task.status
              stackSize := task.stackSize
              -- The difference is a `uint32_t`, the field a `uint16_t`.
              stackMaxReachedSize := wrapSub task.bp task.minSpByNow % 2 ^ 16
              name := name })
    else some (-1, taskInfo)

section Info

variable {k : Kernel} {id : Nat}

/-- A slot that is INVALID has no information. -/
theorem yosGetTaskInfo_invalid (invalid : k.status id = .invalid) (taskInfo : Option YosTaskInfo) :
    yosGetTaskInfo k id taskInfo = some (-1, taskInfo) := by
  rw [Kernel.status] at invalid
  unfold yosGetTaskInfo
  split
  · rfl
  · simp only [Int.toNat_natCast, invalid, reduceCtorEq, or_self, if_false]

/-- Every other slot passes the two checks. -/
theorem yosGetTaskInfo_known (inside : id < yosMaxTaskCount) (valid : k.status id ≠ .invalid) :
    ¬ ((id : Int) < 0 ∨ (id : Int) ≥ (yosMaxTaskCount : Int)) ∧
      (k.status id = .created ∨ k.status id = .running ∨ k.status id = .waiting ∨
        k.status id = .exited) := by
  refine ⟨by omega, ?_⟩
  revert valid
  cases k.status id <;> simp

theorem yosGetTaskInfo_valid (inside : id < yosMaxTaskCount) (valid : k.status id ≠ .invalid) :
    yosGetTaskInfo k id none = some (0, none) := by
  obtain ⟨checked, known⟩ := yosGetTaskInfo_known inside valid
  rw [Kernel.status] at known
  rw [yosGetTaskInfo, if_neg checked]
  simp only [Int.toNat_natCast, if_pos known]

/-- A string that fits is copied with its terminator. -/
theorem strcpy_fits {dest src text : List UInt8} (reads : cString src = some text)
    (fits : text.length < dest.length) :
    ∃ out, strcpy dest src = some out ∧ out.length = dest.length ∧ cString out = some text := by
  refine ⟨text ++ 0 :: dest.drop (text.length + 1), ?_, ?_, cString_terminated (cString_clean reads)⟩
  · rw [strcpy, reads, Option.bind_some, if_pos fits]
  · rw [List.length_append, List.length_cons, List.length_drop]
    omega

end Info

end YosStm32
