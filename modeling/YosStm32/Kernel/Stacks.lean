/-
**Where the stacks lie.**

`yos_create_task` takes the stack of a task from below the last one, and checks of its size only that
it is not zero: `yos.h` asks the caller to set it properly. The stacks never overlap whatever the sizes
are (`Laid.apart`). Whether a stack also lies inside the RAM, begins at a word address and holds the frame
that the first dispatch puts there depends on its size and on those before it (`Laid.inside_iff`,
`Laid.aligned_iff`, `Laid.frame_iff`); `Laid.safe_iff` says for which sizes all stacks do.
-/

import YosStm32.Kernel.Creation
import Mathlib.Algebra.BigOperators.Ring.List
import Mathlib.Order.Interval.Set.LinearOrder

namespace YosStm32

open Lib

/-- The addresses that `_yos_init_task_stack` writes. -/
def Kernel.frame (k : Kernel) (id : Nat) : Set Nat :=
  Set.Ico ((yosInitTaskStack k id id).allTasks id).sp (k.allTasks id).bp

/-- The frame takes sixteen words. -/
def frameSize : Nat := 64

/-- **The frame of a task** lies right below the top of its stack, and nothing else is written. -/
theorem yosInitTaskStack_frame (k : Kernel) (id : Nat) (room : frameSize ≤ (k.allTasks id).bp)
    (small : (k.allTasks id).bp < 2 ^ 32) :
    ((yosInitTaskStack k id id).allTasks id).sp = (k.allTasks id).bp - frameSize ∧
      ∀ a, a ∉ k.frame id → (yosInitTaskStack k id id).mem a = k.mem a := by
  obtain ⟨pointer, _, frame⟩ := pushWords_spec k.mem (k.allTasks id).bp
    [0x01000000, k.image.yosTaskShell, k.image.yosStartError, 0x12, 0x03, 0x02, 0x01, id,
      0x11, 0x10, 0x09, 0x08, 0x07, 0x06, 0x05, 0x04] room small
  have sp : ((yosInitTaskStack k id id).allTasks id).sp = (k.allTasks id).bp - frameSize := by
    rw [yosInitTaskStack, Kernel.setTask_allTasks, Function.update_self]
    exact pointer
  refine ⟨sp, fun a outside => frame a ?_⟩
  rw [Kernel.frame, sp, Set.mem_Ico, not_and_or, Nat.not_le, Nat.not_lt] at outside
  exact outside

/-- What a stack is expected to be. -/
structure StackSafe (k : Kernel) (id : Nat) : Prop where
  /-- It lies inside the RAM, below the main stack. -/
  inside : yosSramBaseAddress + (k.allTasks id).stackSize ≤ (k.allTasks id).bp ∧
    (k.allTasks id).bp ≤ yosProcessStackAddress
  /-- Its top is a word address. -/
  aligned : 4 ∣ (k.allTasks id).bp
  /-- It has no address in common with another one. -/
  apart : ∀ other, other < k.taskIdForNext → other ≠ id →
    StacksApart (k.allTasks other) (k.allTasks id)
  /-- It holds the frame of the first dispatch. -/
  frame : k.frame id ⊆ (k.allTasks id).stackRegion

/-- Sizes that are set properly. -/
structure SizesFit (sizes : List Nat) : Prop where
  frames : ∀ size ∈ sizes, frameSize ≤ size
  words : ∀ size ∈ sizes.dropLast, 4 ∣ size
  total : sizes.sum ≤ sramSize - yosMainStackSize

namespace Laid

variable {k : Kernel} {made : List CreateArgs} {id : Nat}

theorem inside_iff (laid : Laid k made) (below : id < made.length) :
    yosSramBaseAddress + (k.allTasks id).stackSize ≤ (k.allTasks id).bp ↔
      (stackSizes (made.take (id + 1))).sum ≤ sramSize - yosMainStackSize := by
  have top := laid.bp id below
  have last := laid.take_succ below
  have space : yosProcessStackAddress = yosSramBaseAddress + (sramSize - yosMainStackSize) := rfl
  omega

theorem aligned_iff (laid : Laid k made) (below : id < made.length) :
    4 ∣ (k.allTasks id).bp ↔ 4 ∣ (stackSizes (made.take id)).sum := by
  have top := laid.bp id below
  have space : yosProcessStackAddress = 4 * 134222592 := rfl
  omega

theorem frame_iff (laid : Laid k made) (below : id < made.length) :
    k.frame id ⊆ (k.allTasks id).stackRegion ↔ frameSize ≤ (k.allTasks id).stackSize := by
  obtain ⟨above, under⟩ := laid.noWrap below
  have top := laid.bp id below
  have part := stackSizes_take_le made (Nat.le_of_lt below)
  have small := stackSizes_small laid.sizes laid.room
  have space : yosProcessStackAddress = yosSramBaseAddress + 19456 := rfl
  have address : yosProcessStackAddress < 2 ^ 32 := by decide
  have words : frameSize = 64 := rfl
  rw [List.take_length] at part
  rw [Kernel.frame, YosTask.stackRegion, (yosInitTaskStack_frame k id (by omega) (by omega)).1,
    Set.Ico_subset_Ico_iff (by omega)]
  omega

/-- The sizes of the slots are those of the calls. -/
theorem stackSize_mem (laid : Laid k made) (below : id < made.length) :
    (stackSizes made)[id]? = some (k.allTasks id).stackSize := by
  have here : made[id]? = some made[id] := List.getElem?_eq_getElem below
  rw [stackSizes, List.getElem?_map, here, (laid.filled id _ here).stackSize]
  rfl

/-- **When all stacks are what is expected of them.** -/
theorem safe_iff (laid : Laid k made) (nonempty : made ≠ []) :
    (∀ id, id < made.length → StackSafe k id) ↔ SizesFit (stackSizes made) := by
  have positive := List.length_pos_iff.mpr nonempty
  have length : (stackSizes made).length = made.length := List.length_map _
  constructor
  · intro safe
    refine ⟨fun size member => ?_, fun size member => ?_, ?_⟩
    · obtain ⟨id, below, rfl⟩ := List.mem_iff_getElem.mp member
      rw [length] at below
      obtain ⟨_, size⟩ := List.getElem?_eq_some_iff.mp (laid.stackSize_mem below)
      rw [size, ← laid.frame_iff below]
      exact (safe id below).frame
    · -- A stack that is not the last one lies between two aligned tops.
      obtain ⟨id, inside, rfl⟩ := List.mem_iff_getElem.mp member
      rw [List.length_dropLast, length] at inside
      have below : id + 1 < made.length := by omega
      have here := (safe id (Nat.lt_of_succ_lt below)).aligned
      have next := (safe (id + 1) below).aligned
      obtain ⟨_, size⟩ := List.getElem?_eq_some_iff.mp
        (laid.stackSize_mem (Nat.lt_of_succ_lt below))
      rw [List.getElem_dropLast, size]
      rw [← laid.adjacent below] at here
      exact (Nat.dvd_add_right next).mp here
    · have last : made.length - 1 < made.length := Nat.sub_lt positive Nat.one_pos
      have whole := (laid.inside_iff last).mp (safe _ last).inside.1
      rwa [Nat.sub_add_cancel positive, List.take_length] at whole
  · intro fit id below
    refine ⟨⟨(laid.inside_iff below).mpr ?_, (laid.noWrap below).2⟩, (laid.aligned_iff below).mpr ?_,
      fun other inside different => ?_, (laid.frame_iff below).mpr ?_⟩
    · have part := stackSizes_take_le made (Nat.succ_le_of_lt below)
      rw [List.take_length] at part
      exact Nat.le_trans part fit.total
    · refine List.dvd_sum fun size member => fit.words size ?_
      rw [stackSizes, List.map_take] at member
      rw [List.dropLast_eq_take, length]
      have fewer : id ≤ made.length - 1 := Nat.le_sub_one_of_lt below
      rw [← Nat.min_eq_left fewer, ← List.take_take] at member
      exact List.mem_of_mem_take member
    · exact laid.apart (laid.count ▸ inside) below different
    · exact fit.frames _ (List.mem_of_getElem? (laid.stackSize_mem below))

end Laid

/-- **Where the stacks lie**, in every run from `yos_init` on, with `made` the calls that were
accepted: a call is accepted when its function is not `NULL`, its size is not zero and a slot is left, and
returns `-1` otherwise. The stacks lie below `YOS_PROCESS_STACK_ADDRESS` one after the other, without a wrap
and with no address in common. Each of them is inside the RAM exactly when its size and those before it
leave the room for the main stack, begins at a word address exactly when the sizes before it add up to whole
words, and holds the frame of its first dispatch exactly when it has at least sixteen words. So all stacks
are what is expected of them exactly when all sizes are set properly. -/
theorem yosCreateTask_stacks {image : Image} {mem : WordMemory} {events : List LifeEvent} {l : Life}
    {made : List CreateArgs} (typed : ∀ call ∈ creations events, call.Typed)
    (run : runEvents Life.step (Life.init image mem) events = some l)
    (calls : made = accepted image (creations events)) :
    l.kernel.taskIdForNext = made.length ∧
    0 :: emitted Life.step Life.given (Life.init image mem) events = List.range made.length ∧
    (∀ next : CreateArgs, (yosCreateTask l.kernel next.taskFunc next.data next.stackSize next.name).1 =
      if next.Valid ∧ made.length < yosMaxTaskCount then (made.length : Int) else -1) ∧
    (∀ id call, made[id]? = some call →
      (l.kernel.allTasks id).stackSize = call.stackSize ∧
      call.stackSize ≤ (l.kernel.allTasks id).bp ∧
      (l.kernel.allTasks id).bp ≤ yosProcessStackAddress ∧
      (∀ other, other < made.length → other ≠ id →
        StacksApart (l.kernel.allTasks other) (l.kernel.allTasks id)) ∧
      (yosSramBaseAddress + call.stackSize ≤ (l.kernel.allTasks id).bp ↔
        (stackSizes (made.take (id + 1))).sum ≤ sramSize - yosMainStackSize) ∧
      (4 ∣ (l.kernel.allTasks id).bp ↔ 4 ∣ (stackSizes (made.take id)).sum) ∧
      (l.kernel.frame id ⊆ (l.kernel.allTasks id).stackRegion ↔ frameSize ≤ call.stackSize)) ∧
    ((∀ id, id < made.length → StackSafe l.kernel id) ↔ SizesFit (stackSizes made)) := by
  have laid := Life.laid_init_run typed run
  have ids := Life.given_init_run typed run
  rw [← calls] at laid ids
  have nonempty : made ≠ [] := by
    rw [calls]
    exact List.cons_ne_nil _ _
  refine ⟨laid.count, ids, fun next => ?_, fun id call here => ?_, laid.safe_iff nonempty⟩
  · rw [← laid.count]
    exact yosCreateTask_result l.kernel next
  have below : id < made.length := (List.getElem?_eq_some_iff.mp here).1
  have size : (l.kernel.allTasks id).stackSize = call.stackSize := (laid.filled id call here).stackSize
  obtain ⟨above, top⟩ := laid.noWrap below
  rw [← size]
  exact ⟨rfl, above, top, fun other inside different => laid.apart inside below different,
    laid.inside_iff below, laid.aligned_iff below, laid.frame_iff below⟩

/-- A task with sixteen bytes of stack. -/
def tinyCreation : CreateArgs := ⟨some 0x08000401, 0, 16, none⟩

/-- It comes before a task whose stack is as it should be. -/
def mixedSizes : List CreateArgs := [tinyCreation, ⟨some 0x08000501, 0, 1024, none⟩]

theorem yosCreateTask_stacks_mixedSizes :
    ∃ l, runEvents Life.step (Life.init ⟨0x08000101, 0x08000201, 0x08000301⟩ fun _ => 0)
        (mixedSizes.map .create) = some l ∧
      ¬ l.kernel.frame 1 ⊆ (l.kernel.allTasks 1).stackRegion ∧ StackSafe l.kernel 2 := by
  have typed : ∀ call ∈ creations (mixedSizes.map .create), call.Typed := by
    intro call member
    rcases List.mem_cons.mp member with rfl | member
    · exact ⟨by decide, fun text given => nomatch given⟩
    · rw [List.mem_singleton.mp member]
      exact ⟨by decide, fun text given => nomatch given⟩
  obtain ⟨_, _, _, each, _⟩ := yosCreateTask_stacks typed rfl rfl
  obtain ⟨_, _, _, _, _, _, tiny⟩ := each 1 _ rfl
  obtain ⟨size, _, top, apart, inside, aligned, frame⟩ := each 2 _ rfl
  refine ⟨_, rfl, fun holds => absurd (tiny.mp holds) (by decide), ?_⟩
  exact ⟨⟨size ▸ inside.mpr (by decide), top⟩, aligned.mpr (by decide), apart, frame.mpr (by decide)⟩

/-- **The size is not checked**: the call returns the id 1, and the first frame of the task goes below
its stack. -/
theorem yosCreateTask_stacks_tinyCreation :
    ∃ l, runEvents Life.step (Life.init ⟨0x08000101, 0x08000201, 0x08000301⟩ fun _ => 0)
        [.create tinyCreation] = some l ∧
      emitted Life.step Life.given (Life.init ⟨0x08000101, 0x08000201, 0x08000301⟩ fun _ => 0)
        [.create tinyCreation] = [1] ∧
      ¬ StackSafe l.kernel 1 := by
  have typed : ∀ call ∈ creations [.create tinyCreation], call.Typed := by
    intro call member
    rw [List.mem_singleton.mp member]
    exact ⟨by decide, fun text given => nomatch given⟩
  obtain ⟨l, run⟩ : ∃ l, runEvents Life.step
      (Life.init ⟨0x08000101, 0x08000201, 0x08000301⟩ fun _ => 0) [.create tinyCreation] = some l :=
    ⟨_, rfl⟩
  have laid := Life.laid_init_run typed run
  have size : (l.kernel.allTasks 1).stackSize = 16 := (laid.filled 1 tinyCreation rfl).stackSize
  refine ⟨l, run, rfl, fun safe => ?_⟩
  have fits := (laid.frame_iff (by decide)).mp safe.frame
  rw [size] at fits
  exact absurd fits (by decide)

end YosStm32
