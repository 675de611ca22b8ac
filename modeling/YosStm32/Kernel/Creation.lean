/-
**The bookkeeping of `yos_create_task`.**

A call is accepted when its function is not `NULL`, its size is not zero and a slot is left
(`CreateArgs.Valid`, and the capacity of the table). `Laid k made` says that the accepted calls `made`,
the idle task's first, fill the slots in order, with their regions one below the other from
`YOS_PROCESS_STACK_ADDRESS` on. Everything that it speaks of is in the fields that only a creation
writes (`YosTask.fixed`), so it survives every other step, and a creation adds its call at the end as
long as there is room (`putKeep`).
-/

import YosStm32.Kernel.TaskLife
import YosStm32.Lib.Ring
import Mathlib.Algebra.Order.BigOperators.Group.List
import Mathlib.Algebra.Order.Ring.Nat

namespace YosStm32

open Lib Mutex

/-! ### What other steps leave alone -/

/-- The handler does not move the pointer for the next stack. -/
theorem sysTickHandler_stackBp (k : Kernel) (inside : k.currentTaskId < yosMaxTaskCount) :
    (sysTickHandler k).2.stackBpForNextTask = k.stackBpForNextTask := by
  have search : ∀ k : Kernel, k.currentTaskId < yosMaxTaskCount →
      (scheduleTasks k).2.stackBpForNextTask = k.stackBpForNextTask := by
    intro k inside
    obtain ⟨next, tasks, _, _, ⟨_, result⟩ | ⟨_, _, result⟩ | ⟨_, _, result⟩⟩ :=
      scheduleTasks_cases k inside
    · rw [result]
    · rw [result]
      rfl
    · rw [result]
  unfold sysTickHandler
  split
  · exact search (updateTaskBlockTicksIrq k) inside
  · exact search { k with isSystickTriggerByInt := true } inside

/-- The switch does not either. -/
theorem pendSvSwitch_stackBp {k k' : Kernel} {tmpSp : Nat} (switched : pendSvSwitch k tmpSp = some k') :
    k'.stackBpForNextTask = k.stackBpForNextTask := by
  unfold pendSvSwitch at switched
  split at switched
  · obtain rfl := Option.some.inj switched
    rfl
  · cases switched

/-- The slots' fixed fields and the two counters stay. -/
structure SameSlots (k k' : Kernel) : Prop where
  count : k'.taskIdForNext = k.taskIdForNext
  next : k'.stackBpForNextTask = k.stackBpForNextTask
  fixed : ∀ id, (k'.allTasks id).fixed = (k.allTasks id).fixed

theorem SameSlots.setTask (k : Kernel) {id : Nat} {task : YosTask}
    (same : task.fixed = (k.allTasks id).fixed) : SameSlots k (k.setTask id task) :=
  ⟨rfl, rfl, fun other => Kernel.setTask_fixed k id other task same⟩

theorem SameSlots.handler (k : Kernel) (inside : k.currentTaskId < yosMaxTaskCount) :
    SameSlots k (sysTickHandler k).2 :=
  have handled := sysTickHandler_handled k inside
  ⟨handled.taskIdForNext, sysTickHandler_stackBp k inside, handled.fixed⟩

/-- **Only a creation writes the fixed fields.** -/
theorem fired_sameSlots {s s' : Sys} (inside : s.current < yosMaxTaskCount) {event : Event}
    (one : Fired s event s') :
    SameSlots s.kernel s'.kernel ∧
        (∀ taskFunc data stackSize name, event ≠ .create taskFunc data stackSize name) ∨
      ∃ taskFunc data stackSize name, event = .create taskFunc data stackSize name ∧
        s' = { s with kernel := (yosCreateTask s.kernel taskFunc data stackSize name).2 } := by
  cases one with
  | sysTick enabled => exact Or.inl ⟨.handler s.kernel inside, by simp⟩
  | handler place => exact Or.inl ⟨.handler s.kernel inside, by simp⟩
  | @pendSv tmpSp k enabled pended switched =>
      obtain ⟨_, _, _, _, count, _, _, _, kept⟩ := pendSvSwitch_cases switched
      have next : k.stackBpForNextTask = s.kernel.stackBpForNextTask :=
        pendSvSwitch_stackBp (k := { s.kernel with pendsv := false }) switched
      exact Or.inl ⟨⟨count, next, fun id => (kept id).2⟩, by simp⟩
  | delayStatus | delayTicks | enterTask | enterNull | returnTask =>
      exact Or.inl ⟨.setTask _ rfl, by simp⟩
  | scheduleFlag | enable | call => exact Or.inl ⟨⟨rfl, rfl, fun _ => rfl⟩, by simp⟩
  | mutex enabled clear kind =>
      refine Or.inl ⟨⟨rfl, rfl, fun _ => rfl⟩, ?_⟩
      rcases kind with rfl | rfl | rfl <;> simp
  | create => exact Or.inr ⟨_, _, _, _, rfl, rfl⟩

/-- The same before interrupts are enabled. -/
theorem yosStart_sameSlots {k k' : Kernel} (inv : BootInv k) (started : yosStart k true = some k') :
    SameSlots k k' := by
  obtain ⟨next, tasks, -, swept, rfl⟩ := yosStart_found inv.currentInside started
  exact ⟨rfl, rfl, fun id => (yosInitTaskStack_task _ next next id).2.2.trans (swept.statuses id).2.2⟩

/-! ### One call -/

/-- The arguments that `yos_create_task` accepts while a slot is left. -/
def CreateArgs.Valid (call : CreateArgs) : Prop := call.taskFunc ≠ none ∧ call.stackSize ≠ 0

instance : DecidablePred CreateArgs.Valid :=
  fun call => inferInstanceAs (Decidable (call.taskFunc ≠ none ∧ call.stackSize ≠ 0))

/-- What the types of the parameters say: the size is a `uint16_t`, a name has no byte that is NUL. -/
structure CreateArgs.Typed (call : CreateArgs) : Prop where
  stackSize : call.stackSize < 2 ^ 16
  name : ∀ text, call.name = some text → 0 ∉ text

/-- The name that a call gives its task. -/
def taskName (id : Nat) (name : Option (List UInt8)) : List UInt8 :=
  match name with
  | some text => text.take (yosTaskNameMaxLength - 1)
  | none => taskDefaultName id

theorem taskName_length (id : Nat) (name : Option (List UInt8)) :
    (taskName id name).length < yosTaskNameMaxLength := by
  cases name with
  | none => exact (by decide : 6 < yosTaskNameMaxLength)
  | some text =>
      rw [taskName, List.length_take]
      exact Nat.lt_of_le_of_lt (Nat.min_le_left _ _) (by decide)

/-- A digit is not NUL. -/
theorem taskDefaultName_clean (id : Nat) : 0 ∉ taskDefaultName id := by
  have digit : ∀ d, d < 10 → (0 : UInt8) ≠ UInt8.ofNat (48 + d) := by decide
  simp only [taskDefaultName, List.mem_cons, List.not_mem_nil, or_false, not_or]
  exact ⟨by decide, by decide, by decide, digit _ (Nat.mod_lt _ (by decide)),
    digit _ (Nat.mod_lt _ (by decide)), digit _ (Nat.mod_lt _ (by decide))⟩

/-- The last byte of the field is the terminator, whatever was copied into it. -/
theorem terminated {buffer : List UInt8} (size : buffer.length = yosTaskNameMaxLength) :
    buffer.set (yosTaskNameMaxLength - 1) 0 = buffer.take (yosTaskNameMaxLength - 1) ++ [0] := by
  have inside : yosTaskNameMaxLength - 1 < buffer.length := by
    rw [size]
    decide
  have none : buffer.drop (yosTaskNameMaxLength - 1 + 1) = [] :=
    List.drop_eq_nil_of_le (Nat.le_of_eq size)
  rw [List.set_eq_take_append_cons_drop, if_pos inside, none]

theorem strncpy_length (size : Nat) (source : List UInt8) : (strncpy size source).length = size := by
  rw [strncpy, List.length_append, List.length_take, List.length_replicate]
  omega

/-- **The name field after a call.** -/
theorem namedField (id : Nat) {name : Option (List UInt8)} {old : List UInt8}
    (clean : ∀ text, name = some text → 0 ∉ text) (size : old.length = yosTaskNameMaxLength) :
    let named := match name with
      | some text => strncpy yosTaskNameMaxLength text
      | none => snprintf old yosTaskNameMaxLength (taskDefaultName id)
    (named.set (yosTaskNameMaxLength - 1) 0).length = yosTaskNameMaxLength ∧
      cString (named.set (yosTaskNameMaxLength - 1) 0) = some (taskName id name) := by
  cases name with
  | none =>
      have whole : snprintf old yosTaskNameMaxLength (taskDefaultName id) =
          taskDefaultName id ++ 0 :: old.drop 7 := rfl
      have length : (taskDefaultName id ++ 0 :: old.drop 7).length = yosTaskNameMaxLength := by
        rw [List.length_append, List.length_cons, List.length_drop, size]
        rfl
      simp only [whole]
      refine ⟨(List.length_set ..).trans length, ?_⟩
      rw [terminated length]
      show cString (taskDefaultName id ++ 0 :: [0]) = some (taskDefaultName id)
      exact cString_terminated (taskDefaultName_clean id)
  | some text =>
      have length := strncpy_length yosTaskNameMaxLength text
      refine ⟨(List.length_set ..).trans length, ?_⟩
      have clean' : 0 ∉ text.take (yosTaskNameMaxLength - 1) :=
        fun member => clean text rfl (List.mem_of_mem_take member)
      have split : (strncpy yosTaskNameMaxLength text).take (yosTaskNameMaxLength - 1) ++ [0] =
          text.take (yosTaskNameMaxLength - 1) ++
            0 :: List.replicate (yosTaskNameMaxLength - 1 - text.length) 0 := by
        have zeros : min (yosTaskNameMaxLength - 1 - min yosTaskNameMaxLength text.length)
            (yosTaskNameMaxLength - text.length) = yosTaskNameMaxLength - 1 - text.length := by
          unfold yosTaskNameMaxLength
          omega
        rw [strncpy, List.take_append, List.take_take, List.length_take, List.take_replicate, zeros,
          List.append_assoc, ← List.replicate_succ', List.replicate_succ]
        rfl
      rw [terminated length, split]
      exact cString_terminated clean'

/-- The fields that a call gives its slot, apart from the place of the stack. -/
structure Filled (task : YosTask) (id : Nat) (call : CreateArgs) : Prop where
  taskFunc : task.taskFunc = call.taskFunc
  data : task.data = call.data
  stackSize : task.stackSize = call.stackSize
  name : cString task.name = some (taskName id call.name)

theorem Filled.of_fixed {task task' : YosTask} {id : Nat} {call : CreateArgs}
    (filled : Filled task id call) (same : task'.fixed = task.fixed) : Filled task' id call := by
  simp only [YosTask.fixed, Prod.mk.injEq] at same
  obtain ⟨taskFunc, data, _, stackSize, name⟩ := same
  exact ⟨taskFunc.trans filled.taskFunc, data.trans filled.data, stackSize.trans filled.stackSize,
    (congrArg cString name).trans filled.name⟩

section Call

variable {k : Kernel} {call : CreateArgs}

theorem yosCreateTask_refused (refused : ¬ call.Valid ∨ yosMaxTaskCount ≤ k.taskIdForNext) :
    yosCreateTask k call.taskFunc call.data call.stackSize call.name = (-1, k) := by
  unfold yosCreateTask
  rw [if_pos]
  rcases refused with invalid | full
  · rw [CreateArgs.Valid, not_and_or, not_not, not_not] at invalid
    exact invalid.imp_right Or.inl
  · exact Or.inr (Or.inr full)

/-- **A call that is accepted** fills the next slot and moves the two counters. -/
theorem yosCreateTask_accepted (valid : call.Valid) (room : k.taskIdForNext < yosMaxTaskCount) :
    let made := yosCreateTask k call.taskFunc call.data call.stackSize call.name
    made.1 = k.taskIdForNext ∧ made.2.taskIdForNext = k.taskIdForNext + 1 ∧
      made.2.stackBpForNextTask = wrapSub k.stackBpForNextTask call.stackSize ∧
      (∀ id, id ≠ k.taskIdForNext → made.2.allTasks id = k.allTasks id) ∧
      (made.2.allTasks k.taskIdForNext).bp = k.stackBpForNextTask ∧
      (call.Typed → (k.allTasks k.taskIdForNext).name.length = yosTaskNameMaxLength →
        (made.2.allTasks k.taskIdForNext).name.length = yosTaskNameMaxLength ∧
          Filled (made.2.allTasks k.taskIdForNext) k.taskIdForNext call) := by
  have accepted : ¬ (call.taskFunc = none ∨ call.stackSize = 0 ∨
      k.taskIdForNext ≥ yosMaxTaskCount) := by
    rintro (func | size | full)
    · exact valid.1 func
    · exact valid.2 size
    · exact absurd room (Nat.not_lt.mpr full)
  unfold yosCreateTask
  rw [if_neg accepted]
  simp only [Kernel.setTask_allTasks, Function.update_self]
  refine ⟨trivial, trivial, trivial, fun id other => Function.update_of_ne other _ _, trivial,
    fun typed size => ?_⟩
  obtain ⟨length, text⟩ := namedField k.taskIdForNext typed.name size
  exact ⟨length, rfl, rfl, rfl, text⟩

/-- What a call returns. -/
theorem yosCreateTask_result (k : Kernel) (call : CreateArgs) :
    (yosCreateTask k call.taskFunc call.data call.stackSize call.name).1 =
      if call.Valid ∧ k.taskIdForNext < yosMaxTaskCount then (k.taskIdForNext : Int) else -1 := by
  by_cases accepts : call.Valid ∧ k.taskIdForNext < yosMaxTaskCount
  · rw [if_pos accepts]
    exact (yosCreateTask_accepted accepts.1 accepts.2).1
  · rw [if_neg accepts, yosCreateTask_refused]
    rwa [← Nat.not_lt, ← not_and_or]

end Call

/-! ### The table as a list of calls -/

/-- The call that `yos_init` makes. -/
def idleCall (image : Image) : CreateArgs :=
  ⟨some image.yosIdleTask, 0, yosIdleTaskStackSize, some yosIdleTaskName⟩

/-- The stack sizes of some calls. -/
def stackSizes (calls : List CreateArgs) : List Nat := calls.map CreateArgs.stackSize

section Sizes

variable {calls : List CreateArgs} {call : CreateArgs}

theorem stackSizes_append (first second : List CreateArgs) :
    (stackSizes (first ++ second)).sum = (stackSizes first).sum + (stackSizes second).sum := by
  rw [stackSizes, List.map_append, List.sum_append]
  rfl

theorem stackSizes_singleton : (stackSizes [call]).sum = call.stackSize := Nat.add_zero _

theorem stackSizes_take_succ {id : Nat} (here : calls[id]? = some call) :
    (stackSizes (calls.take (id + 1))).sum = (stackSizes (calls.take id)).sum + call.stackSize := by
  rw [List.take_add_one, here, stackSizes_append]
  exact congrArg _ stackSizes_singleton

theorem stackSizes_take_le (calls : List CreateArgs) {i j : Nat} (le : i ≤ j) :
    (stackSizes (calls.take i)).sum ≤ (stackSizes (calls.take j)).sum := by
  have split : calls.take j = calls.take i ++ (calls.take j).drop i := by
    conv_lhs => rw [← List.take_append_drop i (calls.take j), List.take_take, Nat.min_eq_left le]
  rw [split, stackSizes_append]
  exact Nat.le_add_right _ _

/-- Eight sizes of 16 bits are far from the address space's end. -/
theorem stackSizes_small (sizes : ∀ call ∈ calls, call.stackSize < 2 ^ 16)
    (room : calls.length ≤ yosMaxTaskCount) : (stackSizes calls).sum < yosSramBaseAddress := by
  have each : ∀ size ∈ stackSizes calls, size ≤ 2 ^ 16 := by
    intro size member
    obtain ⟨call, made, rfl⟩ := List.mem_map.mp member
    exact Nat.le_of_lt (sizes call made)
  have total := List.sum_le_card_nsmul (stackSizes calls) (2 ^ 16) each
  rw [stackSizes, List.length_map, nsmul_eq_mul, Nat.cast_id] at total
  have bound := Nat.mul_le_mul_right (2 ^ 16) room
  exact Nat.lt_of_le_of_lt (Nat.le_trans total bound) (by decide)

end Sizes

/-- **The calls `made` fill the slots in order**, with their stacks one below the other. -/
structure Laid (k : Kernel) (made : List CreateArgs) : Prop where
  count : k.taskIdForNext = made.length
  room : made.length ≤ yosMaxTaskCount
  sizes : ∀ call ∈ made, call.stackSize < 2 ^ 16
  next : k.stackBpForNextTask + (stackSizes made).sum = yosProcessStackAddress
  names : ∀ id, (k.allTasks id).name.length = yosTaskNameMaxLength
  filled : ∀ id call, made[id]? = some call → Filled (k.allTasks id) id call
  bp : ∀ id, id < made.length →
    (k.allTasks id).bp + (stackSizes (made.take id)).sum = yosProcessStackAddress

/-- The addresses of a task's stack. -/
def YosTask.stackRegion (task : YosTask) : Set Nat := Set.Ico (task.bp - task.stackSize) task.bp

/-- The stacks of two tasks have no address in common. -/
def StacksApart (first second : YosTask) : Prop :=
  ∀ a ∈ first.stackRegion, a ∉ second.stackRegion

namespace Laid

variable {k k' : Kernel} {made : List CreateArgs} {call : CreateArgs}

theorem sameSlots (laid : Laid k made) (same : SameSlots k k') : Laid k' made := by
  have bp := fun id => congrArg (fun fields => fields.2.2.1) (same.fixed id)
  have name := fun id => congrArg (fun fields => fields.2.2.2.2) (same.fixed id)
  simp only [YosTask.fixed] at bp name
  refine ⟨same.count.trans laid.count, laid.room, laid.sizes, same.next ▸ laid.next, fun id => ?_,
    fun id call here => (laid.filled id call here).of_fixed (same.fixed id), fun id below => ?_⟩
  · rw [name]
    exact laid.names id
  · rw [bp]
    exact laid.bp id below

/-- **One slot more**, with what its call gives it. -/
theorem append (laid : Laid k made) (size : call.stackSize < 2 ^ 16)
    (room : made.length < yosMaxTaskCount) (count : k'.taskIdForNext = k.taskIdForNext + 1)
    (next : k'.stackBpForNextTask = wrapSub k.stackBpForNextTask call.stackSize)
    (others : ∀ id, id ≠ made.length → k'.allTasks id = k.allTasks id)
    (bp : (k'.allTasks made.length).bp = k.stackBpForNextTask)
    (length : (k'.allTasks made.length).name.length = yosTaskNameMaxLength)
    (filled : Filled (k'.allTasks made.length) made.length call) : Laid k' (made ++ [call]) := by
  have sizes : ∀ other ∈ made ++ [call], other.stackSize < 2 ^ 16 := by
    intro other member
    rcases List.mem_append.mp member with before | last
    · exact laid.sizes other before
    · rw [List.mem_singleton.mp last]
      exact size
  have longer : (made ++ [call]).length = made.length + 1 := by
    rw [List.length_append, List.length_singleton]
  have room' : (made ++ [call]).length ≤ yosMaxTaskCount := longer ▸ room
  have small := stackSizes_small sizes room'
  rw [stackSizes_append, stackSizes_singleton] at small
  have top : yosProcessStackAddress < 2 ^ 32 := by decide
  have base : yosSramBaseAddress ≤ yosProcessStackAddress := by decide
  have before := laid.next
  rw [wrapSub_of_le (by omega) (by omega)] at next
  refine ⟨by rw [count, longer, laid.count], room', sizes, ?_, fun id => ?_, fun id other here => ?_,
    fun id below => ?_⟩
  · rw [next, stackSizes_append, stackSizes_singleton]
    omega
  · by_cases last : id = made.length
    · rw [last]
      exact length
    · rw [others id last]
      exact laid.names id
  · by_cases last : id = made.length
    · subst last
      rw [List.getElem?_concat_length, Option.some.injEq] at here
      exact here ▸ filled
    · rw [others id last]
      have inside := (List.getElem?_eq_some_iff.mp here).1
      rw [List.getElem?_append_left (by omega)] at here
      exact laid.filled id other here
  · rw [longer] at below
    rw [List.take_append_of_le_length (Nat.le_of_lt_succ below)]
    by_cases last : id = made.length
    · rw [last, bp, List.take_length]
      exact before
    · rw [others id last]
      exact laid.bp id (by omega)

/-- **One call more.** -/
theorem create (laid : Laid k made) (typed : call.Typed) (valid : call.Valid)
    (room : made.length < yosMaxTaskCount) :
    Laid (yosCreateTask k call.taskFunc call.data call.stackSize call.name).2 (made ++ [call]) := by
  obtain ⟨_, count, next, others, bp, fills⟩ :=
    yosCreateTask_accepted (k := k) valid (laid.count ▸ room)
  obtain ⟨length, filled⟩ := fills typed (laid.names _)
  rw [laid.count] at bp filled length others
  exact laid.append typed.stackSize room count next others bp length filled

/-- After `yos_init`: the idle task. -/
theorem init (image : Image) (mem : WordMemory) :
    Laid (yosInit (zeroedKernel image mem)) [idleCall image] := by
  let emptied : Kernel :=
    { zeroedKernel image mem with
      stackBpForNextTask := yosProcessStackAddress
      taskIdForNext := 0
      allTasks := mapTasks (fun task => { task with status := .invalid })
        (zeroedKernel image mem).allTasks }
  have names : ∀ id, (emptied.allTasks id).name.length = yosTaskNameMaxLength := by
    intro id
    show (mapTasks _ _ id).name.length = _
    rw [mapTasks_apply]
    split
    · exact List.length_replicate
    · exact List.length_replicate
  have empty : Laid emptied [] :=
    ⟨rfl, Nat.zero_le _, fun _ member => absurd member List.not_mem_nil, rfl, names,
      fun _ _ here => (nomatch here), fun _ below => absurd below (Nat.not_lt_zero _)⟩
  have typed : (idleCall image).Typed := by
    refine ⟨(by decide : 128 < 2 ^ 16), fun text given => ?_⟩
    rw [← Option.some.inj given]
    decide
  have valid : (idleCall image).Valid := ⟨Option.some_ne_none _, (by decide : 128 ≠ 0)⟩
  exact (empty.create typed valid (by decide)).sameSlots ⟨rfl, rfl, fun _ => rfl⟩

/-! ### Regions -/

/-- The size of a slot as the sums see it. -/
theorem take_succ (laid : Laid k made) {id : Nat} (below : id < made.length) :
    (stackSizes (made.take (id + 1))).sum =
      (stackSizes (made.take id)).sum + (k.allTasks id).stackSize := by
  have here : made[id]? = some made[id] := List.getElem?_eq_getElem below
  rw [stackSizes_take_succ here, (laid.filled id _ here).stackSize]

/-- A stack is not below address zero. -/
theorem noWrap (laid : Laid k made) {id : Nat} (below : id < made.length) :
    (k.allTasks id).stackSize ≤ (k.allTasks id).bp ∧
      (k.allTasks id).bp ≤ yosProcessStackAddress := by
  have top := laid.bp id below
  have last := laid.take_succ below
  have whole : (stackSizes (made.take (id + 1))).sum ≤ _ := stackSizes_take_le made below
  have small := stackSizes_small laid.sizes laid.room
  have base : yosSramBaseAddress ≤ yosProcessStackAddress := by decide
  rw [List.take_length] at whole
  omega

/-- The next stack begins where the last one ends. -/
theorem adjacent (laid : Laid k made) {id : Nat} (below : id + 1 < made.length) :
    (k.allTasks (id + 1)).bp + (k.allTasks id).stackSize = (k.allTasks id).bp := by
  have top := laid.bp id (Nat.lt_of_succ_lt below)
  have next := laid.bp (id + 1) below
  have last := laid.take_succ (Nat.lt_of_succ_lt below)
  omega

/-- Later stacks are below. -/
theorem lower (laid : Laid k made) {i j : Nat} (before : i < j) (below : j < made.length) :
    (k.allTasks j).bp ≤ (k.allTasks i).bp - (k.allTasks i).stackSize := by
  have inside := Nat.lt_trans before below
  have top := laid.bp i inside
  have next := laid.bp j below
  have last := laid.take_succ inside
  have between : (stackSizes (made.take (i + 1))).sum ≤ _ := stackSizes_take_le made before
  omega

/-- **Two stacks have no address in common.** -/
theorem apart (laid : Laid k made) {i j : Nat} (inside : i < made.length) (below : j < made.length)
    (other : i ≠ j) : StacksApart (k.allTasks i) (k.allTasks j) := by
  intro a first second
  rcases Nat.lt_or_gt_of_ne other with before | after
  · exact absurd second.2 (Nat.not_lt.mpr (Nat.le_trans (laid.lower before below) first.1))
  · exact absurd first.2 (Nat.not_lt.mpr (Nat.le_trans (laid.lower after inside) second.1))

end Laid

/-! ### Whole runs -/

/-- The call of `yos_create_task` that a step makes. -/
def LifeEvent.calls : LifeEvent → List CreateArgs
  | .create call => [call]
  | .run (.create taskFunc data stackSize name) => [⟨taskFunc, data, stackSize, name⟩]
  | _ => []

/-- The calls of `yos_create_task` in a run. -/
def creations (events : List LifeEvent) : List CreateArgs := events.flatMap LifeEvent.calls

/-- The calls that are accepted: the idle task's, and the valid ones as long as a slot is left. -/
def accepted (image : Image) (calls : List CreateArgs) : List CreateArgs :=
  putKeep yosMaxTaskCount [idleCall image] (calls.filter CreateArgs.Valid)

namespace Life

variable {l l' : Life} {event : LifeEvent} {events : List LifeEvent}

/-- A step makes no call and leaves the slots alone, or is a call. -/
theorem calls_cases (ok : l.Ok) (one : l.step event = some l') :
    event.calls = [] ∧ l.given event = [] ∧ SameSlots l.kernel l'.kernel ∨
      ∃ call : CreateArgs, event.calls = [call] ∧
        l.given event = newTask
          (yosCreateTask l.kernel call.taskFunc call.data call.stackSize call.name).1 ∧
        l'.kernel = (yosCreateTask l.kernel call.taskFunc call.data call.stackSize call.name).2 ∧
        (l'.kernel = l.kernel → l' = l) := by
  cases lifeStep_of_step one with
  | @create k call => exact Or.inr ⟨call, rfl, rfl, rfl, fun same => congrArg Life.boot same⟩
  | @start k k' mutexes user started => exact Or.inl ⟨rfl, rfl, yosStart_sameSlots ok started⟩
  | @run s s' event stepped =>
      have inv : LifeInv s := ok
      rcases fired_sameSlots inv.currentInside (step_fired stepped) with
        ⟨same, other⟩ | ⟨taskFunc, data, stackSize, name, rfl, rfl⟩
      · refine Or.inl ⟨?_, ?_, same⟩
        · cases event <;> first | rfl | exact absurd rfl (other _ _ _ _)
        · cases event <;> first | rfl | exact absurd rfl (other _ _ _ _)
      · refine Or.inr ⟨⟨taskFunc, data, stackSize, name⟩, rfl, rfl, rfl, fun same => ?_⟩
        change (yosCreateTask s.kernel taskFunc data stackSize name).2 = s.kernel at same
        rw [same]

/-- **The slots after a run** are those of the calls that were accepted in it. -/
theorem laid_run {made : List CreateArgs} (laid : Laid l.kernel made) (ok : l.Ok)
    (typed : ∀ call ∈ creations events, call.Typed)
    (run : runEvents Life.step l events = some l') :
    Laid l'.kernel
      (putKeep yosMaxTaskCount made ((creations events).filter CreateArgs.Valid)) := by
  induction events generalizing l made with
  | nil =>
      rw [runEvents_nil, Option.some.injEq] at run
      rw [creations, List.flatMap_nil, List.filter_nil, putKeep_nil]
      exact run ▸ laid
  | cons event events ih =>
      obtain ⟨next, one, run⟩ := runEvents_cons.mp run
      have split : creations (event :: events) = event.calls ++ creations events := List.flatMap_cons
      rw [split] at typed ⊢
      have later : ∀ call ∈ creations events, call.Typed :=
        fun call member => typed call (List.mem_append_right _ member)
      rcases calls_cases ok one with ⟨none, _, same⟩ | ⟨call, here, _, made', _⟩
      · rw [none, List.nil_append]
        exact ih (laid.sameSlots same) (ok.step one) later run
      · rw [here] at typed ⊢
        rw [List.singleton_append, List.filter_cons]
        split
        · rename_i valid
          rw [decide_eq_true_eq] at valid
          rcases Nat.lt_or_ge made.length yosMaxTaskCount with room | full
          · rw [putKeep_cons room]
            refine ih ?_ (ok.step one) later run
            rw [made']
            exact laid.create (typed call (List.mem_append_left _ (List.mem_singleton_self call)))
              valid room
          · have length : made.length = yosMaxTaskCount := Nat.le_antisymm laid.room full
            have kept : ∀ more, putKeep yosMaxTaskCount made more = made :=
              fun more => putKeep_full length
            rw [kept, ← kept ((creations events).filter CreateArgs.Valid)]
            refine ih ?_ (ok.step one) later run
            rw [made', yosCreateTask_refused (Or.inr (laid.count ▸ full))]
            exact laid
        · rename_i invalid
          rw [decide_eq_true_eq] at invalid
          refine ih ?_ (ok.step one) later run
          rw [made', yosCreateTask_refused (Or.inl invalid)]
          exact laid

/-- The slots after a run from `yos_init` on. -/
theorem laid_init_run {image : Image} {mem : WordMemory}
    (typed : ∀ call ∈ creations events, call.Typed)
    (run : runEvents Life.step (Life.init image mem) events = some l) :
    Laid l.kernel (accepted image (creations events)) :=
  have idle : Laid (Life.init image mem).kernel [idleCall image] := Laid.init image mem
  laid_run idle (Ok.init image mem) typed run

/-- The ids that the calls return, after the idle task's. -/
theorem given_init_run {image : Image} {mem : WordMemory}
    (typed : ∀ call ∈ creations events, call.Typed)
    (run : runEvents Life.step (Life.init image mem) events = some l) :
    0 :: emitted Life.step Life.given (Life.init image mem) events =
      List.range (accepted image (creations events)).length := by
  have whole := Life.given_range (Ok.init image mem) run
  have first : (Life.init image mem).kernel.taskIdForNext = 1 := (yosInit_effect _).1
  rwa [first, (laid_init_run typed run).count] at whole

end Life

/-- `main` creates a task with a long name and one without, and a call is refused. -/
def sampleCreations : List CreateArgs :=
  [⟨some 0x08000401, 0, 1024, some [98, 108, 105, 110, 107, 45, 108, 101, 100]⟩,
    ⟨none, 0, 1024, none⟩, ⟨some 0x08000501, 0, 512, none⟩]

theorem sampleCreations_typed : ∀ call ∈ creations (sampleCreations.map .create), call.Typed := by
  intro call member
  rcases List.mem_cons.mp member with rfl | member
  · exact ⟨by decide, fun text given => Option.some.inj given ▸ by decide⟩
  rcases List.mem_cons.mp member with rfl | member
  · exact ⟨by decide, fun text given => nomatch given⟩
  · rw [List.mem_singleton.mp member]
    exact ⟨by decide, fun text given => nomatch given⟩

end YosStm32
