/-
**Bounded queues, and rings that hold them.**

A bounded queue is a list with a capacity; it is filled either up to the capacity (`putKeep`) or by
dropping the oldest elements (`putDrop`). Both are determined by what they do with one more element.
`HoldsQueue cells start q` says that a block of cells holds the queue `q` in order from place
`start` on, around the end of the block; it has one lemma for each end of the queue.
-/

import Mathlib.Data.List.Basic
import Mathlib.Data.List.Induction
import YosStm32.Lib.Cyclic

namespace YosStm32.Lib

/-! ### Bounded queues -/

section Bounded

variable {α : Type} (capacity : Nat)

/-- The queue after as many of the new elements as there is room for. -/
def putKeep (q xs : List α) : List α := q ++ xs.take (capacity - q.length)

/-- The last `capacity` elements of the queue and the new elements. -/
def putDrop (q xs : List α) : List α := (q ++ xs).drop (q.length + xs.length - capacity)

variable {capacity} {q xs : List α} {x : α}

theorem putKeep_nil : putKeep capacity q [] = q := by
  rw [putKeep, List.take_nil, List.append_nil]

theorem putKeep_full (full : q.length = capacity) : putKeep capacity q xs = q := by
  rw [putKeep, full, Nat.sub_self, List.take_zero, List.append_nil]

/-- One element more, with room for it. -/
theorem putKeep_cons (room : q.length < capacity) :
    putKeep capacity q (x :: xs) = putKeep capacity (q ++ [x]) xs := by
  have split : capacity - q.length = capacity - (q.length + 1) + 1 := by omega
  rw [putKeep, putKeep, List.length_append, split, List.take_succ_cons, List.append_assoc]
  rfl

theorem putDrop_nil (bounded : q.length ≤ capacity) : putDrop capacity q [] = q := by
  have none : q.length + ([] : List α).length - capacity = 0 := by simp [bounded]
  rw [putDrop, none, List.append_nil, List.drop_zero]

/-- One element more. -/
theorem putDrop_cons :
    putDrop capacity q (x :: xs) = putDrop capacity (q ++ [x]) xs := by
  rw [putDrop, putDrop, List.append_cons]
  congr 1
  simp only [List.length_cons, List.length_append, List.length_nil]
  omega

/-- One element more, in place of the oldest one. -/
theorem putDrop_cons_full {oldest : α} (full : (oldest :: q).length = capacity) :
    putDrop capacity (oldest :: q) (x :: xs) = putDrop capacity (q ++ [x]) xs := by
  have one : (oldest :: q).length + (x :: xs).length - capacity = xs.length + 1 := by
    rw [full, List.length_cons]
    omega
  have other : (q ++ [x]).length + xs.length - capacity = xs.length := by
    rw [← full, List.length_append, List.length_cons, List.length_cons, List.length_nil]
    omega
  rw [putDrop, putDrop, one, other, List.append_cons]
  rfl

end Bounded

/-! ### Rings -/

section Ring

variable {α : Type} {cells : List α} {start : Nat} {q : List α} {x : α}

/-- The place `i` steps after `start`. -/
theorem ring_place {n i : Nat} (first : start < n) (below : i < n) :
    (start + i) % n = if start + i < n then start + i else start + i - n := by
  split
  · rename_i inside
    exact Nat.mod_eq_of_lt inside
  · rename_i around
    rw [Nat.mod_eq_sub_mod (Nat.le_of_not_lt around), Nat.mod_eq_of_lt (by omega)]

/-- Different steps lead to different places. -/
theorem ring_place_ne {n i j : Nat} (first : start < n) (below : i < n) (below' : j < n)
    (different : i ≠ j) : (start + i) % n ≠ (start + j) % n := by
  rw [ring_place first below, ring_place first below']
  split_ifs <;> omega

/-- The elements in `count` cells from place `start` on, around the end of the block. -/
def held (cells : List α) (start count : Nat) : List α :=
  (List.range count).filterMap fun i => cells[(start + i) % cells.length]?

/-- A block of cells holds a queue from place `start` on. -/
structure HoldsQueue (cells : List α) (start : Nat) (q : List α) : Prop where
  inside : start < cells.length
  room : q.length ≤ cells.length
  cell : ∀ i, i < q.length → cells[(start + i) % cells.length]? = q[i]?

namespace HoldsQueue

theorem empty (inside : start < cells.length) : HoldsQueue cells start [] :=
  ⟨inside, Nat.zero_le _, fun _ below => absurd below (Nat.not_lt_zero _)⟩

/-- The first cell. -/
theorem head (holds : HoldsQueue cells start (x :: q)) : cells[start]? = some x := by
  have first := holds.cell 0 (Nat.succ_pos _)
  rwa [Nat.add_zero, Nat.mod_eq_of_lt holds.inside] at first

/-- The first element is taken out. -/
theorem tail (holds : HoldsQueue cells start (x :: q)) :
    HoldsQueue cells ((start + 1) % cells.length) q := by
  have positive : 0 < cells.length := Nat.lt_of_le_of_lt (Nat.zero_le _) holds.inside
  refine ⟨Nat.mod_lt _ positive, Nat.le_of_succ_le holds.room, fun i below => ?_⟩
  have further := holds.cell (i + 1) (Nat.succ_lt_succ below)
  have shift : start + (i + 1) = start + 1 + i := by omega
  rwa [shift, ← Nat.mod_add_mod, List.getElem?_cons_succ] at further

/-- One more element is put into the place after the last one. -/
theorem snoc (holds : HoldsQueue cells start q) (room : q.length < cells.length) :
    HoldsQueue (cells.set ((start + q.length) % cells.length) x) start (q ++ [x]) := by
  refine ⟨?_, ?_, fun i below => ?_⟩
  · rw [List.length_set]
    exact holds.inside
  · rw [List.length_set, List.length_append]
    exact room
  · rw [List.length_append] at below
    rw [List.length_set]
    rcases Nat.lt_succ_iff_lt_or_eq.mp below with old | (rfl : i = q.length)
    · have other := ring_place_ne holds.inside room (Nat.lt_trans old room) (Nat.ne_of_gt old)
      rw [List.getElem?_set_ne other, List.getElem?_append_left old]
      exact holds.cell i old
    · have positive : 0 < cells.length := Nat.lt_of_le_of_lt (Nat.zero_le _) room
      rw [List.getElem?_set_self (Nat.mod_lt _ positive), List.getElem?_concat_length]

/-- The cell after the last one of the rest is the cell of the first element, in a full block. -/
theorem around (holds : HoldsQueue cells start (x :: q)) (full : (x :: q).length = cells.length) :
    ((start + 1) % cells.length + q.length) % cells.length = start := by
  rw [List.length_cons] at full
  have turn : start + 1 + q.length = start + cells.length := by omega
  rw [Nat.mod_add_mod, turn, Nat.add_mod_right, Nat.mod_eq_of_lt holds.inside]

/-- In a full block, one more element is put over the first one. -/
theorem shift {y : α} (holds : HoldsQueue cells start (x :: q))
    (full : (x :: q).length = cells.length) :
    HoldsQueue (cells.set start y) ((start + 1) % cells.length) (q ++ [y]) := by
  have fits : q.length < cells.length := by
    rw [← full]
    exact Nat.lt_succ_self _
  have put := holds.tail.snoc (x := y) fits
  rwa [holds.around full] at put

/-- What a block holds is determined by the place and the count. -/
theorem held_eq (holds : HoldsQueue cells start q) : held cells start q.length = q := by
  have cell : ∀ i ∈ List.range q.length, cells[(start + i) % cells.length]? = q[i]? :=
    fun i below => holds.cell i (List.mem_range.mp below)
  rw [held, List.filterMap_congr cell]
  clear holds cell
  induction q using List.reverseRecOn with
  | nil => rfl
  | append_singleton q last ih =>
      have before : ∀ i ∈ List.range q.length, (q ++ [last])[i]? = q[i]? :=
        fun i below => List.getElem?_append_left (List.mem_range.mp below)
      rw [List.length_append, List.length_singleton, List.range_succ, List.filterMap_append,
        List.filterMap_congr before, ih, List.filterMap_cons, List.getElem?_concat_length]
      rfl

end HoldsQueue

end Ring

end YosStm32.Lib
