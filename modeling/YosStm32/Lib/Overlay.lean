/-
**Writes on top of each other.**

A memory that has only ever been written is known by its writes: at a place it holds the value of the last
one there (`lastWrite`). Later writes lie over earlier ones as `Option.or` does (`lastWrite_append`). A row of
values side by side is written like a list (`lastWrite_row`).
-/

import Mathlib.Data.List.Induction

namespace YosStm32.Lib

section Overlay

variable {Place Value : Type} [DecidableEq Place]

/-- The value at a place after some writes, `none` where none was. -/
def lastWrite : List (Place × Value) → Place → Option Value
  | [], _ => none
  | (place, value) :: writes, here =>
      (lastWrite writes here).or (if place = here then some value else none)

theorem lastWrite_append (first second : List (Place × Value)) (here : Place) :
    lastWrite (first ++ second) here = (lastWrite second here).or (lastWrite first here) := by
  induction first with
  | nil => exact (Option.or_none ..).symm
  | cons write first ih => rw [List.cons_append, lastWrite, lastWrite, ih, Option.or_assoc]

theorem lastWrite_concat (writes : List (Place × Value)) (place : Place) (value : Value) (here : Place) :
    lastWrite (writes ++ [(place, value)]) here =
      if place = here then some value else lastWrite writes here := by
  rw [lastWrite_append]
  by_cases same : place = here
  · simp [lastWrite, same]
  · simp [lastWrite, same]

/-- **A row of values** from a place on. -/
theorem lastWrite_row (start : Nat) (values : List Value) (here : Nat) :
    lastWrite (values.mapIdx fun i value => (start + i, value)) here =
      if start ≤ here then values[here - start]? else none := by
  induction values using List.reverseRecOn with
  | nil => simp [lastWrite]
  | append_singleton values value ih =>
      rw [List.mapIdx_concat, lastWrite_concat, ih]
      by_cases before : start ≤ here
      · rw [if_pos before, if_pos before]
        by_cases last : start + values.length = here
        · rw [if_pos last, ← last, Nat.add_sub_cancel_left, List.getElem?_concat_length]
        · rw [if_neg last]
          by_cases inside : here - start < values.length
          · rw [List.getElem?_append_left inside]
          · rw [List.getElem?_eq_none (by omega),
              List.getElem?_eq_none (by rw [List.length_append, List.length_singleton]; omega)]
      · rw [if_neg before, if_neg before, if_neg (by omega)]

end Overlay

end YosStm32.Lib
