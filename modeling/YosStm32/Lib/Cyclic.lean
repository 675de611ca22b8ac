/-
**Distances around a ring.**

`gap n i j` is the number of steps forward from place `i` to place `j` on a ring of `n` places, a
whole turn when `i = j`. A search that starts just after `cur` and walks forward finds the place of
the smallest gap (`FirstAfter`); a place that the search has not reached keeps getting closer
(`FirstAfter.gap_lt`), which is the measure behind every fairness argument about such a search.
-/

import Mathlib.Logic.Function.Basic
import Mathlib.Tactic.SplitIfs

namespace YosStm32.Lib

/-- The steps forward from `i` to `j` on a ring of `n` places: `n` itself when `i = j`. -/
def gap (n i j : Nat) : Nat :=
  if i < j then j - i else j + n - i

section Gap

variable {n i j k : Nat}

theorem gap_pos (inside : i < n) : 0 < gap n i j := by
  unfold gap
  split <;> omega

theorem gap_le (target : j < n) : gap n i j ≤ n := by
  unfold gap
  split <;> omega

theorem gap_self : gap n i i = n := by
  unfold gap
  split <;> omega

/-- Only the place itself is a whole turn away. -/
theorem gap_lt_of_ne (inside : i < n) (target : j < n) (different : j ≠ i) : gap n i j < n := by
  unfold gap
  split <;> omega

theorem gap_injective_right (inside : i < n) (first : j < n) (second : k < n)
    (same : gap n i j = gap n i k) : j = k := by
  unfold gap at same
  split at same <;> split at same <;> omega

theorem succ_mod (inside : i < n) : (i + 1) % n = if i + 1 = n then 0 else i + 1 := by
  split
  · rename_i last
    rw [last, Nat.mod_self]
  · exact Nat.mod_eq_of_lt (by omega)

/-- The place after `cur` is one step away. -/
theorem gap_start (inside : i < n) : gap n i ((i + 1) % n) = 1 := by
  rw [succ_mod inside]
  unfold gap
  split_ifs <;> omega

/-- One more step forward, short of the whole turn. -/
theorem gap_succ (inside : i < n) (target : j < n) (different : j ≠ i) :
    gap n i ((j + 1) % n) = gap n i j + 1 := by
  rw [succ_mod target]
  unfold gap
  split_ifs <;> omega

/-- Going through an intermediate place that comes first splits the distance. -/
theorem gap_split (first : i < n) (middle : j < n) (target : k < n) (different : j ≠ k)
    (before : gap n i j ≤ gap n i k) : gap n i j + gap n j k = gap n i k := by
  unfold gap at *
  split_ifs at before ⊢ <;> omega

end Gap

/-- **The result of a forward search from `cur`**: `next` lies on the ring, nothing strictly
between satisfies `good`, and the search stopped there because `next` does or because it came back
to `cur`. -/
structure FirstAfter (n cur : Nat) (good : Nat → Prop) (next : Nat) : Prop where
  inside : next < n
  skipped : ∀ j, j < n → gap n cur j < gap n cur next → ¬ good j
  stopped : next = cur ∨ good next

namespace FirstAfter

variable {n cur next b : Nat} {good : Nat → Prop}

/-- A good place is never passed over. -/
theorem gap_le_of_good (found : FirstAfter n cur good next) (target : b < n) (holds : good b) :
    gap n cur next ≤ gap n cur b := by
  by_contra later
  exact found.skipped b target (Nat.lt_of_not_le later) holds

/-- **The measure**: when the search stops before a good place `b`, it has come closer to `b`. -/
theorem gap_lt (found : FirstAfter n cur good next) (inside : cur < n) (target : b < n)
    (holds : good b) (different : next ≠ b) : gap n next b < gap n cur b := by
  have split := gap_split inside found.inside target different (found.gap_le_of_good target holds)
  have positive := gap_pos (j := next) inside
  omega

/-- If some other place is good, the search does not come back to where it started. -/
theorem ne_of_good (found : FirstAfter n cur good next) (inside : cur < n) (target : b < n)
    (holds : good b) (different : b ≠ cur) : next ≠ cur := by
  rintro rfl
  have passed := found.gap_le_of_good target holds
  rw [gap_self] at passed
  exact absurd (gap_lt_of_ne inside target different) (Nat.not_lt.mpr passed)

theorem good_of_ne (found : FirstAfter n cur good next) (different : next ≠ cur) : good next :=
  found.stopped.resolve_left different

end FirstAfter

/-- A positive measure that strictly decreases along a list bounds its length. -/
theorem length_lt_of_decreasing {α : Type} {measure : α → Nat} {first : α} {rest : List α}
    (decreasing : (first :: rest).Pairwise fun earlier later => measure later < measure earlier)
    (positive : ∀ x ∈ first :: rest, 0 < measure x) : rest.length < measure first := by
  induction rest generalizing first with
  | nil => exact positive first (List.mem_cons_self ..)
  | cons second rest ih =>
      obtain ⟨below, later⟩ := List.pairwise_cons.mp decreasing
      have shorter := ih later fun x member => positive x (List.mem_cons_of_mem _ member)
      have closer := below second (List.mem_cons_self ..)
      exact Nat.lt_of_le_of_lt shorter closer

end YosStm32.Lib
