/-
**NUL-terminated strings in a block of bytes.**

A block is a list of bytes, and a pointer into it is what lies from there on. Reading past the end of
the block is `none`. A string is what comes before the first NUL.
-/

import Mathlib.Logic.Function.Basic

namespace YosStm32.Lib

/-- The string that a pointer points to. -/
def cString : List UInt8 → Option (List UInt8)
  | [] => none
  | byte :: rest => if byte = 0 then some [] else (cString rest).map (byte :: ·)

/-- `strlen`. -/
def strlen (block : List UInt8) : Option Nat := (cString block).map List.length

section CString

variable {s rest : List UInt8}

/-- The first byte of a list that avoids some byte, and the rest. -/
theorem avoids_cons {avoided byte : UInt8} (clean : avoided ∉ byte :: s) :
    byte ≠ avoided ∧ avoided ∉ s :=
  ⟨Ne.symm (List.ne_of_not_mem_cons clean), List.not_mem_of_not_mem_cons clean⟩

theorem cString_terminated (clean : 0 ∉ s) : cString (s ++ 0 :: rest) = some s := by
  induction s with
  | nil => rfl
  | cons byte s ih =>
      obtain ⟨first, clean⟩ := avoids_cons clean
      rw [List.cons_append, cString, if_neg first, ih clean]
      rfl

/-- A string has no NUL in it. -/
theorem cString_clean {block : List UInt8} (reads : cString block = some s) : 0 ∉ s := by
  induction block generalizing s with
  | nil => cases reads
  | cons byte block ih =>
      rw [cString] at reads
      split at reads
      · rw [← Option.some.inj reads]
        exact List.not_mem_nil
      · rename_i first
        obtain ⟨rest, tail, rfl⟩ := Option.map_eq_some_iff.mp reads
        exact List.not_mem_cons_of_ne_of_not_mem (Ne.symm first) (ih tail)

/-- The string and its terminator are the front of the block. -/
theorem cString_split {block : List UInt8} (reads : cString block = some s) :
    ∃ rest, block = s ++ 0 :: rest := by
  induction block generalizing s with
  | nil => cases reads
  | cons byte block ih =>
      rw [cString] at reads
      split at reads
      · rename_i isNul
        rw [← Option.some.inj reads, isNul]
        exact ⟨block, rfl⟩
      · obtain ⟨tail, inside, rfl⟩ := Option.map_eq_some_iff.mp reads
        obtain ⟨rest, rfl⟩ := ih inside
        exact ⟨rest, rfl⟩

theorem strlen_terminated (clean : 0 ∉ s) : strlen (s ++ 0 :: rest) = some s.length := by
  rw [strlen, cString_terminated clean]
  rfl

/-- A terminator written right after some bytes. -/
theorem set_append_cons (first : List UInt8) (old byte : UInt8) (rest : List UInt8) :
    (first ++ old :: rest).set first.length byte = first ++ byte :: rest := by
  rw [List.set_append_right first.length byte (Nat.le_refl _), Nat.sub_self]
  rfl

end CString

/-- A list splits at the first element with a property, unless no element has it. -/
theorem split_at_first {α : Type} (p : α → Bool) (s : List α) :
    (∀ x ∈ s, p x = false) ∨ ∃ before x after, s = before ++ x :: after ∧ p x = true ∧
      ∀ y ∈ before, p y = false := by
  induction s with
  | nil => exact Or.inl fun x member => absurd member List.not_mem_nil
  | cons x s ih =>
      by_cases here : p x = true
      · exact Or.inr ⟨[], x, s, rfl, here, fun y member => absurd member List.not_mem_nil⟩
      rw [Bool.not_eq_true] at here
      rcases ih with none | ⟨before, y, after, rfl, found, none⟩
      · refine Or.inl fun y member => ?_
        rcases List.mem_cons.mp member with rfl | later
        · exact here
        · exact none y later
      · refine Or.inr ⟨x :: before, y, after, rfl, found, fun z member => ?_⟩
        rcases List.mem_cons.mp member with rfl | later
        · exact here
        · exact none z later

/-- What comes before the first place of an element comes before each of its places. -/
theorem prefix_of_split {α : Type} {x : α} {before before' after after' : List α} (none : x ∉ before)
    (split : before ++ x :: after = before' ++ x :: after') : before <+: before' := by
  rcases List.append_eq_append_iff.mp split with ⟨middle, same, -⟩ | ⟨middle, rfl, rest⟩
  · exact ⟨middle, same.symm⟩
  · cases middle with
    | nil => exact ⟨[], by simp⟩
    | cons y middle =>
        rw [(List.cons.inj rest).1] at none
        exact absurd (List.mem_append_right _ (List.mem_cons_self ..)) none

/-- There is one way to split a list at the first place of an element. -/
theorem split_at_first_unique {α : Type} {x : α} {before before' after after' : List α}
    (none : x ∉ before) (none' : x ∉ before') (split : before ++ x :: after = before' ++ x :: after') :
    before = before' ∧ after = after' := by
  have lengths := Nat.le_antisymm (prefix_of_split none split).length_le
    (prefix_of_split none' split.symm).length_le
  obtain ⟨same, rest⟩ := List.append_inj split lengths
  exact ⟨same, (List.cons.inj rest).2⟩

end YosStm32.Lib
