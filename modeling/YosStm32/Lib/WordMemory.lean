/-
**Word memory and full-descending stacks.**

Memory is a map from addresses to 32-bit words, written at word addresses only; addresses are
naturals below `2 ^ 32` and the two pointer operations wrap as the machine's do. `pushWords` stores
a list of words downwards, the first one highest; `popWords` loads upwards. `HoldsWords` says what a
block of memory holds, so that what was pushed can be carried past writes elsewhere
(`HoldsWords.congr`) and popped again (`popWords_of_holds`).
-/

import Mathlib.Algebra.Group.Nat.Defs
import Mathlib.Logic.Function.Basic

namespace YosStm32.Lib

/-- Memory, one word at each word address. -/
abbrev WordMemory := Nat → Nat

/-- Subtraction of 32-bit words. -/
def wrapSub (a b : Nat) : Nat := (a + 2 ^ 32 - b) % 2 ^ 32

/-- Addition of 32-bit words. -/
def wrapAdd (a b : Nat) : Nat := (a + b) % 2 ^ 32

theorem wrapSub_of_le {a b : Nat} (le : b ≤ a) (small : a < 2 ^ 32) : wrapSub a b = a - b := by
  unfold wrapSub
  omega

theorem wrapAdd_of_lt {a b : Nat} (small : a + b < 2 ^ 32) : wrapAdd a b = a + b :=
  Nat.mod_eq_of_lt small

/-- Store the words downwards from `sp`, each push at the next lower word; the new memory and the
new stack pointer. -/
def pushWords : WordMemory → Nat → List Nat → WordMemory × Nat
  | mem, sp, [] => (mem, sp)
  | mem, sp, word :: words =>
      pushWords (Function.update mem (wrapSub sp 4) word) (wrapSub sp 4) words

/-- Load `count` words upwards from `sp`; the words and the new stack pointer. -/
def popWords (mem : WordMemory) : Nat → Nat → List Nat × Nat
  | sp, 0 => ([], sp)
  | sp, count + 1 =>
      (mem sp :: (popWords mem (wrapAdd sp 4) count).1, (popWords mem (wrapAdd sp 4) count).2)

/-- The block that starts at `base` holds the words, lowest address first. -/
def HoldsWords (mem : WordMemory) : Nat → List Nat → Prop
  | _, [] => True
  | base, word :: words => mem base = word ∧ HoldsWords mem (base + 4) words

theorem HoldsWords.append {mem : WordMemory} {base : Nat} {first second : List Nat}
    (low : HoldsWords mem base first) (high : HoldsWords mem (base + 4 * first.length) second) :
    HoldsWords mem base (first ++ second) := by
  induction first generalizing base with
  | nil => simpa using high
  | cons word words ih =>
      refine ⟨low.1, ih low.2 ?_⟩
      rw [List.length_cons] at high
      rwa [show base + 4 + 4 * words.length = base + 4 * (words.length + 1) by omega]

/-- The two halves of a block. -/
theorem HoldsWords.split {mem : WordMemory} {base : Nat} {first second : List Nat}
    (holds : HoldsWords mem base (first ++ second)) :
    HoldsWords mem base first ∧ HoldsWords mem (base + 4 * first.length) second := by
  induction first generalizing base with
  | nil => exact ⟨trivial, holds⟩
  | cons word words ih =>
      obtain ⟨low, high⟩ := ih holds.2
      refine ⟨⟨holds.1, low⟩, ?_⟩
      rw [List.length_cons]
      rwa [show base + 4 + 4 * words.length = base + 4 * (words.length + 1) by omega] at high

/-- **The frame rule**: a block only depends on the addresses it covers. -/
theorem HoldsWords.congr {mem mem' : WordMemory} {base : Nat} {words : List Nat}
    (holds : HoldsWords mem base words)
    (same : ∀ a, base ≤ a → a < base + 4 * words.length → mem' a = mem a) :
    HoldsWords mem' base words := by
  induction words generalizing base with
  | nil => trivial
  | cons word words ih =>
      rw [List.length_cons] at same
      refine ⟨(same base (by omega) (by omega)).trans holds.1, ih holds.2 fun a above below => ?_⟩
      exact same a (by omega) (by omega)

/-- **What a push does**: it moves the stack pointer down by the words' size, leaves the words
below the old stack pointer with the last one lowest, and touches nothing else. -/
theorem pushWords_spec (mem : WordMemory) (sp : Nat) (words : List Nat)
    (room : 4 * words.length ≤ sp) (small : sp < 2 ^ 32) :
    (pushWords mem sp words).2 = sp - 4 * words.length ∧
      HoldsWords (pushWords mem sp words).1 (sp - 4 * words.length) words.reverse ∧
      ∀ a, a < sp - 4 * words.length ∨ sp ≤ a → (pushWords mem sp words).1 a = mem a := by
  induction words generalizing mem sp with
  | nil => exact ⟨rfl, trivial, fun _ _ => rfl⟩
  | cons word words ih =>
      rw [List.length_cons] at room ⊢
      have down : wrapSub sp 4 = sp - 4 := wrapSub_of_le (by omega) small
      obtain ⟨pointer, holds, frame⟩ :=
        ih (Function.update mem (sp - 4) word) (sp - 4) (by omega) (by omega)
      have bottom : sp - 4 - 4 * words.length = sp - 4 * (words.length + 1) := by omega
      rw [bottom] at pointer holds frame
      simp only [pushWords, down]
      refine ⟨pointer, ?_, fun a outside => ?_⟩
      · rw [List.reverse_cons]
        refine holds.append ⟨?_, trivial⟩
        rw [List.length_reverse,
          show sp - 4 * (words.length + 1) + 4 * words.length = sp - 4 by omega,
          frame (sp - 4) (Or.inr (Nat.le_refl _)), Function.update_self]
      · rw [frame a (by omega), Function.update_of_ne (by omega)]

/-- **What a pop returns**: the words the block holds. -/
theorem popWords_of_holds {mem : WordMemory} {base : Nat} {words : List Nat}
    (holds : HoldsWords mem base words) (small : base + 4 * words.length < 2 ^ 32) :
    popWords mem base words.length = (words, base + 4 * words.length) := by
  induction words generalizing base with
  | nil => rfl
  | cons word words ih =>
      rw [List.length_cons] at small
      have up : wrapAdd base 4 = base + 4 := wrapAdd_of_lt (by omega)
      have rest := ih holds.2 (by omega)
      rw [List.length_cons, popWords, up, rest, holds.1]
      refine Prod.ext rfl ?_
      show base + 4 + 4 * words.length = base + 4 * (words.length + 1)
      omega

end YosStm32.Lib
