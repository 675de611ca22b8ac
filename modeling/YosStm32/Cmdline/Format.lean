/-
**Formats** (`vsnprintf` in `_cmd_printf`) **and numbers** (`atoi`).

`format` is the text that a format and its arguments stand for: the conversions `%d`, `%u` and `%s` with
an optional width, which zeros may fill. A conversion without a matching argument has no text. Whether
there is one depends on the kinds of the arguments only (`format_some`), and a text has a NUL only from a
string argument (`format_clean`). `atoi` reads back what `%d` writes (`atoi_decimal`).
-/

import Mathlib.Algebra.Ring.Int.Defs
import Mathlib.Data.List.TakeWhile
import YosStm32.Cmdline.Print

namespace YosStm32.Cmdline

open Lib

/-! ### The text of a format -/

/-- The bytes of a string literal, all of whose characters are ASCII. -/
def ascii (s : String) : List UInt8 := s.toList.map fun c => UInt8.ofNat c.toNat

/-- A literal is the string of its characters. -/
theorem ascii_ofList (chars : List Char) :
    ascii (String.ofList chars) = chars.map fun c => UInt8.ofNat c.toNat := by
  rw [ascii, String.toList_ofList]

/-- An argument behind a format: an `int`, or a string. -/
inductive Arg where
  | num (n : Int)
  | str (text : List UInt8)
  deriving DecidableEq, Repr

/-- Filled up to the width, with spaces or with zeros behind the sign. -/
def padNumber (zeros : Bool) (width : Nat) (n : Int) : List UInt8 :=
  if zeros then
    if n < 0 then 45 :: List.leftpad (width - 1) 48 (decimal n.natAbs)
    else List.leftpad width 48 (decimal n)
  else List.leftpad width 32 (decimal n)

/-- What a conversion stands for: `d`, `u` or `s`. -/
def convert (zeros : Bool) (width : Nat) (conversion : UInt8) (arg : Arg) : Option (List UInt8) :=
  match arg with
  | .num n =>
      if conversion = 100 then some (padNumber zeros width n)
      else if conversion = 117 then some (padNumber zeros width (n % 2 ^ 32))
      else none
  | .str text =>
      if conversion = 115 ∧ zeros = false then some (List.leftpad width 32 text) else none

/-- The rest of a format, in the text or behind a `%` and some of the digits of its width. -/
def formatLoop : (mode : Option (Bool × Nat)) → (msg : List UInt8) → List Arg → Option (List UInt8)
  | none, [], _ => some []
  | none, c :: msg, args =>
      if c = 37 then formatLoop (some (false, 0)) msg args
      else (formatLoop none msg args).map (c :: ·)
  | some _, [], _ => none
  | some (zeros, width), c :: msg, args =>
      if c = 48 ∧ width = 0 then formatLoop (some (true, 0)) msg args
      else if 48 ≤ c ∧ c ≤ 57 then formatLoop (some (zeros, 10 * width + (c.toNat - 48))) msg args
      else
        match args with
        | [] => none
        | arg :: args => (convert zeros width c arg).bind fun text =>
            (formatLoop none msg args).map (text ++ ·)

/-- The text of a format. -/
def format (msg : List UInt8) (args : List Arg) : Option (List UInt8) := formatLoop none msg args

/-- The kind of an argument: it is a string. -/
def Arg.isStr : Arg → Bool
  | .num _ => false
  | .str _ => true

/-- The argument fits its conversion. -/
def converts (zeros : Bool) (conversion : UInt8) (isStr : Bool) : Bool :=
  if isStr then conversion = 115 && !zeros else conversion = 100 || conversion = 117

/-- The format fits arguments of these kinds. -/
def fitsLoop : (mode : Option (Bool × Nat)) → (msg : List UInt8) → (kinds : List Bool) → Bool
  | none, [], _ => true
  | none, c :: msg, kinds => if c = 37 then fitsLoop (some (false, 0)) msg kinds else fitsLoop none msg kinds
  | some _, [], _ => false
  | some (zeros, width), c :: msg, kinds =>
      if c = 48 ∧ width = 0 then fitsLoop (some (true, 0)) msg kinds
      else if 48 ≤ c ∧ c ≤ 57 then fitsLoop (some (zeros, 10 * width + (c.toNat - 48))) msg kinds
      else
        match kinds with
        | [] => false
        | isStr :: kinds => converts zeros c isStr && fitsLoop none msg kinds

section Format

variable {msg text : List UInt8} {args : List Arg} {mode : Option (Bool × Nat)}

theorem convert_some {zeros : Bool} {conversion : UInt8} {arg : Arg}
    (fits : converts zeros conversion arg.isStr = true) (width : Nat) :
    ∃ text, convert zeros width conversion arg = some text := by
  cases arg with
  | num n =>
      simp only [converts, Arg.isStr, Bool.false_eq_true, if_false, Bool.or_eq_true,
        decide_eq_true_eq] at fits
      rcases fits with rfl | rfl
      · exact ⟨_, rfl⟩
      · exact ⟨_, rfl⟩
  | str text =>
      simp only [converts, Arg.isStr, if_true, Bool.and_eq_true, decide_eq_true_eq,
        Bool.not_eq_true'] at fits
      exact ⟨_, if_pos fits⟩

/-- **The kinds of the arguments decide** whether a format has a text. -/
theorem formatLoop_some (fits : fitsLoop mode msg (args.map Arg.isStr) = true) :
    ∃ text, formatLoop mode msg args = some text := by
  induction msg generalizing mode args with
  | nil =>
      cases mode with
      | none => exact ⟨[], rfl⟩
      | some _ => cases fits
  | cons c msg ih =>
      rcases mode with _ | ⟨zeros, width⟩
      · rw [fitsLoop] at fits
        rw [formatLoop]
        split at fits
        · rename_i percent
          rw [if_pos percent]
          exact ih fits
        · rename_i other
          obtain ⟨text, run⟩ := ih fits
          exact ⟨c :: text, by rw [if_neg other, run, Option.map_some]⟩
      · simp only [fitsLoop] at fits
        simp only [formatLoop]
        split at fits
        · rename_i zero
          rw [if_pos zero]
          exact ih fits
        · rename_i notZero
          rw [if_neg notZero]
          split at fits
          · rename_i digit
            rw [if_pos digit]
            exact ih fits
          · rename_i notDigit
            rw [if_neg notDigit]
            cases args with
            | nil => cases fits
            | cons arg args =>
                rw [List.map_cons, Bool.and_eq_true] at fits
                obtain ⟨first, run⟩ := convert_some fits.1 width
                obtain ⟨rest, run'⟩ := ih fits.2
                exact ⟨first ++ rest, by simp only [run, run', Option.bind_some, Option.map_some]⟩

theorem format_some (fits : fitsLoop none msg (args.map Arg.isStr) = true) :
    ∃ text, format msg args = some text := formatLoop_some fits

/-! ### What is in the text -/

theorem not_mem_leftpad {c fill : UInt8} (other : c ≠ fill) (absent : c ∉ text) (width : Nat) :
    c ∉ List.leftpad width fill text := by
  intro member
  rcases List.mem_append.mp member with pad | member
  · exact other (List.eq_of_mem_replicate pad)
  · exact absent member

theorem not_mem_padNumber {c : UInt8} (below : c < 32) (zeros : Bool) (width : Nat) (n : Int) :
    c ∉ padNumber zeros width n := by
  have below' : c < 45 := UInt8.lt_trans below (by decide)
  have notZero : c ≠ 48 := fun same => absurd (same ▸ below : (48 : UInt8) < 32) (by decide)
  have notSpace : c ≠ 32 := fun same => absurd (same ▸ below : (32 : UInt8) < 32) (by decide)
  have notMinus : c ≠ 45 := fun same => absurd (same ▸ below : (45 : UInt8) < 32) (by decide)
  rw [padNumber]
  split
  · split
    · rw [List.mem_cons, not_or]
      exact ⟨notMinus, not_mem_leftpad notZero (not_mem_decimal below') _⟩
    · exact not_mem_leftpad notZero (not_mem_decimal below') _
  · exact not_mem_leftpad notSpace (not_mem_decimal below') _

/-- A control character is in the text of a conversion only if it is in the string. -/
theorem convert_avoids {zeros : Bool} {width : Nat} {conversion c : UInt8} {arg : Arg} (below : c < 32)
    (absent : ∀ string, arg = .str string → c ∉ string)
    (run : convert zeros width conversion arg = some text) : c ∉ text := by
  have notSpace : c ≠ 32 := fun same => absurd (same ▸ below : (32 : UInt8) < 32) (by decide)
  cases arg with
  | num n =>
      rw [convert] at run
      split at run
      · cases run
        exact not_mem_padNumber below _ _ _
      · split at run
        · cases run
          exact not_mem_padNumber below _ _ _
        · cases run
  | str string =>
      rw [convert] at run
      split at run
      · cases run
        exact not_mem_leftpad notSpace (absent string rfl) _
      · cases run

theorem formatLoop_avoids {c : UInt8} (below : c < 32) (inMsg : c ∉ msg)
    (absent : ∀ string, Arg.str string ∈ args → c ∉ string)
    (run : formatLoop mode msg args = some text) : c ∉ text := by
  induction msg generalizing mode args text with
  | nil =>
      cases mode with
      | none =>
          cases run
          exact List.not_mem_nil
      | some _ => cases run
  | cons d msg ih =>
      rw [List.mem_cons, not_or] at inMsg
      rcases mode with _ | ⟨zeros, width⟩
      · rw [formatLoop] at run
        split at run
        · exact ih inMsg.2 absent run
        · obtain ⟨rest, later, rfl⟩ := Option.map_eq_some_iff.mp run
          rw [List.mem_cons, not_or]
          exact ⟨inMsg.1, ih inMsg.2 absent later⟩
      · simp only [formatLoop] at run
        split at run
        · exact ih inMsg.2 absent run
        · split at run
          · exact ih inMsg.2 absent run
          · cases args with
            | nil => cases run
            | cons arg args =>
                obtain ⟨first, converted, run⟩ := Option.bind_eq_some_iff.mp run
                obtain ⟨rest, later, rfl⟩ := Option.map_eq_some_iff.mp run
                rw [List.mem_append, not_or]
                exact ⟨convert_avoids below (fun string same => absent string (same ▸ List.mem_cons_self ..))
                    converted,
                  ih inMsg.2 (fun string member => absent string (List.mem_cons_of_mem _ member)) later⟩

/-- **No NUL comes into a text** but from a string. -/
theorem format_clean (inMsg : 0 ∉ msg) (absent : ∀ string, Arg.str string ∈ args → 0 ∉ string)
    (run : format msg args = some text) : 0 ∉ text :=
  formatLoop_avoids (by decide) inMsg absent run

example : format (ascii "%03d|%4d|%s") [.num 7, .num (-12), .str [65]] = some (ascii "007| -12|A") := by
  decide +kernel

end Format

/-! ### Reading a number -/

/-- `isspace`. -/
def isSpace (c : UInt8) : Bool := c = 32 || 9 ≤ c && c ≤ 13

/-- A decimal digit. -/
def isDigit (c : UInt8) : Bool := 48 ≤ c && c ≤ 57

/-- The value of digits. -/
def digitsValue (digits : List UInt8) : Nat := digits.foldl (fun n c => 10 * n + (c.toNat - 48)) 0

/-- A sign in front, and what is behind it. -/
def signed : List UInt8 → Bool × List UInt8
  | [] => (false, [])
  | c :: s => if c = 45 then (true, s) else if c = 43 then (false, s) else (false, c :: s)

/-- `atoi`, with what it returns for a number that is no `int`. -/
def atoi (beyond : List UInt8 → Int) (s : List UInt8) : Int :=
  let (negative, rest) := signed (s.dropWhile isSpace)
  let value : Int := digitsValue (rest.takeWhile isDigit)
  let n := if negative then -value else value
  if -2 ^ 31 ≤ n ∧ n < 2 ^ 31 then n else beyond s

section Atoi

theorem isDigit_ofNat {c : Char} (digit : c.isDigit = true) :
    isDigit (UInt8.ofNat c.toNat) = true ∧ (UInt8.ofNat c.toNat).toNat = c.toNat := by
  obtain ⟨low, high⟩ : 48 ≤ c.toNat ∧ c.toNat ≤ 57 := Char.isDigit_iff_toNat.mp digit
  have same : (UInt8.ofNat c.toNat).toNat = c.toNat := by
    rw [UInt8.toNat_ofNat']
    omega
  refine ⟨?_, same⟩
  rw [isDigit, Bool.and_eq_true, decide_eq_true_eq, decide_eq_true_eq, UInt8.le_iff_toNat_le,
    UInt8.le_iff_toNat_le, same]
  exact ⟨low, high⟩

/-- The characters of a number, as bytes, have the value that they have as characters. -/
theorem digitsValue_map {digits : List Char} (all : ∀ c ∈ digits, c.isDigit = true) :
    digitsValue (digits.map fun c => UInt8.ofNat c.toNat) = Nat.ofDigitChars 10 digits 0 := by
  rw [digitsValue, Nat.ofDigitChars, List.foldl_map]
  refine List.foldl_ext _ _ _ fun n c member => ?_
  rw [(isDigit_ofNat (all c member)).2]
  rfl

/-- Behind a sign or without one, digits are read to their end. -/
theorem signed_digits {digits : List UInt8} (all : ∀ c ∈ digits, isDigit c = true) (some : digits ≠ [])
    (negative : Bool) :
    signed (((if negative then [45] else []) ++ digits).dropWhile isSpace) = (negative, digits) := by
  cases negative with
  | true => rfl
  | false =>
      obtain ⟨c, others, rfl⟩ := List.exists_cons_of_ne_nil some
      have digit := all c (List.mem_cons_self ..)
      have noSpace : isSpace c = false := by
        simp only [isDigit, isSpace, Bool.and_eq_true, Bool.or_eq_false_iff, Bool.and_eq_false_iff,
          decide_eq_true_eq, decide_eq_false_iff_not, UInt8.le_iff_toNat_le, ← UInt8.toNat_inj] at digit ⊢
        have low : 48 ≤ c.toNat := digit.1
        exact ⟨fun same => absurd (same ▸ low : 48 ≤ (32 : UInt8).toNat) (by decide),
          Or.inr fun high => absurd (Nat.le_trans low high) (by decide)⟩
      have noSign : c ≠ 45 ∧ c ≠ 43 := by
        constructor <;> rintro rfl <;> exact absurd digit (by decide)
      simp only [Bool.false_eq_true, if_false, List.nil_append, List.dropWhile_cons, noSpace, signed,
        noSign.1, noSign.2]

/-- **`atoi` reads what `%d` has written.** -/
theorem atoi_decimal (beyond : List UInt8 → Int) {n : Int} (low : -2 ^ 31 ≤ n) (high : n < 2 ^ 31) :
    atoi beyond (decimal n) = n := by
  have all : ∀ c ∈ Nat.toDigits 10 n.natAbs, c.isDigit = true := fun c member =>
    Nat.isDigit_of_mem_toDigits (by decide) (by decide) member
  have digits : ∀ c ∈ (Nat.toDigits 10 n.natAbs).map fun c => UInt8.ofNat c.toNat, isDigit c = true := by
    intro c member
    obtain ⟨digit, inside, rfl⟩ := List.mem_map.mp member
    exact (isDigit_ofNat (all digit inside)).1
  have some : ((Nat.toDigits 10 n.natAbs).map fun c => UInt8.ofNat c.toNat) ≠ [] := fun none =>
    Nat.toDigits_ne_nil (List.map_eq_nil_iff.mp none)
  have value := digitsValue_map all
  rw [Nat.ofDigitChars_ten_toDigits] at value
  have signs := signed_digits digits some (decide (n < 0))
  simp only [decide_eq_true_eq] at signs
  have same : (if n < 0 then -(n.natAbs : Int) else n.natAbs) = n := by omega
  have whole : decimal n = (if n < 0 then [45] else []) ++
      (Nat.toDigits 10 n.natAbs).map fun c => UInt8.ofNat c.toNat := rfl
  rw [atoi, whole, signs]
  simp only [List.takeWhile_eq_self_iff.mpr digits, value, decide_eq_true_eq, same]
  exact if_pos ⟨low, high⟩

end Atoi

end YosStm32.Cmdline
