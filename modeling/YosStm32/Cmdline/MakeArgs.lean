/-
**The argument splitter of the command line** (`cmdline.c`, `cmdline.h`).

The command line is a block of bytes and is changed in place; a `char *` in it is its offset. An
access outside the block, or outside the array that `argv` points to, is `none`. The loop of
`_make_args` carries fuel; `none` also stands for running out of it.
-/

import YosStm32.Lib.CString

namespace YosStm32.Cmdline

open Lib

/-- `CMDLINE_BLANK_CHARS`: `" \t\r\n"`. -/
def cmdlineBlankChars : List UInt8 := [32, 9, 13, 10]

/-- `CMDLINE_QUOTE_CHARS`: `"\"\'"`. -/
def cmdlineQuoteChars : List UInt8 := [34, 39]

/-- `CMDLINE_MAX_PARA_CNT`. -/
def cmdlineMaxParaCnt : Nat := 10

/-- The loop of `_search_char_in_string`, at index `i`; the list is what lies from there on. -/
def searchLoop (c : UInt8) : List UInt8 → Nat → Option Int
  | [], _ => none
  | byte :: rest, i =>
      if byte ≠ 0 then
        if c = byte then some (i : Int) else searchLoop c rest (i + 1)
      else some (-1)

/-- `_search_char_in_string`. -/
def searchCharInString (c : UInt8) (str : Option (List UInt8)) : Option Int :=
  match str with
  | none => some (-1)
  | some str => searchLoop c str 0

/-- `_is_blank_char`; the string literal ends with a NUL. -/
def isBlankChar (c : UInt8) : Bool :=
  (searchCharInString c (some (cmdlineBlankChars ++ [0]))).any fun index => decide (0 ≤ index)

/-- `_is_quote_char`. -/
def isQuoteChar (c : UInt8) : Bool :=
  (searchCharInString c (some (cmdlineQuoteChars ++ [0]))).any fun index => decide (0 ≤ index)

/-- `while (cmdline[pos] != '\0') pos++`; the list is what lies from `pos` on. -/
def skipToNul : List UInt8 → Nat → Option Nat
  | [], _ => none
  | byte :: rest, pos => if byte ≠ 0 then skipToNul rest (pos + 1) else some pos

/-- `while (pos < cmdlen && !_is_blank_char(cmdline[pos])) pos++`. -/
def skipWord (cmdlen : Nat) : List UInt8 → Nat → Option Nat
  | [], pos => if pos < cmdlen then none else some pos
  | byte :: rest, pos =>
      if pos < cmdlen ∧ isBlankChar byte = false then skipWord cmdlen rest (pos + 1) else some pos

/-- What `_make_args` writes: the command line, `*argc` and the array `argv`. -/
structure MakeArgs where
  cmdline : List UInt8
  argc : Nat
  argv : List Nat
  deriving DecidableEq, Repr

/-- `cmdline[cur_token_end] = '\0'; argv[*argc] = cmdline + cur_token_start; (*argc)++`. -/
def MakeArgs.addToken (s : MakeArgs) (curTokenStart curTokenEnd : Nat) : Option MakeArgs :=
  if curTokenEnd < s.cmdline.length ∧ s.argc < s.argv.length then
    some
      { cmdline := s.cmdline.set curTokenEnd 0
        argc := s.argc + 1
        argv := s.argv.set s.argc curTokenStart }
  else none

/-- The loop of `_make_args` at position `pos`. -/
def makeArgsLoop (cmdlen : Nat) : (fuel : Nat) → MakeArgs → (pos : Nat) → Option MakeArgs
  | 0, _, _ => none
  | fuel + 1, s, pos =>
      if pos < cmdlen then
        s.cmdline[pos]?.bind fun c =>
          if c ≠ 0 ∧ s.argc < cmdlineMaxParaCnt then
            if isBlankChar c then makeArgsLoop cmdlen fuel s (pos + 1)
            else if isQuoteChar c then
              (searchCharInString c (some (s.cmdline.drop (pos + 1)))).bind fun found =>
                (if found ≥ 0 then some (pos + 1 + found.toNat)
                  else skipToNul (s.cmdline.drop (pos + 1)) (pos + 1)).bind fun curTokenEnd =>
                    (s.addToken (pos + 1) curTokenEnd).bind fun s =>
                      makeArgsLoop cmdlen fuel s (curTokenEnd + 1)
            else
              (skipWord cmdlen (s.cmdline.drop (pos + 1)) (pos + 1)).bind fun curTokenEnd =>
                (s.addToken pos curTokenEnd).bind fun s =>
                  makeArgsLoop cmdlen fuel s (curTokenEnd + 1)
          else some s
      else some s

/-- `_make_args`, with pointers that are not `NULL`. -/
def makeArgs (cmdline : List UInt8) (argv : List Nat) : Option MakeArgs :=
  (strlen cmdline).bind fun cmdlen =>
    makeArgsLoop cmdlen (cmdlen + 1) { cmdline := cmdline, argc := 0, argv := argv } 0

/-! ### What stays as it is -/

section Lengths

variable {s result : MakeArgs}

/-- The block and the array keep their lengths. -/
def MakeArgs.SameLengths (s result : MakeArgs) : Prop :=
  result.cmdline.length = s.cmdline.length ∧ result.argv.length = s.argv.length

theorem MakeArgs.addToken_lengths {curTokenStart curTokenEnd : Nat}
    (added : s.addToken curTokenStart curTokenEnd = some result) : s.SameLengths result := by
  unfold MakeArgs.addToken at added
  split at added
  · obtain rfl := Option.some.inj added
    exact ⟨List.length_set, List.length_set⟩
  · cases added

theorem makeArgsLoop_lengths {cmdlen fuel pos : Nat}
    (run : makeArgsLoop cmdlen fuel s pos = some result) : s.SameLengths result := by
  induction fuel generalizing s pos with
  | zero => cases run
  | succ fuel ih =>
      -- A token is added, and the rest of the loop runs.
      have after : ∀ {start last : Nat},
          ((s.addToken start last).bind fun s => makeArgsLoop cmdlen fuel s (last + 1)) =
            some result → s.SameLengths result := by
        intro start last both
        obtain ⟨middle, added, rest⟩ := Option.bind_eq_some_iff.mp both
        have first := MakeArgs.addToken_lengths added
        have second := ih rest
        exact ⟨second.1.trans first.1, second.2.trans first.2⟩
      rw [makeArgsLoop] at run
      split at run
      case isFalse =>
        obtain rfl := Option.some.inj run
        exact ⟨rfl, rfl⟩
      obtain ⟨c, _, run⟩ := Option.bind_eq_some_iff.mp run
      split at run
      case isFalse =>
        obtain rfl := Option.some.inj run
        exact ⟨rfl, rfl⟩
      split at run
      case isTrue => exact ih run
      split at run
      · obtain ⟨found, _, run⟩ := Option.bind_eq_some_iff.mp run
        obtain ⟨last, _, run⟩ := Option.bind_eq_some_iff.mp run
        exact after run
      · obtain ⟨last, _, run⟩ := Option.bind_eq_some_iff.mp run
        exact after run

/-- `_make_args` changes neither the length of the line's block nor that of `argv`. -/
theorem makeArgs_lengths {cmdline : List UInt8} {argv : List Nat}
    (run : makeArgs cmdline argv = some result) :
    result.cmdline.length = cmdline.length ∧ result.argv.length = argv.length := by
  obtain ⟨cmdlen, _, run⟩ := Option.bind_eq_some_iff.mp run
  exact makeArgsLoop_lengths run

end Lengths

/-! ### The inner loops -/

section Loops

variable {c : UInt8} {s rest : List UInt8}

/-- The character is found after the bytes that come before it. -/
theorem searchLoop_found (nonzero : c ≠ 0) (clean : 0 ∉ s) (absent : c ∉ s) (i : Nat) :
    searchLoop c (s ++ c :: rest) i = some ((i + s.length : Nat) : Int) := by
  induction s generalizing i with
  | nil =>
      rw [List.nil_append, searchLoop, if_pos nonzero, if_pos rfl]
      rfl
  | cons byte s ih =>
      obtain ⟨first, clean⟩ := avoids_cons clean
      obtain ⟨other, absent⟩ := avoids_cons absent
      rw [List.cons_append, searchLoop, if_pos first, if_neg (Ne.symm other), ih clean absent,
        List.length_cons]
      congr 2
      omega

/-- Up to the terminator, the character is not found. -/
theorem searchLoop_absent (clean : 0 ∉ s) (absent : c ∉ s) (i : Nat) :
    searchLoop c (s ++ 0 :: rest) i = some (-1) := by
  induction s generalizing i with
  | nil => rfl
  | cons byte s ih =>
      obtain ⟨first, clean⟩ := avoids_cons clean
      obtain ⟨other, absent⟩ := avoids_cons absent
      rw [List.cons_append, searchLoop, if_pos first, if_neg (Ne.symm other), ih clean absent]

/-- Whether a character occurs in a literal. -/
theorem searchLoop_any (clean : 0 ∉ s) (nonzero : c ≠ 0) (i : Nat) :
    (searchLoop c (s ++ [0]) i).any (fun index => decide (0 ≤ index)) = decide (c ∈ s) := by
  by_cases member : c ∈ s
  · obtain ⟨before, after, rfl, absent⟩ := List.eq_append_cons_of_mem member
    have cleanBefore : 0 ∉ before := fun zero => clean (List.mem_append_left _ zero)
    rw [List.append_assoc, List.cons_append, searchLoop_found nonzero cleanBefore absent]
    simp only [Option.any_some, member, decide_true, decide_eq_true_eq]
    exact Int.natCast_nonneg _
  · rw [searchLoop_absent clean member]
    simp [member]

theorem skipToNul_terminated (clean : 0 ∉ s) (pos : Nat) :
    skipToNul (s ++ 0 :: rest) pos = some (pos + s.length) := by
  induction s generalizing pos with
  | nil => rfl
  | cons byte s ih =>
      obtain ⟨first, clean⟩ := avoids_cons clean
      rw [List.cons_append, skipToNul, if_pos first, ih clean, List.length_cons]
      congr 1
      omega

/-- A word ends at a blank, or at the end of the command line. -/
theorem skipWord_word {cmdlen pos : Nat} (word : ∀ byte ∈ s, isBlankChar byte = false)
    (fits : pos + s.length ≤ cmdlen)
    (ends : pos + s.length = cmdlen ∨ isBlankChar c = true) :
    skipWord cmdlen (s ++ c :: rest) pos = some (pos + s.length) := by
  induction s generalizing pos with
  | nil =>
      rw [List.nil_append, skipWord, if_neg]
      · rfl
      · rintro ⟨below, inWord⟩
        rcases ends with final | blank
        · exact absurd final (Nat.ne_of_lt below)
        · rw [blank] at inWord
          cases inWord
  | cons byte s ih =>
      rw [List.length_cons] at fits ends ⊢
      have below : pos < cmdlen := by omega
      have further : pos + (s.length + 1) = pos + 1 + s.length := by omega
      rw [further] at fits ends ⊢
      rw [List.cons_append, skipWord, if_pos ⟨below, word byte (List.mem_cons_self ..)⟩]
      exact ih (fun byte member => word byte (List.mem_cons_of_mem _ member)) fits ends

end Loops

end YosStm32.Cmdline
