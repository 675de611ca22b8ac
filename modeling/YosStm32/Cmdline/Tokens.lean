/-
**The argument splitter computes the tokens of the command line.**

`tokens` is the grammar: blanks separate, a token that starts with a quote character runs to the next
occurrence of that character, any other token runs to the next blank. `makeArgs_tokens` says that the
strings that `_make_args` leaves in the block are the first `CMDLINE_MAX_PARA_CNT` of them.

At the head of the loop the block is `first ++ (unread ++ 0 :: rest)`: the loop never writes into
`unread`, and everything that it has to keep, terminators included, lies in `first`. `Splits` says
what a run from there leaves; it grows from the end of the run to its beginning, one token at a time
(`Splits.token`).
-/

import Mathlib.Data.List.TakeWhile
import YosStm32.Cmdline.MakeArgs

namespace YosStm32.Cmdline

open Lib

/-! ### The grammar -/

def blank (c : UInt8) : Bool := decide (c ∈ cmdlineBlankChars)

def quote (c : UInt8) : Bool := decide (c ∈ cmdlineQuoteChars)

/-- The tokens of a command line. -/
def tokens : List UInt8 → List (List UInt8)
  | [] => []
  | c :: s =>
      if blank c then tokens s
      else if quote c then
        s.takeWhile (fun byte => decide (byte ≠ c)) ::
          tokens ((s.dropWhile fun byte => decide (byte ≠ c)).drop 1)
      else
        (c :: s.takeWhile fun byte => !blank byte) :: tokens (s.dropWhile fun byte => !blank byte)
  termination_by s => s.length
  decreasing_by
    · exact Nat.lt_succ_self _
    · have shorter := (List.dropWhile_suffix (l := s) fun byte => decide (byte ≠ c)).length_le
      rw [List.length_drop, List.length_cons]
      omega
    · exact Nat.lt_succ_of_le (List.dropWhile_suffix _).length_le

theorem no_blank {word : List UInt8} (none : word.any blank = false) :
    ∀ byte ∈ word, blank byte = false := fun byte member =>
  Bool.eq_false_iff.mpr (List.any_eq_false.mp none byte member)

section Grammar

variable {c : UInt8} {s word : List UInt8}

theorem tokens_nil : tokens [] = [] := by rw [tokens]

theorem tokens_blank (isBlank : blank c = true) : tokens (c :: s) = tokens s := by
  rw [tokens, if_pos isBlank]

/-- A quoted token, closed by the same character. -/
theorem tokens_closed (notBlank : blank c = false) (isQuote : quote c = true) (absent : c ∉ word) :
    tokens (c :: (word ++ c :: s)) = word :: tokens s := by
  have inside : ∀ byte ∈ word, decide (byte ≠ c) = true := fun byte member =>
    decide_eq_true fun same => absent (same ▸ member)
  rw [tokens, if_neg (by rw [notBlank]; decide), if_pos isQuote,
    List.takeWhile_append_of_pos inside, List.dropWhile_append_of_pos inside]
  simp

/-- A quoted token that nothing closes. -/
theorem tokens_open (notBlank : blank c = false) (isQuote : quote c = true) (absent : c ∉ word) :
    tokens (c :: word) = [word] := by
  have inside : ∀ byte ∈ word, decide (byte ≠ c) = true := fun byte member =>
    decide_eq_true fun same => absent (same ▸ member)
  rw [tokens, if_neg (by rw [notBlank]; decide), if_pos isQuote,
    List.takeWhile_eq_self_iff.mpr inside, List.dropWhile_eq_nil_iff.mpr inside]
  simp [tokens_nil]

/-- A word that a blank ends. -/
theorem tokens_word {d : UInt8} (notBlank : blank c = false) (notQuote : quote c = false)
    (inside : ∀ byte ∈ word, blank byte = false) (ends : blank d = true) :
    tokens (c :: (word ++ d :: s)) = (c :: word) :: tokens s := by
  have inside' : ∀ byte ∈ word, (!blank byte) = true := fun byte member => by
    rw [inside byte member]
    rfl
  rw [tokens, if_neg (by rw [notBlank]; decide), if_neg (by rw [notQuote]; decide),
    List.takeWhile_append_of_pos inside', List.dropWhile_append_of_pos inside']
  simp [ends, tokens_blank ends]

/-- A word up to the end. -/
theorem tokens_last (notBlank : blank c = false) (notQuote : quote c = false)
    (inside : ∀ byte ∈ word, blank byte = false) : tokens (c :: word) = [c :: word] := by
  have inside' : ∀ byte ∈ word, (!blank byte) = true := fun byte member => by
    rw [inside byte member]
    rfl
  rw [tokens, if_neg (by rw [notBlank]; decide), if_neg (by rw [notQuote]; decide),
    List.takeWhile_eq_self_iff.mpr inside', List.dropWhile_eq_nil_iff.mpr inside', tokens_nil]

/-- Induction along the tokens of a line. -/
theorem tokens_induction {motive : List UInt8 → List (List UInt8) → Prop} (nil : motive [] [])
    (blanks : ∀ c s, blank c = true → motive s (tokens s) → motive (c :: s) (tokens s))
    (closed : ∀ c word s, c ∉ word → motive s (tokens s) →
      motive (c :: (word ++ c :: s)) (word :: tokens s))
    (unclosed : ∀ c word, motive (c :: word) [word])
    (ended : ∀ c word d s, blank c = false → (∀ byte ∈ word, blank byte = false) →
      motive s (tokens s) → motive (c :: (word ++ d :: s)) ((c :: word) :: tokens s))
    (last : ∀ c word, blank c = false → (∀ byte ∈ word, blank byte = false) →
      motive (c :: word) [c :: word])
    (s : List UInt8) : motive s (tokens s) := by
  induction length : s.length using Nat.strong_induction_on generalizing s with
  | _ n ih =>
      cases s with
      | nil =>
          rw [tokens_nil]
          exact nil
      | cons c s =>
          have rest (before after : List UInt8) (split : s = before ++ after) :
              motive after (tokens after) := by
            refine ih after.length ?_ after rfl
            rw [← length, split, List.length_cons, List.length_append]
            omega
          cases notBlank : blank c with
          | true =>
              rw [tokens_blank notBlank]
              exact blanks c s notBlank (rest [] s rfl)
          | false =>
              cases isQuote : quote c with
              | true =>
                  by_cases again : c ∈ s
                  · obtain ⟨word, after, rfl, absent⟩ := List.eq_append_cons_of_mem again
                    rw [tokens_closed notBlank isQuote absent]
                    exact closed c word after absent (rest (word ++ [c]) after (by simp))
                  · rw [tokens_open notBlank isQuote again]
                    exact unclosed c s
              | false =>
                  rcases split_at_first blank s with inside | ⟨word, d, after, rfl, ends, inside⟩
                  · rw [tokens_last notBlank isQuote inside]
                    exact last c s notBlank inside
                  · rw [tokens_word notBlank isQuote inside ends]
                    exact ended c word d after notBlank inside (rest (word ++ [d]) after (by simp))

/-- The characters of a token come from the line. -/
theorem mem_tokens {byte : UInt8} (member : word ∈ tokens s) (inside : byte ∈ word) : byte ∈ s := by
  induction s using tokens_induction with
  | nil => cases member
  | blanks c s _ ih => exact List.mem_cons_of_mem _ (ih member)
  | closed c word' s _ ih =>
      rcases List.mem_cons.mp member with rfl | later
      · simp [inside]
      · simp [ih later]
  | unclosed c word' =>
      obtain rfl := List.mem_singleton.mp member
      exact List.mem_cons_of_mem _ inside
  | ended c word' d s _ _ ih =>
      rcases List.mem_cons.mp member with rfl | later
      · rw [← List.cons_append]
        exact List.mem_append_left _ inside
      · simp [ih later]
  | last c word' =>
      obtain rfl := List.mem_singleton.mp member
      exact inside

end Grammar

/-! ### The characters -/

theorem isBlankChar_eq {c : UInt8} (nonzero : c ≠ 0) : isBlankChar c = blank c :=
  searchLoop_any (by decide) nonzero 0

theorem isQuoteChar_eq {c : UInt8} (nonzero : c ≠ 0) : isQuoteChar c = quote c :=
  searchLoop_any (by decide) nonzero 0

/-- The end of a quoted token: the next occurrence of the quote character, or the end of the string. -/
theorem quotedEnd_cases {c : UInt8} {s : List UInt8} (nonzero : c ≠ 0) (clean : 0 ∉ s) :
    (∃ word unread, s = word ++ c :: unread ∧ c ∉ word ∧ 0 ∉ word ∧ 0 ∉ unread ∧ ∀ rest pos,
      ((searchLoop c (s ++ 0 :: rest) 0).bind fun found =>
        if found ≥ 0 then some (pos + found.toNat) else skipToNul (s ++ 0 :: rest) pos) =
          some (pos + word.length)) ∨
    c ∉ s ∧ ∀ rest pos,
      ((searchLoop c (s ++ 0 :: rest) 0).bind fun found =>
        if found ≥ 0 then some (pos + found.toNat) else skipToNul (s ++ 0 :: rest) pos) =
          some (pos + s.length) := by
  by_cases closed : c ∈ s
  · obtain ⟨word, unread, rfl, absent⟩ := List.eq_append_cons_of_mem closed
    have cleanWord : 0 ∉ word := fun zero => clean (List.mem_append_left _ zero)
    have cleanRest : 0 ∉ unread := fun zero =>
      clean (List.mem_append_right _ (List.mem_cons_of_mem _ zero))
    refine Or.inl ⟨word, unread, rfl, absent, cleanWord, cleanRest, fun rest pos => ?_⟩
    rw [List.append_assoc, List.cons_append, searchLoop_found nonzero cleanWord absent, Option.bind_some,
      if_pos (Int.natCast_nonneg _), Int.toNat_natCast, Nat.zero_add]
  · refine Or.inr ⟨closed, fun rest pos => ?_⟩
    rw [searchLoop_absent clean closed, Option.bind_some, if_neg (by decide), skipToNul_terminated clean]

/-- The end of any other token: the next blank, or the end of the string. -/
theorem skipWord_cases {s : List UInt8} (clean : 0 ∉ s) :
    ((∀ byte ∈ s, blank byte = false) ∧ ∀ rest pos cmdlen, pos + s.length = cmdlen →
      skipWord cmdlen (s ++ 0 :: rest) pos = some (pos + s.length)) ∨
    ∃ word d unread, s = word ++ d :: unread ∧ blank d = true ∧ (∀ byte ∈ word, blank byte = false) ∧
      0 ∉ word ∧ 0 ∉ unread ∧ ∀ rest pos cmdlen, pos + s.length = cmdlen →
        skipWord cmdlen (s ++ 0 :: rest) pos = some (pos + word.length) := by
  have letters : ∀ {word : List UInt8}, 0 ∉ word → (∀ byte ∈ word, blank byte = false) →
      ∀ byte ∈ word, isBlankChar byte = false := fun clean inside byte member => by
    rw [isBlankChar_eq fun zero => clean (zero ▸ member)]
    exact inside byte member
  rcases split_at_first blank s with inside | ⟨word, d, unread, rfl, isBlank, inside⟩
  · exact Or.inl ⟨inside, fun rest pos cmdlen whole =>
      skipWord_word (letters clean inside) (Nat.le_of_eq whole) (Or.inl whole)⟩
  · have cleanWord : 0 ∉ word := fun zero => clean (List.mem_append_left _ zero)
    obtain ⟨nonzero, cleanRest⟩ :=
      avoids_cons (fun zero => clean (List.mem_append_right _ zero) : 0 ∉ d :: unread)
    refine Or.inr ⟨word, d, unread, rfl, isBlank, inside, cleanWord, cleanRest, fun rest pos cmdlen whole => ?_⟩
    rw [List.length_append, List.length_cons] at whole
    rw [List.append_assoc, List.cons_append]
    exact skipWord_word (letters cleanWord inside) (by omega) (Or.inr ((isBlankChar_eq nonzero).trans isBlank))

/-! ### One token -/

/-- The strings at some offsets of a block. -/
def Reads (block : List UInt8) (offsets : List Nat) (strings : List (List UInt8)) : Prop :=
  offsets.map (fun offset => cString (block.drop offset)) = strings.map some

/-- What a run from the block `first ++ unread` leaves: `first` is unchanged, and the new arguments
are the given strings. -/
def Splits (first : List UInt8) (argc : Nat) (argv : List Nat) (strings : List (List UInt8))
    (result : Option MakeArgs) : Prop :=
  ∃ rest offsets argv', result =
      some { cmdline := first ++ rest, argc := argc + offsets.length, argv := argv' } ∧
    argv'.take (argc + offsets.length) = argv.take argc ++ offsets ∧
    Reads (first ++ rest) offsets strings

namespace Splits

variable {first : List UInt8} {argc : Nat} {argv : List Nat} {strings : List (List UInt8)}
  {result : Option MakeArgs}

theorem done (first rest : List UInt8) (argc : Nat) (argv : List Nat) :
    Splits first argc argv [] (some { cmdline := first ++ rest, argc := argc, argv := argv }) :=
  ⟨rest, [], argv, rfl, (List.append_nil _).symm, rfl⟩

/-- Characters that are passed over. -/
theorem skip (lead : List UInt8) (splits : Splits (first ++ lead) argc argv strings result) :
    Splits first argc argv strings result := by
  obtain ⟨rest, offsets, argv', run, kept, reads⟩ := splits
  rw [List.append_assoc] at run reads
  exact ⟨lead ++ rest, offsets, argv', run, kept, reads⟩

/-- **A token, closed by its terminator**, comes before what the rest of the run finds. -/
theorem token {word : List UInt8} (room : argc < argv.length) (clean : 0 ∉ word)
    (splits : Splits (first ++ word ++ [0]) (argc + 1) (argv.set argc first.length) strings result) :
    Splits first argc argv (word :: strings) result := by
  obtain ⟨rest, offsets, argv', run, kept, reads⟩ := splits
  have block : first ++ word ++ [0] ++ rest = first ++ (word ++ 0 :: rest) := by simp
  have count : argc + 1 + offsets.length = argc + (first.length :: offsets).length := by
    rw [List.length_cons]
    omega
  have taken : (argv.set argc first.length).take (argc + 1) = argv.take argc ++ [first.length] := by
    rw [List.take_add_one, List.take_set_of_le (Nat.le_refl _), List.getElem?_set_self room]
    rfl
  rw [block] at run reads
  rw [count] at run kept
  rw [taken, List.append_assoc] at kept
  refine ⟨word ++ 0 :: rest, first.length :: offsets, argv', run, kept, ?_⟩
  rw [Reads, List.map_cons, List.map_cons, List.drop_left, cString_terminated clean]
  exact congrArg (some word :: ·) reads

end Splits

/-! ### The loop -/

section Loop

variable {first word more : List UInt8} {c d : UInt8} {argc fuel cmdlen : Nat} {argv : List Nat}

/-- The terminator of a token goes over the byte after it. -/
theorem addToken_eq (room : argc < argv.length) :
    MakeArgs.addToken { cmdline := first ++ word ++ d :: more, argc := argc, argv := argv }
        first.length (first.length + word.length) =
      some
        { cmdline := first ++ word ++ 0 :: more
          argc := argc + 1
          argv := argv.set argc first.length } := by
  have inside : first.length + word.length < (first ++ word ++ d :: more).length := by
    simp only [List.length_append, List.length_cons]
    omega
  rw [MakeArgs.addToken, if_pos ⟨inside, room⟩, ← List.length_append, set_append_cons]

/-- The branches of the loop at a character, with what lies after it. -/
theorem makeArgsLoop_char (below : first.length < cmdlen) (nonzero : c ≠ 0)
    (free : argc < cmdlineMaxParaCnt) :
    makeArgsLoop cmdlen (fuel + 1) { cmdline := first ++ c :: more, argc := argc, argv := argv }
        first.length =
      let s : MakeArgs := { cmdline := first ++ c :: more, argc := argc, argv := argv }
      if isBlankChar c then makeArgsLoop cmdlen fuel s (first.length + 1)
      else if isQuoteChar c then
        (searchLoop c more 0).bind fun found =>
          (if found ≥ 0 then some (first.length + 1 + found.toNat)
            else skipToNul more (first.length + 1)).bind fun curTokenEnd =>
              (s.addToken (first.length + 1) curTokenEnd).bind fun s =>
                makeArgsLoop cmdlen fuel s (curTokenEnd + 1)
      else
        (skipWord cmdlen more (first.length + 1)).bind fun curTokenEnd =>
          (s.addToken first.length curTokenEnd).bind fun s =>
            makeArgsLoop cmdlen fuel s (curTokenEnd + 1) := by
  have here : (first ++ c :: more)[first.length]? = some c := by simp
  have after : (first ++ c :: more).drop (first.length + 1) = more := by
    rw [List.append_cons]
    exact List.drop_left' (by simp)
  rw [makeArgsLoop, if_pos below, here, Option.bind_some, if_pos ⟨nonzero, free⟩]
  simp only [after, searchCharInString]

end Loop

/-- What the loop does, with the given fuel, from any block and any unread string in it. -/
def LoopSplits (fuel : Nat) : Prop :=
  ∀ (first unread rest : List UInt8) (argc : Nat) (argv : List Nat), 0 ∉ unread →
    unread.length < fuel → argc ≤ cmdlineMaxParaCnt → cmdlineMaxParaCnt ≤ argv.length →
      Splits first argc argv ((tokens unread).take (cmdlineMaxParaCnt - argc))
        (makeArgsLoop (first ++ unread).length fuel
          { cmdline := first ++ (unread ++ 0 :: rest), argc := argc, argv := argv } first.length)

section Steps

variable {first word unread rest : List UInt8} {c d : UInt8} {argc fuel cmdlen : Nat}
  {argv : List Nat}

/-- A token that another character ends. -/
theorem LoopSplits.closed (ih : LoopSplits fuel) (clean : 0 ∉ word) (cleanRest : 0 ∉ unread)
    (enough : unread.length < fuel) (free : argc < cmdlineMaxParaCnt)
    (room : cmdlineMaxParaCnt ≤ argv.length)
    (length : cmdlen = first.length + word.length + 1 + unread.length) :
    Splits first argc argv ((word :: tokens unread).take (cmdlineMaxParaCnt - argc))
      ((MakeArgs.addToken
          { cmdline := first ++ word ++ d :: (unread ++ 0 :: rest), argc := argc, argv := argv }
          first.length (first.length + word.length)).bind fun s =>
        makeArgsLoop cmdlen fuel s (first.length + word.length + 1)) := by
  have inside : argc < argv.length := Nat.lt_of_lt_of_le free room
  have later := ih (first ++ word ++ [0]) unread rest (argc + 1) (argv.set argc first.length)
    cleanRest enough free (by rwa [List.length_set])
  have block : first ++ word ++ [0] ++ (unread ++ 0 :: rest) =
      first ++ word ++ 0 :: (unread ++ 0 :: rest) := by simp
  have place : (first ++ word ++ [0]).length = first.length + word.length + 1 := by
    rw [List.length_append, List.length_append, List.length_singleton]
  have total : (first ++ word ++ [0] ++ unread).length = cmdlen := by
    rw [List.length_append, place, length]
  have one : cmdlineMaxParaCnt - argc = cmdlineMaxParaCnt - (argc + 1) + 1 := by omega
  rw [block, place, total] at later
  rw [addToken_eq inside, Option.bind_some, one, List.take_succ_cons]
  exact later.token inside clean

/-- A token that the end of the string ends. -/
theorem splits_last (clean : 0 ∉ word) (enough : 0 < fuel) (free : argc < cmdlineMaxParaCnt)
    (room : cmdlineMaxParaCnt ≤ argv.length) (length : cmdlen = first.length + word.length) :
    Splits first argc argv ([word].take (cmdlineMaxParaCnt - argc))
      ((MakeArgs.addToken
          { cmdline := first ++ word ++ 0 :: rest, argc := argc, argv := argv }
          first.length (first.length + word.length)).bind fun s =>
        makeArgsLoop cmdlen fuel s (first.length + word.length + 1)) := by
  have inside : argc < argv.length := Nat.lt_of_lt_of_le free room
  have one : cmdlineMaxParaCnt - argc = cmdlineMaxParaCnt - (argc + 1) + 1 := by omega
  obtain ⟨fuel, rfl⟩ := Nat.exists_eq_succ_of_ne_zero (Nat.ne_of_gt enough)
  have past : ¬ first.length + word.length + 1 < cmdlen := by omega
  have final := Splits.done (first ++ word ++ [0]) rest (argc + 1) (argv.set argc first.length)
  have block : first ++ word ++ [0] ++ rest = first ++ word ++ 0 :: rest := by simp
  rw [block] at final
  rw [addToken_eq inside, Option.bind_some, makeArgsLoop, if_neg past, one, List.take_succ_cons,
    List.take_nil]
  exact final.token inside clean

/-- A quoted token. -/
theorem LoopSplits.quoted (ih : LoopSplits fuel) (clean : 0 ∉ c :: unread)
    (enough : (c :: unread).length < fuel + 1) (free : argc < cmdlineMaxParaCnt)
    (room : cmdlineMaxParaCnt ≤ argv.length) (notBlank : blank c = false) (isQuote : quote c = true) :
    Splits first argc argv ((tokens (c :: unread)).take (cmdlineMaxParaCnt - argc))
      ((searchLoop c (unread ++ 0 :: rest) 0).bind fun found =>
        (if found ≥ 0 then some (first.length + 1 + found.toNat)
          else skipToNul (unread ++ 0 :: rest) (first.length + 1)).bind fun curTokenEnd =>
            (MakeArgs.addToken
              { cmdline := first ++ c :: (unread ++ 0 :: rest), argc := argc, argv := argv }
              (first.length + 1) curTokenEnd).bind fun s =>
                makeArgsLoop (first ++ c :: unread).length fuel s (curTokenEnd + 1)) := by
  obtain ⟨nonzero, clean⟩ := avoids_cons clean
  have place : (first ++ [c]).length = first.length + 1 := by simp
  refine Splits.skip [c] ?_
  rw [← Option.bind_assoc]
  rcases quotedEnd_cases nonzero clean with
    ⟨word, unread, rfl, absent, cleanWord, cleanRest, found⟩ | ⟨unclosed, found⟩
  · have block : first ++ c :: (word ++ c :: unread ++ 0 :: rest) =
        first ++ [c] ++ word ++ c :: (unread ++ 0 :: rest) := by simp
    rw [tokens_closed notBlank isQuote absent, found, block, Option.bind_some, ← place]
    refine ih.closed cleanWord cleanRest ?_ free room ?_
    · simp only [List.length_cons, List.length_append] at enough
      omega
    · simp only [List.length_cons, List.length_append, List.length_nil]
      omega
  · have block : first ++ c :: (unread ++ 0 :: rest) = first ++ [c] ++ unread ++ 0 :: rest := by simp
    rw [tokens_open notBlank isQuote unclosed, found, block, Option.bind_some, ← place]
    refine splits_last clean ?_ free room ?_
    · rw [List.length_cons] at enough
      omega
    · simp only [List.length_cons, List.length_append, List.length_nil]
      omega

/-- A token that is not quoted. -/
theorem LoopSplits.plain (ih : LoopSplits fuel) (clean : 0 ∉ c :: unread)
    (enough : (c :: unread).length < fuel + 1) (free : argc < cmdlineMaxParaCnt)
    (room : cmdlineMaxParaCnt ≤ argv.length) (notBlank : blank c = false)
    (notQuote : quote c = false) :
    Splits first argc argv ((tokens (c :: unread)).take (cmdlineMaxParaCnt - argc))
      ((skipWord (first ++ c :: unread).length (unread ++ 0 :: rest) (first.length + 1)).bind
        fun curTokenEnd =>
          (MakeArgs.addToken
            { cmdline := first ++ c :: (unread ++ 0 :: rest), argc := argc, argv := argv }
            first.length curTokenEnd).bind fun s =>
              makeArgsLoop (first ++ c :: unread).length fuel s (curTokenEnd + 1)) := by
  obtain ⟨nonzero, cleanUnread⟩ := avoids_cons clean
  have whole : first.length + 1 + unread.length = (first ++ c :: unread).length := by
    simp only [List.length_cons, List.length_append]
    omega
  rcases skipWord_cases cleanUnread with
    ⟨inside, skipped⟩ | ⟨word, d, unread, rfl, isBlank, inside, cleanWord, cleanRest, skipped⟩
  · have block : first ++ c :: (unread ++ 0 :: rest) = first ++ (c :: unread) ++ 0 :: rest := by simp
    have further : first.length + 1 + unread.length = first.length + (c :: unread).length := by
      rw [List.length_cons]
      omega
    rw [tokens_last notBlank notQuote inside, skipped rest _ _ whole, block, Option.bind_some, further]
    refine splits_last clean ?_ free room ?_
    · rw [List.length_cons] at enough
      omega
    · rw [List.length_append]
  · have block : first ++ c :: (word ++ d :: unread ++ 0 :: rest) =
        first ++ (c :: word) ++ d :: (unread ++ 0 :: rest) := by simp
    have further : first.length + 1 + word.length = first.length + (c :: word).length := by
      rw [List.length_cons]
      omega
    rw [tokens_word notBlank notQuote inside isBlank, skipped rest _ _ whole, block, Option.bind_some,
      further]
    refine ih.closed (List.not_mem_cons_of_ne_of_not_mem (Ne.symm nonzero) cleanWord) cleanRest ?_
      free room ?_
    · simp only [List.length_cons, List.length_append] at enough
      omega
    · simp only [List.length_cons, List.length_append]
      omega

end Steps

/-- **The loop computes the tokens**, whatever it starts from. -/
theorem makeArgsLoop_splits (fuel : Nat) : LoopSplits fuel := by
  induction fuel with
  | zero =>
      intro first unread rest argc argv clean enough
      exact absurd enough (Nat.not_lt_zero _)
  | succ fuel ih =>
      intro first unread rest argc argv clean enough bounded room
      cases unread with
      | nil =>
          rw [tokens_nil, List.take_nil, List.append_nil, makeArgsLoop,
            if_neg (Nat.lt_irrefl _)]
          exact Splits.done first (0 :: rest) argc argv
      | cons c unread =>
          have below : first.length < (first ++ c :: unread).length := by
            rw [List.length_append, List.length_cons]
            omega
          obtain ⟨nonzero, cleanUnread⟩ := avoids_cons clean
          by_cases free : argc < cmdlineMaxParaCnt
          · rw [List.cons_append, makeArgsLoop_char below nonzero free]
            simp only
            rw [isBlankChar_eq nonzero, isQuoteChar_eq nonzero]
            by_cases isBlank : blank c = true
            · have later := ih (first ++ [c]) unread rest argc argv cleanUnread
                (Nat.lt_of_succ_lt_succ enough) bounded room
              have place : (first ++ [c]).length = first.length + 1 := List.length_append
              rw [← List.append_cons, ← List.append_cons, place] at later
              rw [if_pos isBlank, tokens_blank isBlank]
              exact Splits.skip [c] later
            · rw [if_neg isBlank]
              rw [Bool.not_eq_true] at isBlank
              by_cases isQuote : quote c = true
              · rw [if_pos isQuote]
                exact ih.quoted clean enough free room isBlank isQuote
              · rw [if_neg isQuote]
                rw [Bool.not_eq_true] at isQuote
                exact ih.plain clean enough free room isBlank isQuote
          · have all : cmdlineMaxParaCnt - argc = 0 := by omega
            have here : (first ++ (c :: unread ++ 0 :: rest))[first.length]? = some c := by simp
            rw [makeArgsLoop, if_pos below, here, Option.bind_some, if_neg fun both => free both.2,
              all, List.take_zero]
            exact Splits.done first _ argc argv

/-- The strings that `_make_args` leaves in the block. -/
theorem makeArgs_strings {s : List UInt8} (clean : 0 ∉ s) (rest : List UInt8) {argv : List Nat}
    (room : cmdlineMaxParaCnt ≤ argv.length) :
    ∃ result, makeArgs (s ++ 0 :: rest) argv = some result ∧
      result.argc = ((tokens s).take cmdlineMaxParaCnt).length ∧
      Reads result.cmdline (result.argv.take result.argc) ((tokens s).take cmdlineMaxParaCnt) := by
  obtain ⟨after, offsets, argv', run, kept, reads⟩ :=
    makeArgsLoop_splits (s.length + 1) [] s rest 0 argv clean (Nat.lt_succ_self _) (Nat.zero_le _)
      room
  have count := congrArg List.length reads
  rw [List.length_map, List.length_map, Nat.sub_zero] at count
  refine ⟨{ cmdline := after, argc := offsets.length, argv := argv' }, ?_, ?_, ?_⟩
  · rw [makeArgs, strlen_terminated clean, Option.bind_some]
    simpa using run
  · exact count
  · rw [Nat.zero_add, List.take_zero, List.nil_append] at kept
    show (argv'.take offsets.length).map _ = _
    rw [kept]
    exact reads

/-- **`_make_args` computes the first tokens of the command line.** -/
theorem makeArgs_tokens {s : List UInt8} (clean : 0 ∉ s) (rest : List UInt8) {argv : List Nat}
    (room : cmdlineMaxParaCnt ≤ argv.length) :
    ∃ result, makeArgs (s ++ 0 :: rest) argv = some result ∧
      result.argc = ((tokens s).take cmdlineMaxParaCnt).length ∧
      (result.argv.take result.argc).map (fun offset => cString (result.cmdline.drop offset)) =
        ((tokens s).take cmdlineMaxParaCnt).map some :=
  makeArgs_strings clean rest room

/-- A word and a quoted token that nothing closes: `a 'b c`. -/
theorem makeArgs_tokens_open :
    ∃ result, makeArgs [97, 32, 39, 98, 32, 99, 0] (List.replicate 10 0) = some result ∧
      (result.argv.take result.argc).map (fun offset => cString (result.cmdline.drop offset)) =
        [some [97], some [98, 32, 99]] := by
  have clean : (0 : UInt8) ∉ [97, 32, 39, 98, 32, 99] := by decide
  obtain ⟨result, run, _, strings⟩ := makeArgs_tokens clean [] (List.length_replicate ..).ge
  have first : tokens [97, 32, 39, 98, 32, 99] = [97] :: tokens [39, 98, 32, 99] :=
    tokens_word (by decide) (by decide) (fun _ member => absurd member List.not_mem_nil) (by decide)
  have second : tokens [39, 98, 32, 99] = [[98, 32, 99]] :=
    tokens_open (by decide) (by decide) (by decide)
  rw [first, second] at strings
  exact ⟨result, run, strings⟩

end YosStm32.Cmdline
