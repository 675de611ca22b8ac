/-
**The argument splitter stays in its line, and ends.**

`makeArgsIteration` is one round of the loop of `_make_args` (`makeArgsLoop_succ`). At the head of the
loop what lies from `pos` on is an unread string with its terminator, or `pos` has stepped over the
terminator of the line itself (`Ahead`). A round that goes on therefore ends no further than at that
terminator, and moves `pos` (`makeArgsIteration_cases`); behind `pos` lie the tokens so far, each up to
its own terminator and one after the other (`Scanning`).
-/

import YosStm32.Cmdline.Tokens
import YosStm32.Lib.Run

namespace YosStm32.Cmdline

open Lib

/-! ### A round -/

/-- A round of the loop: the inner `none` stands for its end. -/
def makeArgsIteration (cmdlen : Nat) (s : MakeArgs) (pos : Nat) : Option (Option (MakeArgs × Nat)) :=
  if pos < cmdlen then
    s.cmdline[pos]?.bind fun c =>
      if c ≠ 0 ∧ s.argc < cmdlineMaxParaCnt then
        if isBlankChar c then some (some (s, pos + 1))
        else if isQuoteChar c then
          (searchCharInString c (some (s.cmdline.drop (pos + 1)))).bind fun found =>
            (if found ≥ 0 then some (pos + 1 + found.toNat)
              else skipToNul (s.cmdline.drop (pos + 1)) (pos + 1)).bind fun curTokenEnd =>
                (s.addToken (pos + 1) curTokenEnd).map fun s => some (s, curTokenEnd + 1)
        else
          (skipWord cmdlen (s.cmdline.drop (pos + 1)) (pos + 1)).bind fun curTokenEnd =>
            (s.addToken pos curTokenEnd).map fun s => some (s, curTokenEnd + 1)
      else some none
  else some none

/-- The rounds as an event system. -/
def makeArgsStep (cmdlen : Nat) (state : MakeArgs × Nat) (_ : Unit) : Option (MakeArgs × Nat) :=
  (makeArgsIteration cmdlen state.1 state.2).join

/-- **The loop is a round, and the rest of the loop.** -/
theorem makeArgsLoop_succ (cmdlen fuel : Nat) (s : MakeArgs) (pos : Nat) :
    makeArgsLoop cmdlen (fuel + 1) s pos =
      (makeArgsIteration cmdlen s pos).bind fun next =>
        match next with
        | none => some s
        | some (s, pos) => makeArgsLoop cmdlen fuel s pos := by
  rw [makeArgsLoop, makeArgsIteration]
  split
  · cases s.cmdline[pos]? with
    | none => rfl
    | some c =>
        simp only [Option.bind_some]
        split_ifs
        · rfl
        · simp only [Option.bind_assoc, Option.bind_map]
          rfl
        · simp only [Option.bind_assoc, Option.bind_map]
          rfl
        · rfl
  · rfl

section Iteration

variable {L pos cmdlen : Nat} {s : MakeArgs} {c d : UInt8} {word more rest : List UInt8}

/-- What lies from `pos` on: an unread string with the terminator of the line, or what lies behind it. -/
def Ahead (L : Nat) (rest : List UInt8) (pos : Nat) (ahead : List UInt8) : Prop :=
  (∃ unread, ahead = unread ++ 0 :: rest ∧ 0 ∉ unread ∧ pos + unread.length = L) ∨
    pos = L + 1 ∧ ahead = rest

theorem Ahead.pos_le {ahead : List UInt8} (inLine : Ahead L rest pos ahead) : pos ≤ L + 1 := by
  rcases inLine with ⟨unread, -, -, length⟩ | ⟨rfl, -⟩
  · omega
  · exact Nat.le_refl _

/-- A token from `start` on that the byte at `stop` ends, in the line. -/
def TokenAt (L : Nat) (rest block : List UInt8) (start stop : Nat) : Prop :=
  ∃ word d more, block.drop start = word ++ d :: more ∧ 0 ∉ word ∧ start + word.length = stop ∧
    stop ≤ L ∧ Ahead L rest (stop + 1) more

/-- A byte of the block, and what lies behind it. -/
theorem drop_cons {block : List UInt8} (here : block.drop pos = c :: more) :
    block[pos]? = some c ∧ block.drop (pos + 1) = more := by
  constructor
  · rw [← Nat.add_zero pos, ← List.getElem?_drop, here]
    rfl
  · rw [← List.tail_drop, here]
    rfl

/-- The end of a quoted token. -/
theorem quoted_tokenAt (nonzero : c ≠ 0) (clean : 0 ∉ more) (length : pos + 1 + more.length = L)
    (here : s.cmdline.drop (pos + 1) = more ++ 0 :: rest) :
    ∃ stop, TokenAt L rest s.cmdline (pos + 1) stop ∧
      ((searchLoop c (more ++ 0 :: rest) 0).bind fun found =>
        if found ≥ 0 then some (pos + 1 + found.toNat)
        else skipToNul (more ++ 0 :: rest) (pos + 1)) = some stop := by
  rcases quotedEnd_cases nonzero clean with
    ⟨word, unread, rfl, _, cleanWord, cleanUnread, found⟩ | ⟨_, found⟩
  · rw [List.length_append, List.length_cons] at length
    refine ⟨pos + 1 + word.length, ⟨word, c, unread ++ 0 :: rest, ?_, cleanWord, rfl, by omega,
      Or.inl ⟨unread, rfl, cleanUnread, by omega⟩⟩, found rest (pos + 1)⟩
    rw [here, List.append_assoc, List.cons_append]
  · rw [found, length]
    exact ⟨L, ⟨more, 0, rest, here, clean, length, Nat.le_refl _, Or.inr ⟨rfl, rfl⟩⟩, rfl⟩

/-- The end of a token that is not quoted. -/
theorem plain_tokenAt (nonzero : c ≠ 0) (clean : 0 ∉ more) (length : pos + 1 + more.length = L)
    (here : s.cmdline.drop pos = c :: (more ++ 0 :: rest)) :
    ∃ stop, TokenAt L rest s.cmdline pos stop ∧
      skipWord L (more ++ 0 :: rest) (pos + 1) = some stop := by
  rcases skipWord_cases clean with
    ⟨_, skipped⟩ | ⟨word, d, unread, rfl, _, _, cleanWord, cleanUnread, skipped⟩
  · have cleanToken : 0 ∉ c :: more := List.not_mem_cons_of_ne_of_not_mem (Ne.symm nonzero) clean
    rw [skipped rest _ _ length, length]
    refine ⟨L, ⟨c :: more, 0, rest, here, cleanToken, ?_, Nat.le_refl _, Or.inr ⟨rfl, rfl⟩⟩, rfl⟩
    rw [List.length_cons]
    omega
  · have cleanToken : 0 ∉ c :: word := List.not_mem_cons_of_ne_of_not_mem (Ne.symm nonzero) cleanWord
    rw [skipped rest _ _ length]
    rw [List.length_append, List.length_cons] at length
    refine ⟨pos + 1 + word.length, ⟨c :: word, d, unread ++ 0 :: rest, ?_, cleanToken, ?_, by omega,
      Or.inl ⟨unread, rfl, cleanUnread, by omega⟩⟩, rfl⟩
    · rw [here, List.append_assoc, List.cons_append, List.cons_append]
    · rw [List.length_cons]
      omega

/-- **What a round can do**: end, pass over a blank, or add a token that ends in the line. -/
theorem makeArgsIteration_cases (ahead : Ahead L rest pos (s.cmdline.drop pos)) :
    makeArgsIteration L s pos = some none ∨
      (makeArgsIteration L s pos = some (some (s, pos + 1)) ∧ pos < L ∧
        Ahead L rest (pos + 1) (s.cmdline.drop (pos + 1))) ∨
      ∃ start stop, makeArgsIteration L s pos =
          (s.addToken start stop).map (fun s => some (s, stop + 1)) ∧ pos < L ∧
        pos ≤ start ∧ TokenAt L rest s.cmdline start stop ∧ s.argc < cmdlineMaxParaCnt := by
  have ended (past : ¬ pos < L) : makeArgsIteration L s pos = some none := by
    rw [makeArgsIteration, if_neg past]
  rcases ahead with ⟨unread, here, clean, length⟩ | ⟨rfl, -⟩
  · cases unread with
    | nil => exact Or.inl (ended (by rw [← length]; exact Nat.lt_irrefl _))
    | cons c more =>
        obtain ⟨nonzero, cleanMore⟩ := avoids_cons clean
        rw [List.cons_append] at here
        rw [List.length_cons] at length
        obtain ⟨byte, after⟩ := drop_cons here
        have below : pos < L := by omega
        have behind : pos + 1 + more.length = L := by omega
        rw [makeArgsIteration, if_pos below, byte, Option.bind_some]
        by_cases free : s.argc < cmdlineMaxParaCnt
        · rw [if_pos ⟨nonzero, free⟩]
          refine Or.inr ?_
          split_ifs
          · exact Or.inl ⟨rfl, below, Or.inl ⟨more, after, cleanMore, behind⟩⟩
          · obtain ⟨stop, token, found⟩ := quoted_tokenAt nonzero cleanMore behind after
            refine Or.inr ⟨pos + 1, stop, ?_, below, Nat.le_succ pos, token, free⟩
            simp only [searchCharInString, after]
            rw [← Option.bind_assoc, found, Option.bind_some]
          · obtain ⟨stop, token, found⟩ := plain_tokenAt nonzero cleanMore behind here
            refine Or.inr ⟨pos, stop, ?_, below, Nat.le_refl pos, token, free⟩
            rw [after]
            exact congrArg (Option.bind · _) found
        · exact Or.inl (if_neg fun both => free both.2)
  · exact Or.inl (ended (by omega))

end Iteration

/-! ### All rounds -/

/-- The state at the head of the loop, with the tokens so far: where each begins, and where its
terminator lies. -/
structure Scanning (L : Nat) (rest : List UInt8) (s : MakeArgs) (pos : Nat)
    (segments : List (Nat × Nat)) : Prop where
  ahead : Ahead L rest pos (s.cmdline.drop pos)
  length : s.cmdline.length = L + 1 + rest.length
  room : cmdlineMaxParaCnt ≤ s.argv.length
  few : s.argc ≤ cmdlineMaxParaCnt
  starts : s.argv.take s.argc = segments.map Prod.fst
  terminated : ∀ segment ∈ segments, segment.2 < pos ∧
    ∃ word, cString (s.cmdline.drop segment.1) = some word ∧ segment.1 + word.length = segment.2
  apart : segments.Pairwise fun one two => one.2 < two.1

section Scanning

variable {L pos : Nat} {rest : List UInt8} {s : MakeArgs} {segments : List (Nat × Nat)}

/-- A terminator written behind a string. -/
theorem cString_set {block word : List UInt8} {k : Nat} (reads : cString block = some word)
    (behind : word.length < k) : cString (block.set k 0) = some word := by
  obtain ⟨more, rfl⟩ := cString_split reads
  obtain ⟨k, rfl⟩ := Nat.exists_eq_add_of_lt behind
  rw [List.set_append_right _ _ (by omega), Nat.add_assoc, Nat.add_sub_cancel_left, List.set_cons_succ]
  exact cString_terminated (cString_clean reads)

/-- **A token is added** behind the ones so far. -/
theorem Scanning.token (scanning : Scanning L rest s pos segments) {start stop : Nat}
    (onward : pos ≤ start) (token : TokenAt L rest s.cmdline start stop) (free : s.argc < cmdlineMaxParaCnt) :
    ∃ next, s.addToken start stop = some next ∧
      Scanning L rest next (stop + 1) (segments ++ [(start, stop)]) := by
  obtain ⟨word, d, more, here, clean, ends, inside, ahead⟩ := token
  obtain ⟨_, length, room, _, starts, terminated, apart⟩ := scanning
  have cell : s.argc < s.argv.length := Nat.lt_of_lt_of_le free room
  have added : s.addToken start stop = some
      { cmdline := s.cmdline.set stop 0, argc := s.argc + 1, argv := s.argv.set s.argc start } :=
    if_pos ⟨by omega, cell⟩
  refine ⟨_, added, ?_, ?_, ?_, free, ?_, ?_, ?_⟩
  · have after : s.cmdline.drop (stop + 1) = more := by
      rw [← ends, Nat.add_assoc, ← List.drop_drop, here, List.append_cons]
      exact List.drop_left' List.length_append
    show Ahead L rest (stop + 1) ((s.cmdline.set stop 0).drop (stop + 1))
    rw [List.drop_set_of_lt (Nat.lt_succ_self stop), after]
    exact ahead
  · exact List.length_set.trans length
  · show cmdlineMaxParaCnt ≤ (s.argv.set s.argc start).length
    rw [List.length_set]
    exact room
  · show (s.argv.set s.argc start).take (s.argc + 1) = _
    rw [List.take_add_one, List.take_set_of_le (Nat.le_refl _), List.getElem?_set_self cell, starts,
      List.map_append]
    rfl
  · intro segment member
    rcases List.mem_append.mp member with old | new
    · obtain ⟨before, string, reads, place⟩ := terminated segment old
      refine ⟨by omega, string, ?_, place⟩
      show cString ((s.cmdline.set stop 0).drop segment.1) = some string
      rw [List.drop_set, if_neg (by omega)]
      exact cString_set reads (by omega)
    · obtain rfl := List.mem_singleton.mp new
      refine ⟨Nat.lt_succ_self stop, word, ?_, ends⟩
      show cString ((s.cmdline.set stop 0).drop start) = some word
      rw [List.drop_set, if_neg (by omega), here, ← ends, Nat.add_sub_cancel_left, set_append_cons]
      exact cString_terminated clean
  · refine List.pairwise_append.mpr ⟨apart, List.pairwise_singleton _ _, fun one old two new => ?_⟩
    obtain rfl := List.mem_singleton.mp new
    exact Nat.lt_of_lt_of_le (terminated one old).1 onward

/-- A blank that is passed over. -/
theorem Scanning.blank (scanning : Scanning L rest s pos segments)
    (ahead : Ahead L rest (pos + 1) (s.cmdline.drop (pos + 1))) :
    Scanning L rest s (pos + 1) segments :=
  { scanning with
    ahead := ahead
    terminated := fun segment member =>
      ⟨Nat.lt_succ_of_lt (scanning.terminated segment member).1, (scanning.terminated segment member).2⟩ }

/-- **A round ends the loop, or moves the position** and keeps the invariant. -/
theorem Scanning.round (scanning : Scanning L rest s pos segments) :
    makeArgsIteration L s pos = some none ∨
      ∃ next pos' segments', makeArgsIteration L s pos = some (some (next, pos')) ∧
        pos < L ∧ pos < pos' ∧ Scanning L rest next pos' segments' := by
  rcases makeArgsIteration_cases scanning.ahead with
    ended | ⟨one, below, ahead⟩ | ⟨start, stop, one, below, onward, token, free⟩
  · exact Or.inl ended
  · exact Or.inr ⟨s, pos + 1, segments, one, below, Nat.lt_succ_self pos, scanning.blank ahead⟩
  · obtain ⟨next, added, scanning'⟩ := scanning.token onward token free
    rw [added] at one
    have forward : start ≤ stop := by
      obtain ⟨word, _, _, _, _, ends, _⟩ := token
      omega
    exact Or.inr ⟨next, stop + 1, _, one, below, by omega, scanning'⟩

theorem Scanning.start {line : List UInt8} (clean : 0 ∉ line) {argv : List Nat}
    (room : cmdlineMaxParaCnt ≤ argv.length) :
    Scanning line.length rest { cmdline := line ++ 0 :: rest, argc := 0, argv := argv } 0 [] where
  ahead := Or.inl ⟨line, rfl, clean, Nat.zero_add _⟩
  length := by
    show (line ++ 0 :: rest).length = _
    rw [List.length_append, List.length_cons]
    omega
  room := room
  few := Nat.zero_le _
  starts := rfl
  terminated := fun _ member => absurd member List.not_mem_nil
  apart := List.Pairwise.nil

/-- **The invariant holds at the head of every round.** -/
theorem Scanning.rounds (scanning : Scanning L rest s pos segments) {rounds : List Unit} {next : MakeArgs}
    {pos' : Nat} (run : runEvents (makeArgsStep L) (s, pos) rounds = some (next, pos')) :
    ∃ segments', Scanning L rest next pos' segments' := by
  refine runEvents_invariant (fun state => ∃ segments, Scanning L rest state.1 state.2 segments) ?_
    ⟨segments, scanning⟩ run
  rintro ⟨s, pos⟩ _ after ⟨segments, scanning⟩ one
  rcases scanning.round with ended | ⟨next, pos', segments', round, -, -, scanning'⟩
  · rw [makeArgsStep, ended] at one
    cases one
  · rw [makeArgsStep, round] at one
    cases one
    exact ⟨segments', scanning'⟩

/-- **The loop ends**, with the invariant. -/
theorem Scanning.loop {fuel : Nat} (scanning : Scanning L rest s pos segments) (enough : L - pos < fuel) :
    ∃ result last segments', makeArgsLoop L fuel s pos = some result ∧
      Scanning L rest result last segments' := by
  induction fuel generalizing s pos segments with
  | zero => exact absurd enough (Nat.not_lt_zero _)
  | succ fuel ih =>
      rw [makeArgsLoop_succ]
      rcases scanning.round with ended | ⟨next, pos', segments', round, below, forward, scanning'⟩
      · rw [ended]
        exact ⟨s, pos, segments, rfl, scanning⟩
      · rw [round, Option.bind_some]
        exact ih scanning' (by omega)

end Scanning

/-! ### What lies behind the line -/

/-- The same with more bytes behind the block. -/
def MakeArgs.extend (s : MakeArgs) (rest : List UInt8) : MakeArgs :=
  { s with cmdline := s.cmdline ++ rest }

section Extend

variable {c : UInt8} {pos cmdlen : Nat} {block rest : List UInt8} {s : MakeArgs}

theorem searchLoop_append {i : Nat} {found : Int} (run : searchLoop c block i = some found) :
    searchLoop c (block ++ rest) i = some found := by
  induction block generalizing i with
  | nil => cases run
  | cons byte block ih =>
      rw [searchLoop] at run
      rw [List.cons_append, searchLoop]
      split_ifs at run ⊢
      · exact run
      · exact ih run
      · exact run

theorem skipToNul_append {last : Nat} (run : skipToNul block pos = some last) :
    skipToNul (block ++ rest) pos = some last := by
  induction block generalizing pos with
  | nil => cases run
  | cons byte block ih =>
      rw [skipToNul] at run
      rw [List.cons_append, skipToNul]
      split_ifs at run ⊢
      · exact ih run
      · exact run

theorem skipWord_append {last : Nat} (run : skipWord cmdlen block pos = some last) :
    skipWord cmdlen (block ++ rest) pos = some last := by
  induction block generalizing pos with
  | nil =>
      rw [skipWord] at run
      split_ifs at run with below
      cases rest with
      | nil => rwa [List.append_nil, skipWord, if_neg below]
      | cons byte rest => rwa [List.nil_append, skipWord, if_neg fun both => below both.1]
  | cons byte block ih =>
      rw [skipWord] at run
      rw [List.cons_append, skipWord]
      split_ifs at run ⊢
      · exact ih run
      · exact run

theorem MakeArgs.addToken_extend {start stop : Nat} {next : MakeArgs}
    (added : s.addToken start stop = some next) :
    (s.extend rest).addToken start stop = some (next.extend rest) := by
  rw [MakeArgs.addToken] at added
  split_ifs at added with inside
  obtain rfl := Option.some.inj added
  have still : stop < (s.cmdline ++ rest).length := by
    rw [List.length_append]
    omega
  rw [MakeArgs.addToken, if_pos ⟨still, inside.2⟩]
  simp only [MakeArgs.extend, List.set_append_left _ _ inside.1]

/-- **A round does not look behind the block.** -/
theorem makeArgsIteration_extend {next : Option (MakeArgs × Nat)}
    (round : makeArgsIteration cmdlen s pos = some next) :
    makeArgsIteration cmdlen (s.extend rest) pos =
      some (next.map fun after => (after.1.extend rest, after.2)) := by
  rw [makeArgsIteration] at round ⊢
  split at round
  case isFalse past =>
    obtain rfl := Option.some.inj round
    rw [if_neg past]
    rfl
  case isTrue below =>
    obtain ⟨c, byte, round⟩ := Option.bind_eq_some_iff.mp round
    have inside : pos < s.cmdline.length := (List.getElem?_eq_some_iff.mp byte).1
    have here : (s.extend rest).cmdline[pos]? = some c := (List.getElem?_append_left inside).trans byte
    have after : (s.extend rest).cmdline.drop (pos + 1) = s.cmdline.drop (pos + 1) ++ rest :=
      List.drop_append_of_le_length inside
    have sameArgc : (s.extend rest).argc = s.argc := rfl
    rw [if_pos below, here, Option.bind_some, sameArgc]
    -- The token that the round adds.
    have adds : ∀ {start : Nat} {ends ends' : Option Nat},
        (∀ stop, ends = some stop → ends' = some stop) →
        (ends.bind fun stop => (s.addToken start stop).map fun s => some (s, stop + 1)) = some next →
        (ends'.bind fun stop => ((s.extend rest).addToken start stop).map fun s => some (s, stop + 1)) =
          some (next.map fun after => (after.1.extend rest, after.2)) := by
      intro start ends ends' same run
      obtain ⟨stop, found, run⟩ := Option.bind_eq_some_iff.mp run
      obtain ⟨token, added, rfl⟩ := Option.map_eq_some_iff.mp run
      rw [same stop found, Option.bind_some, MakeArgs.addToken_extend added]
      rfl
    split_ifs at round ⊢
    · obtain rfl := Option.some.inj round
      rfl
    · simp only [searchCharInString, after] at round ⊢
      rw [← Option.bind_assoc] at round ⊢
      refine adds (fun stop found => ?_) round
      obtain ⟨i, search, ends⟩ := Option.bind_eq_some_iff.mp found
      rw [searchLoop_append search, Option.bind_some]
      split_ifs at ends ⊢
      · exact ends
      · exact skipToNul_append ends
    · rw [after]
      exact adds (fun stop found => skipWord_append found) round
    · obtain rfl := Option.some.inj round
      rfl

/-- **The loop does not look behind the block.** -/
theorem makeArgsLoop_extend {fuel : Nat} {result : MakeArgs}
    (run : makeArgsLoop cmdlen fuel s pos = some result) :
    makeArgsLoop cmdlen fuel (s.extend rest) pos = some (result.extend rest) := by
  induction fuel generalizing s pos with
  | zero => cases run
  | succ fuel ih =>
      rw [makeArgsLoop_succ] at run ⊢
      obtain ⟨next, round, run⟩ := Option.bind_eq_some_iff.mp run
      rw [makeArgsIteration_extend round, Option.bind_some]
      cases next with
      | none =>
          obtain rfl := Option.some.inj run
          rfl
      | some after => exact ih run

end Extend

/-- **`_make_args` stays in its line, and ends.** The line is a block of `s.length + 1` bytes, the last
one its terminator; an access outside of it would give `none`. -/
theorem makeArgs_bounds {s : List UInt8} (clean : 0 ∉ s) {argv : List Nat}
    (room : cmdlineMaxParaCnt ≤ argv.length) :
    (∀ (rounds : List Unit) (state : MakeArgs) (pos : Nat),
        runEvents (makeArgsStep s.length) ({ cmdline := s ++ [0], argc := 0, argv := argv }, 0) rounds =
          some (state, pos) →
        pos ≤ s.length + 1 ∧ state.argc ≤ cmdlineMaxParaCnt ∧
          (makeArgsIteration s.length state pos = some none ∨ ∃ next pos',
            makeArgsIteration s.length state pos = some (some (next, pos')) ∧ pos < pos')) ∧
      ∃ result, makeArgs (s ++ [0]) argv = some result ∧ result.argc ≤ cmdlineMaxParaCnt ∧
        (∃ segments : List (Nat × Nat), result.argv.take result.argc = segments.map Prod.fst ∧
          (∀ segment ∈ segments, segment.1 ≤ segment.2 ∧ segment.2 ≤ s.length ∧
            strlen (result.cmdline.drop segment.1) = some (segment.2 - segment.1)) ∧
          segments.Pairwise fun one two => one.2 < two.1) ∧
        ∀ rest, makeArgs (s ++ 0 :: rest) argv = some (result.extend rest) := by
  have start : Scanning s.length [] _ 0 [] := Scanning.start clean room
  refine ⟨fun rounds state pos run => ?_, ?_⟩
  · obtain ⟨segments, scanning⟩ := start.rounds run
    refine ⟨scanning.ahead.pos_le, scanning.few, ?_⟩
    rcases scanning.round with ended | ⟨next, pos', _, round, _, forward, _⟩
    · exact Or.inl ended
    · exact Or.inr ⟨next, pos', round, forward⟩
  · obtain ⟨result, last, segments, run, scanning⟩ := start.loop (by omega : s.length - 0 < s.length + 1)
    refine ⟨result, ?_, scanning.few, ⟨segments, scanning.starts, ?_, scanning.apart⟩, fun rest => ?_⟩
    · rw [makeArgs, strlen_terminated clean, Option.bind_some, run]
    · intro segment member
      obtain ⟨before, word, reads, place⟩ := scanning.terminated segment member
      have past := scanning.ahead.pos_le
      refine ⟨by omega, by omega, ?_⟩
      rw [strlen, reads, Option.map_some]
      congr 1
      omega
    · have whole : s ++ 0 :: rest = s ++ [0] ++ rest := List.append_cons ..
      rw [makeArgs, strlen_terminated clean, Option.bind_some, whole]
      exact makeArgsLoop_extend run

/-- A word and a quoted token that nothing closes, which ends at the terminator of the line. -/
theorem makeArgs_bounds_open :
    ∃ result, makeArgs [97, 32, 39, 98, 0] (List.replicate 10 0) = some result ∧ result.argc ≤ 10 ∧
      ∃ segments : List (Nat × Nat), result.argv.take result.argc = segments.map Prod.fst ∧
        segments.Pairwise fun one two => one.2 < two.1 := by
  have clean : (0 : UInt8) ∉ [97, 32, 39, 98] := by decide
  obtain ⟨-, result, run, few, ⟨segments, starts, -, apart⟩, -⟩ :=
    makeArgs_bounds clean (List.length_replicate ..).ge
  exact ⟨result, run, few, segments, starts, apart⟩

end YosStm32.Cmdline
