/-
**Writing arguments down.**

`Rendering` says how a list of arguments may be written as a command line: each one bare or between
quote characters, with blanks around them. The tokens of any such line are the arguments again
(`tokens_rendering`), so `_make_args` gives them back; and every argument without one of the two quote
characters can be written.
-/

import Mathlib.Data.List.Basic
import YosStm32.Cmdline.Tokens

namespace YosStm32.Cmdline

open Lib

/-- A run of blanks. -/
def Blanks (s : List UInt8) : Prop := ∀ byte ∈ s, blank byte = true

/-- What may be written without quotes: not empty, no blank in it, and no quote character first. -/
structure Bare (arg : List UInt8) : Prop where
  start : ∃ c word, arg = c :: word ∧ quote c = false
  noBlank : ∀ byte ∈ arg, blank byte = false

/-- The arguments, from the first character of the first one on. -/
inductive Written : List (List UInt8) → List UInt8 → Prop where
  | nil : Written [] []
  | bare {arg gap text : List UInt8} {args : List (List UInt8)} (bare : Bare arg) (blanks : Blanks gap)
      (apart : gap = [] → args = []) (rest : Written args text) :
      Written (arg :: args) (arg ++ (gap ++ text))
  | quoted {q : UInt8} {arg gap text : List UInt8} {args : List (List UInt8)} (isQuote : quote q = true)
      (absent : q ∉ arg) (blanks : Blanks gap) (rest : Written args text) :
      Written (arg :: args) (q :: (arg ++ q :: (gap ++ text)))

/-- A command line for the arguments. -/
def Rendering (args : List (List UInt8)) (line : List UInt8) : Prop :=
  ∃ lead text, Blanks lead ∧ Written args text ∧ line = lead ++ text

section Tokens

variable {args : List (List UInt8)} {gap text line : List UInt8}

theorem tokens_blanks (blanks : Blanks gap) (text : List UInt8) : tokens (gap ++ text) = tokens text := by
  induction gap with
  | nil => rfl
  | cons c gap ih =>
      rw [List.cons_append, tokens_blank (blanks c (List.mem_cons_self ..))]
      exact ih fun byte member => blanks byte (List.mem_cons_of_mem _ member)

/-- A quote character is not a blank. -/
theorem blank_of_quote {q : UInt8} (isQuote : quote q = true) : blank q = false := by
  have member : q ∈ cmdlineQuoteChars := of_decide_eq_true isQuote
  rcases List.mem_pair.mp member with rfl | rfl <;> decide

theorem tokens_written (written : Written args text) : tokens text = args := by
  induction written with
  | nil => exact tokens_nil
  | @bare arg gap text args bare blanks apart rest ih =>
      obtain ⟨c, word, rfl, notQuote⟩ := bare.start
      have notBlank := bare.noBlank c (List.mem_cons_self ..)
      have inside : ∀ byte ∈ word, blank byte = false := fun byte member =>
        bare.noBlank byte (List.mem_cons_of_mem _ member)
      cases gap with
      | nil =>
          obtain rfl := apart rfl
          cases rest
          rw [List.append_nil, List.append_nil, tokens_last notBlank notQuote inside]
      | cons d gap =>
          have more : Blanks gap := fun byte member => blanks byte (List.mem_cons_of_mem _ member)
          rw [List.cons_append, List.cons_append,
            tokens_word notBlank notQuote inside (blanks d (List.mem_cons_self ..)),
            tokens_blanks more, ih]
  | quoted isQuote absent blanks rest ih =>
      rw [tokens_closed (blank_of_quote isQuote) isQuote absent, tokens_blanks blanks, ih]

/-- **The tokens of a rendering are the arguments.** -/
theorem tokens_rendering (rendering : Rendering args line) : tokens line = args := by
  obtain ⟨lead, text, blanks, written, rfl⟩ := rendering
  rw [tokens_blanks blanks, tokens_written written]

/-- No NUL gets into the line. -/
theorem written_clean (written : Written args text) (clean : ∀ arg ∈ args, 0 ∉ arg) : 0 ∉ text := by
  have blankClean {gap : List UInt8} (blanks : Blanks gap) : 0 ∉ gap := fun member =>
    absurd (blanks 0 member) (by decide)
  induction written with
  | nil => exact List.not_mem_nil
  | bare bare blanks apart rest ih =>
      have later := ih fun arg member => clean arg (List.mem_cons_of_mem _ member)
      have first := clean _ (List.mem_cons_self ..)
      simp only [List.mem_append, not_or]
      exact ⟨first, blankClean blanks, later⟩
  | @quoted q _ _ _ _ isQuote absent blanks rest ih =>
      have later := ih fun arg member => clean arg (List.mem_cons_of_mem _ member)
      have first := clean _ (List.mem_cons_self ..)
      have nonzero : 0 ≠ q := by
        rintro rfl
        exact absurd isQuote (by decide)
      simp only [List.mem_cons, List.mem_append, not_or]
      exact ⟨nonzero, first, nonzero, blankClean blanks, later⟩

theorem rendering_clean (rendering : Rendering args line) (clean : ∀ arg ∈ args, 0 ∉ arg) : 0 ∉ line := by
  obtain ⟨lead, text, blanks, written, rfl⟩ := rendering
  rw [List.mem_append, not_or]
  exact ⟨fun member => absurd (blanks 0 member) (by decide), written_clean written clean⟩

/-- Every argument can be written between quotes, if one of the quote characters is not in it. -/
theorem exists_rendering (args : List (List UInt8))
    (writable : ∀ arg ∈ args, ∃ q ∈ cmdlineQuoteChars, q ∉ arg) : ∃ line, Rendering args line := by
  induction args with
  | nil => exact ⟨[], [], [], fun _ member => absurd member List.not_mem_nil, .nil, rfl⟩
  | cons arg args ih =>
      obtain ⟨line, lead, text, blanks, written, rfl⟩ :=
        ih fun arg member => writable arg (List.mem_cons_of_mem _ member)
      obtain ⟨q, isQuote, absent⟩ := writable arg (List.mem_cons_self ..)
      exact ⟨_, [], _, fun _ member => absurd member List.not_mem_nil,
        .quoted (decide_eq_true isQuote) absent blanks written, rfl⟩

end Tokens

/-- **Written and read back.** Every list of at most `CMDLINE_MAX_PARA_CNT` arguments without a NUL, none
of which contains both quote characters, can be written, and `_make_args` gives exactly these arguments
back from each way to write them. -/
theorem makeArgs_rendering {args : List (List UInt8)} (few : args.length ≤ cmdlineMaxParaCnt)
    (clean : ∀ arg ∈ args, 0 ∉ arg) (writable : ∀ arg ∈ args, ∃ q ∈ cmdlineQuoteChars, q ∉ arg) :
    (∃ line, Rendering args line) ∧
      ∀ line, Rendering args line → ∀ (rest : List UInt8) (argv : List Nat),
        cmdlineMaxParaCnt ≤ argv.length →
          ∃ result, makeArgs (line ++ 0 :: rest) argv = some result ∧ result.argc = args.length ∧
            (result.argv.take result.argc).map (fun offset => cString (result.cmdline.drop offset)) =
              args.map some := by
  refine ⟨exists_rendering args writable, fun line rendering rest argv room => ?_⟩
  have all : (tokens line).take cmdlineMaxParaCnt = args := by
    rw [tokens_rendering rendering]
    exact List.take_of_length_le few
  obtain ⟨result, run, count, strings⟩ := makeArgs_strings (rendering_clean rendering clean) rest room
  rw [all] at count strings
  exact ⟨result, run, count, strings⟩

/-- An empty argument, one with a blank and a bare one: `''"a b"c`. -/
theorem makeArgs_rendering_quotes :
    ∃ result, makeArgs [39, 39, 34, 97, 32, 98, 34, 99, 0] (List.replicate 10 0) = some result ∧
      result.argc = 3 ∧
      (result.argv.take result.argc).map (fun offset => cString (result.cmdline.drop offset)) =
        [some [], some [97, 32, 98], some [99]] := by
  have noGap : Blanks [] := fun _ member => absurd member List.not_mem_nil
  have last : Written [[99]] [99] :=
    .bare ⟨⟨99, [], rfl, by decide⟩, no_blank rfl⟩ noGap (fun _ => rfl) .nil
  have middle : Written [[97, 32, 98], [99]] [34, 97, 32, 98, 34, 99] :=
    .quoted (by decide) (by decide) noGap last
  have line : Rendering [[], [97, 32, 98], [99]] [39, 39, 34, 97, 32, 98, 34, 99] :=
    ⟨[], _, noGap, .quoted (by decide) (by decide) noGap middle, rfl⟩
  have few : [[], [97, 32, 98], ([99] : List UInt8)].length ≤ cmdlineMaxParaCnt := by decide
  obtain ⟨_, readBack⟩ := makeArgs_rendering few (by decide) (by decide)
  exact readBack _ line [] _ (List.length_replicate ..).ge

end YosStm32.Cmdline
