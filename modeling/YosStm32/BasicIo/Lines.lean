/-
**Reading lines.**

`ReadsLine` says what a call of `basic_io_readline` consumes and what text it leaves; the answers without
a byte in between do not matter. A call ends at the first end mark, or when the buffer is full: then
the last byte that it has taken from the port is overwritten by the terminator, and nobody gets it.
So consecutive calls deliver all of the input exactly as long as every line is shorter than the
buffer (`readlines_lossless_iff`).
-/

import YosStm32.BasicIo.BasicIo

namespace YosStm32.BasicIo

open Lib

/-- The call takes the bytes `consumed` from the port, returns their number and leaves `text` and a
terminator in the buffer, whose other bytes stay. -/
def ReadsLine (bufLen : Nat) (buf : List UInt8) (answers : Answers) (consumed text : List UInt8)
    (left : Answers) : Prop :=
  (∃ used, answers = used ++ left ∧ used.reduceOption = consumed) ∧
    basicIoReadline (some buf) bufLen answers =
      some (.returned consumed.length (some (text ++ 0 :: buf.drop (text.length + 1))) left)

section Full

variable {bufLen : Nat} {text first buf more : List UInt8} {answers : Answers}

/-- The terminator written over the last byte. -/
theorem readlineEnd_full (positive : 0 < bufLen) (full : first.length = bufLen) (rest : List UInt8)
    (left : Answers) :
    readlineEnd bufLen bufLen (first ++ rest) left =
      some (.returned bufLen (some (first.dropLast ++ 0 :: rest)) left) := by
  rcases List.eq_nil_or_concat first with rfl | ⟨init, last, rfl⟩
  · rw [List.length_nil] at full
    omega
  · rw [List.concat_eq_append, List.length_append, List.length_singleton] at full
    rw [readlineEnd, if_pos rfl, if_neg (by omega), List.concat_eq_append, List.append_assoc,
      List.singleton_append, ← full, Nat.add_sub_cancel, writeByte_next, List.dropLast_concat]
    rfl

theorem readlineLoop_done (full : first.length = bufLen) (answers : Answers) (buf : List UInt8) :
    readlineLoop bufLen answers buf first.length = readlineEnd bufLen bufLen buf answers := by
  have done : ¬ first.length < bufLen := by omega
  cases answers with
  | nil => rw [readlineLoop, if_neg done, full]
  | cons answer answers => cases answer <;> rw [readlineLoop, if_neg done, full]

/-- **A line that does not fit** is cut where the buffer ends. -/
theorem readlineLoop_full (positive : 0 < bufLen) (bytes : answers.reduceOption = text ++ more)
    (unended : basicIoTextEndMark ∉ text) (fills : first.length + text.length = bufLen)
    (room : bufLen ≤ (first ++ buf).length) :
    ∃ used left, answers = used ++ left ∧ used.reduceOption = text ∧ left.reduceOption = more ∧
      readlineLoop bufLen answers (first ++ buf) first.length =
        some (.returned bufLen (some ((first ++ text).dropLast ++ 0 :: buf.drop text.length)) left) := by
  induction answers generalizing first text buf with
  | nil =>
      obtain ⟨rfl, rfl⟩ := List.nil_eq_append_iff.mp bytes
      rw [List.length_nil, Nat.add_zero] at fills
      refine ⟨[], [], rfl, rfl, rfl, ?_⟩
      rw [readlineLoop_done fills, readlineEnd_full positive fills, List.append_nil]
      rfl
  | cons answer answers ih =>
      cases text with
      | nil =>
          rw [List.length_nil, Nat.add_zero] at fills
          refine ⟨[], answer :: answers, rfl, rfl, bytes, ?_⟩
          rw [readlineLoop_done fills, readlineEnd_full positive fills, List.append_nil]
          rfl
      | cons c text =>
          rw [List.length_cons] at fills
          have further : first.length < bufLen := by omega
          cases answer with
          | none =>
              obtain ⟨used, left, rfl, usedBytes, leftBytes, run⟩ := ih bytes unended fills room
              exact ⟨none :: used, left, rfl, usedBytes, leftBytes, (readlineLoop_none further _ _).trans run⟩
          | some byte =>
              rw [List.reduceOption_cons_of_some, List.cons_append, List.cons.injEq] at bytes
              obtain ⟨rfl, bytes⟩ := bytes
              obtain ⟨old, buf, rfl, room'⟩ := room_cons further room
              obtain ⟨other, unended⟩ := avoids_cons unended
              have shift : (first ++ [byte]).length = first.length + 1 := List.length_append
              have fills' : (first ++ [byte]).length + text.length = bufLen := by
                rw [shift]
                omega
              obtain ⟨used, left, rfl, usedBytes, leftBytes, run⟩ := ih bytes unended fills' (room' byte)
              refine ⟨some byte :: used, left, rfl, ?_, leftBytes, ?_⟩
              · rw [List.reduceOption_cons_of_some, usedBytes]
              · rw [readlineLoop_byte further other, run, List.length_cons, List.drop_succ_cons,
                  List.append_assoc first]
                rfl

end Full

section Calls

variable {bufLen : Nat} {buf text more : List UInt8} {answers : Answers}

/-- The first end mark comes before the buffer is full. -/
theorem reads_line (room : bufLen ≤ buf.length)
    (bytes : answers.reduceOption = text ++ basicIoTextEndMark :: more)
    (unended : basicIoTextEndMark ∉ text) (fits : text.length < bufLen) :
    ∃ left, left.reduceOption = more ∧
      ReadsLine bufLen buf answers (text ++ [basicIoTextEndMark]) text left := by
  have fits' : ([] : List UInt8).length + text.length < bufLen := by simpa using fits
  have room' : bufLen ≤ ([] ++ buf).length := room
  obtain ⟨used, left, rfl, usedBytes, leftBytes, run⟩ := readlineLoop_line bytes unended fits' room'
  refine ⟨left, leftBytes, ⟨used ++ [some basicIoTextEndMark], by simp, ?_⟩, ?_⟩
  · rw [List.reduceOption_append, usedBytes]
    rfl
  · rw [List.length_append, List.length_singleton]
    simpa [basicIoReadline] using run

/-- The buffer is full before. -/
theorem reads_full (positive : 0 < bufLen) (room : bufLen ≤ buf.length)
    (bytes : answers.reduceOption = text ++ more) (unended : basicIoTextEndMark ∉ text)
    (fills : text.length = bufLen) :
    ∃ left, left.reduceOption = more ∧ ReadsLine bufLen buf answers text text.dropLast left := by
  have fills' : ([] : List UInt8).length + text.length = bufLen := by simpa using fills
  have room' : bufLen ≤ ([] ++ buf).length := room
  obtain ⟨used, left, rfl, usedBytes, leftBytes, run⟩ :=
    readlineLoop_full positive bytes unended fills' room'
  refine ⟨left, leftBytes, ⟨used, rfl, usedBytes⟩, ?_⟩
  rw [List.length_dropLast, Nat.sub_add_cancel (by omega), fills]
  simpa [basicIoReadline, fills] using run

/-- Neither has happened yet. -/
theorem readline_waiting (room : bufLen ≤ buf.length) (bytes : answers.reduceOption = text)
    (unended : basicIoTextEndMark ∉ text) (fits : text.length < bufLen) :
    basicIoReadline (some buf) bufLen answers =
      some (.waiting text.length (text ++ buf.drop text.length)) := by
  have fits' : ([] : List UInt8).length + text.length < bufLen := by simpa using fits
  have room' : bufLen ≤ ([] ++ buf).length := room
  have run := readlineLoop_waiting bytes unended fits' room'
  simpa [basicIoReadline] using run

/-- **What `basic_io_readline` does**: the first end mark within the first `buf_len` bytes ends the
call, or else the `buf_len`-th byte does; until one of them has come, the call waits. -/
theorem basicIoReadline_spec (positive : 1 ≤ bufLen) (room : bufLen ≤ buf.length) (answers : Answers) :
    (∀ text more, answers.reduceOption = text ++ basicIoTextEndMark :: more →
        basicIoTextEndMark ∉ text → text.length < bufLen →
        ∃ left, left.reduceOption = more ∧
          ReadsLine bufLen buf answers (text ++ [basicIoTextEndMark]) text left) ∧
      (∀ text more, answers.reduceOption = text ++ more → basicIoTextEndMark ∉ text →
        text.length = bufLen →
        ∃ left, left.reduceOption = more ∧ ReadsLine bufLen buf answers text text.dropLast left) ∧
      ∀ text, answers.reduceOption = text → basicIoTextEndMark ∉ text → text.length < bufLen →
        basicIoReadline (some buf) bufLen answers =
          some (.waiting text.length (text ++ buf.drop text.length)) :=
  ⟨fun _ _ bytes unended fits => reads_line room bytes unended fits,
    fun _ _ bytes unended fills => reads_full positive room bytes unended fills,
    fun _ bytes unended fits => readline_waiting room bytes unended fits⟩

/-- A line of one byte, with a failed read in it, and a buffer of four bytes of which one is spare. -/
theorem basicIoReadline_spec_oneByte :
    ∃ left, left.reduceOption = [98] ∧
      ReadsLine 3 [1, 2, 3, 4] [some 97, none, some 10, some 98] [97, 10] [97] left :=
  (basicIoReadline_spec (by decide) (by decide) [some 97, none, some 10, some 98]).1 [97] [98] rfl
    (by decide) (by decide)

end Calls

/-! ### Consecutive calls -/

/-- What a call has delivered: a text, and whether the call ended on an end mark. -/
structure Delivery where
  text : List UInt8
  ended : Bool
  deriving DecidableEq, Repr

/-- The text, with the end mark put back. -/
def Delivery.putBack (delivery : Delivery) : List UInt8 :=
  delivery.text ++ if delivery.ended then [basicIoTextEndMark] else []

/-- The last byte of what a call has consumed is an end mark. -/
def endsOnMark (answers left : Answers) : Bool :=
  (answers.take (answers.length - left.length)).reduceOption.getLast? = some basicIoTextEndMark

/-- Consecutive calls with one buffer, and what is left of the input then; `none` while a call waits. -/
def readlines (bufLen : Nat) : (calls : Nat) → List UInt8 → Answers → Option (List Delivery × Answers)
  | 0, _, answers => some ([], answers)
  | calls + 1, buf, answers =>
      match basicIoReadline (some buf) bufLen answers with
      | some (.returned _ (some buf) left) =>
          (cString buf).bind fun text =>
            (readlines bufLen calls buf left).map fun (later, last) =>
              (⟨text, endsOnMark answers left⟩ :: later, last)
      | _ => none

/-- The next lines are shorter than the buffer. -/
def LinesFit (bufLen : Nat) : (lines : Nat) → List UInt8 → Prop
  | 0, _ => True
  | lines + 1, bytes => ∃ line more, bytes = line ++ basicIoTextEndMark :: more ∧
      basicIoTextEndMark ∉ line ∧ line.length < bufLen ∧ LinesFit bufLen lines more

section Lossless

variable {bufLen calls : Nat} {buf consumed text bytes : List UInt8} {answers left : Answers}

/-- Where the next call ends. -/
theorem next_line (bufLen : Nat) (bytes : List UInt8) :
    (∃ text more, bytes = text ++ basicIoTextEndMark :: more ∧ basicIoTextEndMark ∉ text ∧
        text.length < bufLen) ∨
      (∃ text more, bytes = text ++ more ∧ basicIoTextEndMark ∉ text ∧ text.length = bufLen) ∨
      basicIoTextEndMark ∉ bytes ∧ bytes.length < bufLen := by
  rcases split_at_first (fun byte => byte = basicIoTextEndMark) (bytes.take bufLen) with
    none | ⟨text, mark, rest, split, isMark, none⟩
  · have unended : basicIoTextEndMark ∉ bytes.take bufLen := fun member => by
      simpa using none _ member
    rcases Nat.lt_or_ge bytes.length bufLen with short | long
    · rw [List.take_of_length_le (Nat.le_of_lt short)] at unended
      exact Or.inr (Or.inr ⟨unended, short⟩)
    · exact Or.inr (Or.inl ⟨bytes.take bufLen, bytes.drop bufLen, (List.take_append_drop _ _).symm,
        unended, List.length_take_of_le long⟩)
  · obtain rfl := decide_eq_true_iff.mp isMark
    refine Or.inl ⟨text, rest ++ bytes.drop bufLen, ?_, fun member => by simpa using none _ member, ?_⟩
    · rw [← List.cons_append, ← List.append_assoc, ← split, List.take_append_drop]
    · have length := congrArg List.length split
      rw [List.length_take, List.length_append, List.length_cons] at length
      omega

/-- **What is delivered**: a text without an end mark, shorter than the buffer. -/
theorem readline_text {result : Int} {delivered : Option (List UInt8)} (positive : 0 < bufLen)
    (room : bufLen ≤ buf.length)
    (run : basicIoReadline (some buf) bufLen answers = some (.returned result delivered left)) :
    ∃ text, delivered = some (text ++ 0 :: buf.drop (text.length + 1)) ∧
      basicIoTextEndMark ∉ text ∧ text.length < bufLen := by
  rcases next_line bufLen answers.reduceOption with ⟨text, more, bytes, unended, fits⟩ |
    ⟨text, more, bytes, unended, fills⟩ | ⟨unended, short⟩
  · obtain ⟨rest, -, -, reads⟩ := reads_line room bytes unended fits
    rw [reads] at run
    cases run
    exact ⟨text, rfl, unended, fits⟩
  · obtain ⟨rest, -, -, reads⟩ := reads_full positive room bytes unended fills
    rw [reads] at run
    cases run
    refine ⟨text.dropLast, rfl, fun member => unended (List.dropLast_subset text member), ?_⟩
    rw [List.length_dropLast]
    omega
  · rw [readline_waiting room rfl unended short] at run
    cases run

theorem endsOnMark_eq {used : Answers} (split : answers = used ++ left)
    (bytes : used.reduceOption = consumed) :
    endsOnMark answers left = decide (consumed.getLast? = some basicIoTextEndMark) := by
  rw [endsOnMark, split, List.length_append, Nat.add_sub_cancel, List.take_left', bytes]
  rfl

/-- One call, and the calls after it. -/
theorem readlines_succ (reads : ReadsLine bufLen buf answers consumed text left) (clean : 0 ∉ text)
    (calls : Nat) :
    readlines bufLen (calls + 1) buf answers =
      (readlines bufLen calls (text ++ 0 :: buf.drop (text.length + 1)) left).map fun (later, last) =>
        (⟨text, decide (consumed.getLast? = some basicIoTextEndMark)⟩ :: later, last) := by
  obtain ⟨⟨used, split, usedBytes⟩, run⟩ := reads
  rw [readlines, run]
  simp only [cString_terminated clean, Option.bind_some, endsOnMark_eq split usedBytes]

/-- Lines are read off from the front. -/
theorem linesFit_succ {more : List UInt8} (unended : basicIoTextEndMark ∉ text)
    (fits : text.length < bufLen) (lines : Nat) :
    LinesFit bufLen (lines + 1) (text ++ basicIoTextEndMark :: more) ↔ LinesFit bufLen lines more := by
  constructor
  · rintro ⟨line, later, split, unended', -, rest⟩
    obtain ⟨-, rfl⟩ := split_at_first_unique unended unended' split
    exact rest
  · intro rest
    exact ⟨text, more, rfl, unended, fits, rest⟩

theorem not_linesFit_full {more : List UInt8} (unended : basicIoTextEndMark ∉ text)
    (fills : text.length = bufLen) (lines : Nat) : ¬ LinesFit bufLen (lines + 1) (text ++ more) := by
  rintro ⟨line, later, split, -, fits, -⟩
  have inText : basicIoTextEndMark ∈ (text ++ more).take bufLen := by
    rw [split, List.take_append, List.mem_append]
    refine Or.inr ?_
    obtain ⟨k, some⟩ : ∃ k, bufLen - line.length = k + 1 := ⟨bufLen - line.length - 1, by omega⟩
    rw [some, List.take_succ_cons]
    exact List.mem_cons_self ..
  rw [← fills, List.take_left'] at inText
  · exact unended inText
  · rfl

/-- What some calls deliver is never more than they consume, and all of it exactly when the lines fit. -/
theorem readlines_delivered (positive : 0 < bufLen) (room : bufLen ≤ buf.length)
    (clean : 0 ∉ answers.reduceOption) {deliveries : List Delivery}
    (run : readlines bufLen calls buf answers = some (deliveries, left)) :
    (deliveries.map Delivery.putBack).flatten.length + left.reduceOption.length ≤
        answers.reduceOption.length ∧
      (answers.reduceOption = (deliveries.map Delivery.putBack).flatten ++ left.reduceOption ↔
        LinesFit bufLen calls answers.reduceOption) := by
  induction calls generalizing buf answers deliveries with
  | zero =>
      cases run
      exact ⟨by simp, iff_of_true rfl trivial⟩
  | succ calls ih =>
      have length (text : List UInt8) (short : text.length < bufLen) :
          bufLen ≤ (text ++ 0 :: buf.drop (text.length + 1)).length := by
        rw [List.length_append, List.length_cons, List.length_drop]
        omega
      rcases next_line bufLen answers.reduceOption with ⟨text, more, bytes, unended, fits⟩ |
        ⟨text, more, bytes, unended, fills⟩ | ⟨unended, short⟩
      · -- a whole line
        obtain ⟨rest, restBytes, reads⟩ := reads_line room bytes unended fits
        rw [bytes, List.mem_append, List.mem_cons, not_or, not_or] at clean
        rw [readlines_succ reads clean.1] at run
        obtain ⟨⟨later, last⟩, run, same⟩ := Option.map_eq_some_iff.mp run
        cases same
        obtain ⟨bound, iff⟩ := ih (length text fits) (by rw [restBytes]; exact clean.2.2) run
        have putBack : Delivery.putBack ⟨text, decide ((text ++ [basicIoTextEndMark]).getLast? =
            some basicIoTextEndMark)⟩ = text ++ [basicIoTextEndMark] := by
          rw [List.getLast?_concat, decide_eq_true rfl]
          rfl
        rw [restBytes] at bound iff
        rw [bytes, List.map_cons, List.flatten_cons, putBack, linesFit_succ unended fits, ← iff]
        refine ⟨?_, ?_⟩
        · simp only [List.length_append, List.length_cons, List.length_nil] at bound ⊢
          omega
        · simp
      · -- the last byte of a full buffer is lost
        obtain ⟨rest, restBytes, reads⟩ := reads_full positive room bytes unended fills
        rw [bytes, List.mem_append, not_or] at clean
        have cleanText : 0 ∉ text.dropLast := fun member => clean.1 (List.dropLast_subset text member)
        rw [readlines_succ reads cleanText] at run
        obtain ⟨⟨later, last⟩, run, same⟩ := Option.map_eq_some_iff.mp run
        cases same
        have short : text.dropLast.length < bufLen := by
          rw [List.length_dropLast]
          omega
        obtain ⟨bound, -⟩ := ih (length text.dropLast short) (by rw [restBytes]; exact clean.2) run
        have noMark : ¬ text.getLast? = some basicIoTextEndMark := fun last =>
          unended (List.mem_of_getLast? last)
        have putBack : Delivery.putBack ⟨text.dropLast, decide (text.getLast? =
            some basicIoTextEndMark)⟩ = text.dropLast := by
          rw [decide_eq_false noMark]
          exact List.append_nil _
        rw [restBytes] at bound
        rw [bytes, List.map_cons, List.flatten_cons, putBack]
        rw [List.length_dropLast] at short
        have less : (text.dropLast ++ (later.map Delivery.putBack).flatten).length +
            left.reduceOption.length < (text ++ more).length := by
          rw [List.length_append, List.length_append, List.length_dropLast]
          omega
        refine ⟨Nat.le_of_lt less, iff_of_false (fun whole => ?_) (not_linesFit_full unended fills calls)⟩
        have lengths := congrArg List.length whole
        simp only [List.length_append] at lengths less
        omega
      · -- the call would still wait
        rw [readlines, readline_waiting room rfl unended short] at run
        cases run

end Lossless

/-- **Consecutive calls deliver all that they consume exactly when every line is shorter than the
buffer.** -/
theorem readlines_lossless_iff {bufLen calls : Nat} {buf : List UInt8} {answers left : Answers}
    {deliveries : List Delivery} (two : 2 ≤ bufLen) (room : bufLen ≤ buf.length)
    (clean : 0 ∉ answers.reduceOption)
    (run : readlines bufLen calls buf answers = some (deliveries, left)) :
    answers.reduceOption = (deliveries.map Delivery.putBack).flatten ++ left.reduceOption ↔
      LinesFit bufLen calls answers.reduceOption :=
  (readlines_delivered (Nat.lt_of_lt_of_le Nat.zero_lt_two two) room clean run).2

/-- Two lines, and the start of a third one, through a buffer of four bytes. -/
theorem readlines_lossless_iff_twoLines :
    ∃ deliveries left,
      readlines 4 2 [1, 1, 1, 1] [some 97, some 98, none, some 10, some 10, some 99] =
        some (deliveries, left) ∧
      [97, 98, 10, 10, 99] = (deliveries.map Delivery.putBack).flatten ++ left.reduceOption := by
  have run : readlines 4 2 [1, 1, 1, 1] [some 97, some 98, none, some 10, some 10, some 99] =
      some ([⟨[97, 98], true⟩, ⟨[], true⟩], [some 99]) := by decide
  refine ⟨_, _, run, (readlines_lossless_iff (by decide) (by decide) (by decide) run).mpr ?_⟩
  exact ⟨[97, 98], [10, 99], rfl, by decide, by decide, [], [99], rfl, by decide, by decide, trivial⟩

/-- A line of two bytes through a buffer of two: the calls deliver `"a"` and `""`. -/
theorem readlines_loses :
    readlines 2 2 [1, 1] [some 97, some 98, some 10] = some ([⟨[97], false⟩, ⟨[], true⟩], []) ∧
      ¬ (([some 97, some 98, some 10] : Answers).reduceOption =
        ([(⟨[97], false⟩ : Delivery), ⟨[], true⟩].map Delivery.putBack).flatten ++
          ([] : Answers).reduceOption) :=
  ⟨by decide, by decide⟩

end YosStm32.BasicIo
