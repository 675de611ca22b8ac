/-
**The line reader** (`basic_io.c`, `basic_io.h`).

A port is what its `basic_io_port_read_byte_no_block` answers from now on: `some` byte for a call that
stores the byte and returns 0, `none` for one that stores nothing and returns an error (as every call
does while no port is set). A function that asks for more than the port answers is waiting. Access
outside the caller's buffer is `none`.
-/

import Mathlib.Data.List.ReduceOption
import YosStm32.Lib.CString
import YosStm32.RingBuf.YRingBuffer

namespace YosStm32.BasicIo

open Lib
open RingBuf (writeByte)

/-- The answers of a port. -/
abbrev Answers := List (Option UInt8)

/-- `BASIC_IO_TEXT_END_MARK`: `'\n'`. -/
def basicIoTextEndMark : UInt8 := 10

/-- A call of `basic_io_readline` that has returned, or that still polls the port. -/
inductive ReadLine where
  | returned (result : Int) (buf : Option (List UInt8)) (left : Answers)
  | waiting (byteRead : Nat) (buf : List UInt8)
  deriving DecidableEq, Repr

/-- What follows the loop of `basic_io_readline`. -/
def readlineEnd (bufLen byteRead : Nat) (buf : List UInt8) (left : Answers) : Option ReadLine :=
  if byteRead = bufLen then
    if byteRead = 0 then none
    else (writeByte buf (byteRead - 1) 0).map fun buf => .returned byteRead (some buf) left
  else some (.returned byteRead (some buf) left)

/-- The loop of `basic_io_readline`, with `_byte_read` bytes in the buffer. -/
def readlineLoop (bufLen : Nat) : Answers → List UInt8 → (byteRead : Nat) → Option ReadLine
  | [], buf, byteRead =>
      if byteRead < bufLen then some (.waiting byteRead buf) else readlineEnd bufLen byteRead buf []
  | answer :: left, buf, byteRead =>
      if byteRead < bufLen then
        match answer with
        | some byte => (writeByte buf byteRead byte).bind fun buf =>
            if byte = basicIoTextEndMark then
              (writeByte buf byteRead 0).bind fun buf => readlineEnd bufLen (byteRead + 1) buf left
            else readlineLoop bufLen left buf (byteRead + 1)
        | none => readlineLoop bufLen left buf byteRead
      else readlineEnd bufLen byteRead buf (answer :: left)

/-- `basic_io_readline`. -/
def basicIoReadline (buf : Option (List UInt8)) (bufLen : Nat) (answers : Answers) :
    Option ReadLine :=
  match buf with
  | none => some (.returned (-1) none answers)
  | some buf => readlineLoop bufLen answers buf 0

/-! ### A line -/

section Line

variable {bufLen : Nat} {text first buf more : List UInt8} {answers : Answers}

theorem writeByte_next (first : List UInt8) (old byte : UInt8) (rest : List UInt8) :
    writeByte (first ++ old :: rest) first.length byte = some (first ++ byte :: rest) := by
  have inside : first.length < (first ++ old :: rest).length := by
    rw [List.length_append, List.length_cons]
    omega
  rw [writeByte, if_pos inside, set_append_cons]

/-- As long as the buffer is not full, there is a byte to write over. -/
theorem room_cons (further : first.length < bufLen) (room : bufLen ≤ (first ++ buf).length) :
    ∃ old rest, buf = old :: rest ∧ ∀ byte, bufLen ≤ (first ++ [byte] ++ rest).length := by
  cases buf with
  | nil =>
      rw [List.append_nil] at room
      omega
  | cons old rest =>
      refine ⟨old, rest, rfl, fun byte => ?_⟩
      rw [List.append_assoc, List.singleton_append]
      simpa only [List.length_append, List.length_cons] using room

/-- A terminator written over a terminator. -/
theorem readlineEnd_terminated (first rest : List UInt8) (left : Answers) :
    readlineEnd bufLen (first.length + 1) (first ++ 0 :: rest) left =
      some (.returned (first.length + 1 : Nat) (some (first ++ 0 :: rest)) left) := by
  rw [readlineEnd, if_neg (Nat.succ_ne_zero _), Nat.add_sub_cancel, writeByte_next]
  exact ite_self _

theorem readlineLoop_none {byteRead : Nat} (further : byteRead < bufLen) (answers : Answers)
    (buf : List UInt8) :
    readlineLoop bufLen (none :: answers) buf byteRead = readlineLoop bufLen answers buf byteRead := by
  rw [readlineLoop, if_pos further]

/-- A byte that does not end the line is added to what has been read. -/
theorem readlineLoop_byte {byte : UInt8} (further : first.length < bufLen)
    (other : byte ≠ basicIoTextEndMark) (answers : Answers) (old : UInt8) (rest : List UInt8) :
    readlineLoop bufLen (some byte :: answers) (first ++ old :: rest) first.length =
      readlineLoop bufLen answers (first ++ [byte] ++ rest) (first ++ [byte]).length := by
  rw [readlineLoop, if_pos further]
  simp only [writeByte_next, Option.bind_some, if_neg other]
  rw [List.length_append, List.append_assoc]
  rfl

/-- **A line that fits is read whole**, up to its end mark and no further. -/
theorem readlineLoop_line (bytes : answers.reduceOption = text ++ basicIoTextEndMark :: more)
    (unended : basicIoTextEndMark ∉ text) (fits : first.length + text.length < bufLen)
    (room : bufLen ≤ (first ++ buf).length) :
    ∃ used left, answers = used ++ some basicIoTextEndMark :: left ∧ used.reduceOption = text ∧
      left.reduceOption = more ∧
      readlineLoop bufLen answers (first ++ buf) first.length =
        some (.returned (first.length + text.length + 1 : Nat)
          (some (first ++ text ++ 0 :: buf.drop (text.length + 1))) left) := by
  induction answers generalizing first text buf with
  | nil => simp at bytes
  | cons answer answers ih =>
      have further : first.length < bufLen := by omega
      cases answer with
      | none =>
          obtain ⟨used, left, rfl, usedBytes, leftBytes, run⟩ := ih bytes unended fits room
          exact ⟨none :: used, left, rfl, usedBytes, leftBytes, (readlineLoop_none further _ _).trans run⟩
      | some byte =>
          rw [List.reduceOption_cons_of_some] at bytes
          obtain ⟨old, buf, rfl, room'⟩ := room_cons further room
          cases text with
          | nil =>
              rw [List.nil_append, List.cons.injEq] at bytes
              obtain ⟨rfl, leftBytes⟩ := bytes
              refine ⟨[], answers, rfl, rfl, leftBytes, ?_⟩
              rw [readlineLoop, if_pos further]
              simp only [writeByte_next, Option.bind_some, if_true]
              rw [List.append_nil]
              exact readlineEnd_terminated first buf answers
          | cons c text =>
              rw [List.cons_append, List.cons.injEq] at bytes
              obtain ⟨rfl, bytes⟩ := bytes
              obtain ⟨other, unended⟩ := avoids_cons unended
              rw [List.length_cons] at fits
              have shift : (first ++ [byte]).length = first.length + 1 := List.length_append
              have fits' : (first ++ [byte]).length + text.length < bufLen := by
                rw [shift]
                omega
              obtain ⟨used, left, rfl, usedBytes, leftBytes, run⟩ := ih bytes unended fits' (room' byte)
              refine ⟨some byte :: used, left, rfl, ?_, leftBytes, ?_⟩
              · rw [List.reduceOption_cons_of_some, usedBytes]
              · rw [readlineLoop_byte further other, run, shift, List.length_cons,
                  List.drop_succ_cons, List.append_assoc first, Nat.add_right_comm first.length]
                rfl

/-- **An unfinished line that fits is waited for.** -/
theorem readlineLoop_waiting (bytes : answers.reduceOption = text)
    (unended : basicIoTextEndMark ∉ text) (fits : first.length + text.length < bufLen)
    (room : bufLen ≤ (first ++ buf).length) :
    readlineLoop bufLen answers (first ++ buf) first.length =
      some (.waiting (first.length + text.length) (first ++ text ++ buf.drop text.length)) := by
  induction answers generalizing first text buf with
  | nil =>
      obtain rfl : [] = text := bytes
      have further : first.length < bufLen := fits
      rw [readlineLoop, if_pos further, List.append_nil]
      rfl
  | cons answer answers ih =>
      have further : first.length < bufLen := by omega
      cases answer with
      | none =>
          exact (readlineLoop_none further _ _).trans (ih bytes unended fits room)
      | some byte =>
          rw [List.reduceOption_cons_of_some] at bytes
          subst bytes
          rw [List.length_cons] at fits
          obtain ⟨old, buf, rfl, room'⟩ := room_cons further room
          obtain ⟨other, unended⟩ := avoids_cons unended
          have shift : (first ++ [byte]).length = first.length + 1 := List.length_append
          have fits' : (first ++ [byte]).length + (answers.reduceOption).length < bufLen := by
            rw [shift]
            omega
          rw [readlineLoop_byte further other, ih rfl unended fits' (room' byte), shift, List.length_cons,
            List.drop_succ_cons, List.append_assoc first, Nat.add_right_comm first.length]
          rfl

end Line

end YosStm32.BasicIo
