/-
**The I/O loops inside the caller's buffer** (`basic_io.c`).

`basic_io_read`, `basic_io_readline` and `basic_io_write` with their counters of 16 bits, and with a
`Fault` for an access outside the buffer or a counter that wraps around. In a buffer of the length that
is passed the first and the last never have one. The line reader writes one place before its
counter when the counter equals the length: for the length 0 that is before the buffer, whether or not
anything has been read (`basicIo_bounds`). Where there is no fault, the functions are the ones of
BasicIo/BasicIo and BasicIo/Write (`basicIoReadlineChecked_eq`, `basicIoWriteChecked_eq`).
-/

import YosStm32.BasicIo.BasicIo
import YosStm32.BasicIo.Write

namespace YosStm32.BasicIo

open RingBuf (writeByte)

/-! ### Accesses -/

/-- What must not happen. -/
inductive Fault where
  | outside (index : Int)
  | wraps
  deriving DecidableEq, Repr

/-- The place of a cell of the buffer. -/
def cellIndex (buf : List UInt8) (index : Int) : Except Fault Nat :=
  if 0 ≤ index ∧ index < buf.length then .ok index.toNat else .error (.outside index)

/-- `*(buf + index)`. -/
def loadCell (buf : List UInt8) (index : Int) : Except Fault UInt8 :=
  (cellIndex buf index).map fun place => buf.getD place 0

/-- `*(buf + index) = byte`. -/
def storeCell (buf : List UInt8) (index : Int) (byte : UInt8) : Except Fault (List UInt8) :=
  (cellIndex buf index).map fun place => buf.set place byte

/-- `counter++`. -/
def increment (counter : UInt16) : Except Fault UInt16 :=
  if counter.toNat + 1 < 65536 then .ok (counter + 1) else .error .wraps

/-! ### The functions -/

/-- The loop of `basic_io_read`; the port is given `buf + cnt` in every call. -/
def readLoopChecked (bufLen : UInt16) : Answers → List UInt8 → (cnt : UInt16) → Except Fault ReadLine
  | [], buf, cnt =>
      if cnt < bufLen then (cellIndex buf cnt.toNat).map fun _ => .waiting cnt.toNat buf
      else .ok (.returned cnt.toNat (some buf) [])
  | answer :: left, buf, cnt =>
      if cnt < bufLen then
        (cellIndex buf cnt.toNat).bind fun place =>
          match answer with
          | some byte => (increment cnt).bind fun cnt => readLoopChecked bufLen left (buf.set place byte) cnt
          | none => .ok (.returned cnt.toNat (some buf) left)
      else .ok (.returned cnt.toNat (some buf) (answer :: left))

/-- `basic_io_read`, which returns and waits as the line reader does. -/
def basicIoReadChecked (buf : Option (List UInt8)) (bufLen : UInt16) (answers : Answers) :
    Except Fault ReadLine :=
  match buf with
  | none => .ok (.returned (-1) none answers)
  | some buf => readLoopChecked bufLen answers buf 0

/-- What follows the loop of `basic_io_readline`. -/
def readlineEndChecked (bufLen byteRead : UInt16) (buf : List UInt8) (left : Answers) :
    Except Fault ReadLine :=
  if byteRead = bufLen then
    (storeCell buf (byteRead.toNat - 1) 0).map fun buf => .returned byteRead.toNat (some buf) left
  else .ok (.returned byteRead.toNat (some buf) left)

/-- The loop of `basic_io_readline`. -/
def readlineLoopChecked (bufLen : UInt16) :
    Answers → List UInt8 → (byteRead : UInt16) → Except Fault ReadLine
  | [], buf, byteRead =>
      if byteRead < bufLen then (cellIndex buf byteRead.toNat).map fun _ => .waiting byteRead.toNat buf
      else readlineEndChecked bufLen byteRead buf []
  | answer :: left, buf, byteRead =>
      if byteRead < bufLen then
        (cellIndex buf byteRead.toNat).bind fun place =>
          match answer with
          | some byte =>
              (loadCell (buf.set place byte) byteRead.toNat).bind fun byte' =>
                (increment byteRead).bind fun next =>
                  if byte' = basicIoTextEndMark then
                    (storeCell (buf.set place byte) (next.toNat - 1) 0).bind fun buf =>
                      readlineEndChecked bufLen next buf left
                  else readlineLoopChecked bufLen left (buf.set place byte) next
          | none => readlineLoopChecked bufLen left buf byteRead
      else readlineEndChecked bufLen byteRead buf (answer :: left)

/-- `basic_io_readline`. -/
def basicIoReadlineChecked (buf : Option (List UInt8)) (bufLen : UInt16) (answers : Answers) :
    Except Fault ReadLine :=
  match buf with
  | none => .ok (.returned (-1) none answers)
  | some buf => readlineLoopChecked bufLen answers buf 0

/-- The loop of `basic_io_write`. -/
def writeLoopChecked (data : List UInt8) (dataLen : UInt16) (block : Int) :
    Acceptances → (byteWritten : UInt16) → (sent : List UInt8) → Except Fault Write
  | [], byteWritten, sent =>
      if byteWritten < dataLen then
        (loadCell data byteWritten.toNat).map fun _ => .waiting byteWritten.toNat sent
      else .ok (.returned byteWritten.toNat sent [])
  | accepted :: left, byteWritten, sent =>
      if byteWritten < dataLen then
        (loadCell data byteWritten.toNat).bind fun byte =>
          if accepted then
            (increment byteWritten).bind fun next =>
              writeLoopChecked data dataLen block left next (sent ++ [byte])
          else if block = 0 then .ok (.returned byteWritten.toNat sent left)
          else writeLoopChecked data dataLen block left byteWritten sent
      else .ok (.returned byteWritten.toNat sent (accepted :: left))

/-- `basic_io_write`. -/
def basicIoWriteChecked (port : Option Acceptances) (data : Option (List UInt8)) (dataLen : UInt16)
    (block : Int) : Except Fault Write :=
  match port, data with
  | some answers, some data => writeLoopChecked data dataLen block answers 0 []
  | port, _ => .ok (.returned (-1) [] (port.getD []))

/-! ### Inside the buffer -/

section Inside

variable {buf : List UInt8} {len n : UInt16}

theorem not_below (past : ¬ n < len) : ¬ n.toNat < len.toNat := fun less =>
  past (UInt16.lt_iff_toNat_lt.mpr less)

theorem cellIndex_inside {i : Nat} (inside : i < buf.length) : cellIndex buf i = .ok i := by
  rw [cellIndex, if_pos ⟨Int.natCast_nonneg i, Int.ofNat_lt.mpr inside⟩, Int.toNat_natCast]

/-- Below the length, the counter is the place of a cell and can be incremented. -/
theorem counter_below (size : buf.length = len.toNat) (below : n < len) :
    cellIndex buf n.toNat = .ok n.toNat ∧ increment n = .ok (n + 1) ∧
      (n + 1).toNat = n.toNat + 1 := by
  have less : n.toNat < len.toNat := UInt16.lt_iff_toNat_lt.mp below
  have bound := len.toNat_lt
  have small : n.toNat + 1 < 65536 := by omega
  have next : (n + 1).toNat = n.toNat + 1 := by
    rw [UInt16.toNat_add]
    exact Nat.mod_eq_of_lt small
  exact ⟨cellIndex_inside (by omega), if_pos small, next⟩

/-- **`basic_io_read` has no fault.** -/
theorem readLoopChecked_ok (size : buf.length = len.toNat) (answers : Answers) :
    ∃ result, readLoopChecked len answers buf n = .ok result := by
  induction answers generalizing buf n with
  | nil =>
      rw [readLoopChecked]
      split
      · rename_i below
        rw [(counter_below size below).1]
        exact ⟨_, rfl⟩
      · exact ⟨_, rfl⟩
  | cons answer left ih =>
      rw [readLoopChecked]
      split
      · rename_i below
        obtain ⟨cell, counted, -⟩ := counter_below size below
        rw [cell]
        cases answer with
        | none => exact ⟨_, rfl⟩
        | some byte =>
            simp only [Except.bind, counted]
            exact ih (List.length_set.trans size)
      · exact ⟨_, rfl⟩

theorem loadCell_inside {i : Nat} (inside : i < buf.length) : loadCell buf i = .ok (buf.getD i 0) := by
  rw [loadCell, cellIndex_inside inside]
  rfl

/-- A store inside the buffer, here and in the line reader without checks. -/
theorem storeCell_inside {i : Nat} (inside : i < buf.length) (byte : UInt8) :
    storeCell buf i byte = .ok (buf.set i byte) ∧ writeByte buf i byte = some (buf.set i byte) := by
  rw [storeCell, cellIndex_inside inside]
  exact ⟨rfl, if_pos inside⟩

/-- The last store of the line reader, with a length that is not 0. -/
theorem readlineEndChecked_ok (nonzero : len ≠ 0) (size : buf.length = len.toNat) (left : Answers) :
    ∃ result, readlineEndChecked len n buf left = .ok result ∧
      readlineEnd len.toNat n.toNat buf left = some result := by
  by_cases full : n = len
  · have positive : n.toNat ≠ 0 := fun zero => nonzero (full ▸ UInt16.toNat_inj.mp zero)
    have place : (n.toNat : Int) - 1 = (n.toNat - 1 : Nat) := by omega
    have inside : n.toNat - 1 < buf.length := by
      rw [size, ← full]
      omega
    obtain ⟨stored, written⟩ := storeCell_inside inside 0
    rw [readlineEndChecked, if_pos full, place, stored, readlineEnd, if_pos (congrArg UInt16.toNat full),
      if_neg positive, written]
    exact ⟨_, rfl, rfl⟩
  · have notFull : n.toNat ≠ len.toNat := fun same => full (UInt16.toNat_inj.mp same)
    rw [readlineEndChecked, if_neg full, readlineEnd, if_neg notFull]
    exact ⟨_, rfl, rfl⟩

/-- **`basic_io_readline` has no fault** when the length is not 0, and is the line reader. -/
theorem readlineLoopChecked_ok (nonzero : len ≠ 0) (size : buf.length = len.toNat) (answers : Answers) :
    ∃ result, readlineLoopChecked len answers buf n = .ok result ∧
      readlineLoop len.toNat answers buf n.toNat = some result := by
  induction answers generalizing buf n with
  | nil =>
      by_cases below : n < len
      · rw [readlineLoopChecked, if_pos below, (counter_below size below).1, readlineLoop,
          if_pos (UInt16.lt_iff_toNat_lt.mp below)]
        exact ⟨_, rfl, rfl⟩
      · rw [readlineLoopChecked, if_neg below, readlineLoop, if_neg (not_below below)]
        exact readlineEndChecked_ok nonzero size []
  | cons answer left ih =>
      by_cases below : n < len
      · obtain ⟨cell, counted, next⟩ := counter_below size below
        have less := UInt16.lt_iff_toNat_lt.mp below
        rw [readlineLoopChecked, if_pos below, cell]
        cases answer with
        | none =>
            rw [readlineLoop, if_pos less]
            exact ih size
        | some byte =>
            rw [readlineLoop, if_pos less]
            have inside : n.toNat < buf.length := by omega
            have stillInside : n.toNat < (buf.set n.toNat byte).length := by
              rw [List.length_set]
              exact inside
            have back : (buf.set n.toNat byte).getD n.toNat 0 = byte := by
              rw [List.getD_eq_getElem?_getD, List.getElem?_set_self inside]
              rfl
            have place : ((n + 1).toNat : Int) - 1 = n.toNat := by omega
            have size' : (buf.set n.toNat byte).length = len.toNat := List.length_set.trans size
            simp only [Except.bind, loadCell_inside stillInside, back, counted,
              (storeCell_inside inside byte).2, Option.bind_some]
            by_cases ends : byte = basicIoTextEndMark
            · obtain ⟨stored, written⟩ := storeCell_inside stillInside 0
              rw [if_pos ends, place, stored, if_pos ends, written, Option.bind_some, ← next]
              exact readlineEndChecked_ok nonzero (List.length_set.trans size') left
            · rw [if_neg ends, if_neg ends, ← next]
              exact ih size'
      · rw [readlineLoopChecked, if_neg below]
        cases answer with
        | none =>
            rw [readlineLoop, if_neg (not_below below)]
            exact readlineEndChecked_ok nonzero size _
        | some byte =>
            rw [readlineLoop, if_neg (not_below below)]
            exact readlineEndChecked_ok nonzero size _

/-- **`basic_io_write` has no fault**, and is the function without checks. -/
theorem writeLoopChecked_ok (size : buf.length = len.toNat) (block : Int) (answers : Acceptances)
    (sent : List UInt8) :
    ∃ result, writeLoopChecked buf len block answers n sent = .ok result ∧
      writeLoop buf len.toNat block answers n.toNat sent = some result := by
  induction answers generalizing n sent with
  | nil =>
      by_cases below : n < len
      · have less := UInt16.lt_iff_toNat_lt.mp below
        have inside : n.toNat < buf.length := by omega
        rw [writeLoopChecked, if_pos below, loadCell_inside inside, writeLoop, if_pos less,
          List.getElem?_eq_getElem inside]
        exact ⟨_, rfl, rfl⟩
      · rw [writeLoopChecked, if_neg below, writeLoop, if_neg (not_below below)]
        exact ⟨_, rfl, rfl⟩
  | cons accepted left ih =>
      by_cases below : n < len
      · obtain ⟨-, counted, next⟩ := counter_below size below
        have less := UInt16.lt_iff_toNat_lt.mp below
        have inside : n.toNat < buf.length := by omega
        have byte : buf[n.toNat]? = some (buf.getD n.toNat 0) := by
          rw [List.getD_eq_getElem?_getD, List.getElem?_eq_getElem inside]
          rfl
        rw [writeLoopChecked, if_pos below, loadCell_inside inside, writeLoop, if_pos less, byte,
          Option.bind_some]
        simp only [Except.bind, counted]
        cases accepted with
        | true =>
            rw [if_pos rfl, if_pos rfl, ← next]
            exact ih _
        | false =>
            rw [if_neg Bool.false_ne_true, if_neg Bool.false_ne_true]
            by_cases once : block = 0
            · rw [if_pos once, if_pos once]
              exact ⟨_, rfl, rfl⟩
            · rw [if_neg once, if_neg once]
              exact ih _
      · rw [writeLoopChecked, if_neg below, writeLoop, if_neg (not_below below)]
        exact ⟨_, rfl, rfl⟩

end Inside

/-! ### Bounds -/

section Bounds

variable {buf : Option (List UInt8)} {bufLen : UInt16}

/-- The buffer has the length that is passed. -/
def HasLength (buf : Option (List UInt8)) (bufLen : UInt16) : Prop :=
  ∀ cells, buf = some cells → cells.length = bufLen.toNat

theorem basicIoReadChecked_ok (size : HasLength buf bufLen) (answers : Answers) :
    ∃ result, basicIoReadChecked buf bufLen answers = .ok result := by
  cases buf with
  | none => exact ⟨_, rfl⟩
  | some buf => exact readLoopChecked_ok (size buf rfl) answers

/-- With no fault, it is the function without checks. -/
theorem basicIoWriteChecked_eq (size : HasLength buf bufLen) (port : Option Acceptances) (block : Int) :
    ∃ result, basicIoWriteChecked port buf bufLen block = .ok result ∧
      basicIoWrite port buf bufLen.toNat block = some result := by
  cases port with
  | none => exact ⟨_, rfl, rfl⟩
  | some answers =>
      cases buf with
      | none => exact ⟨_, rfl, rfl⟩
      | some buf => exact writeLoopChecked_ok (size buf rfl) block answers []

/-- With no fault, it is the function without checks. -/
theorem basicIoReadlineChecked_eq (size : HasLength buf bufLen) (valid : buf = none ∨ bufLen ≠ 0)
    (answers : Answers) :
    ∃ result, basicIoReadlineChecked buf bufLen answers = .ok result ∧
      basicIoReadline buf bufLen.toNat answers = some result := by
  cases buf with
  | none => exact ⟨_, rfl, rfl⟩
  | some buf =>
      have nonzero : bufLen ≠ 0 := valid.resolve_left (Option.some_ne_none buf)
      exact readlineLoopChecked_ok nonzero (size buf rfl) answers

/-- The line reader in a buffer of no bytes. -/
theorem basicIoReadlineChecked_zero (answers : Answers) :
    basicIoReadlineChecked (some []) 0 answers = .error (.outside (-1)) := by
  cases answers with
  | nil => rfl
  | cons => rfl

/-- The three functions stay in the buffer, and their counters do not wrap around. -/
structure InBounds (buf : Option (List UInt8)) (bufLen : UInt16) (answers : Answers)
    (port : Option Acceptances) (block : Int) : Prop where
  read : ∃ result, basicIoReadChecked buf bufLen answers = .ok result
  readline : ∃ result, basicIoReadlineChecked buf bufLen answers = .ok result
  write : ∃ result, basicIoWriteChecked port buf bufLen block = .ok result

/-- **The bounds of the I/O loops**: only the line reader leaves its buffer, and only one of length 0. -/
theorem basicIo_bounds (size : HasLength buf bufLen) (answers : Answers) (port : Option Acceptances)
    (block : Int) :
    (InBounds buf bufLen answers port block ↔ buf = none ∨ bufLen ≠ 0) ∧
      (∃ result, basicIoReadChecked buf bufLen answers = .ok result) ∧
      ∃ result, basicIoWriteChecked port buf bufLen block = .ok result := by
  have reads := basicIoReadChecked_ok size answers
  have writes : ∃ result, basicIoWriteChecked port buf bufLen block = .ok result := by
    obtain ⟨result, ok, -⟩ := basicIoWriteChecked_eq size port block
    exact ⟨result, ok⟩
  refine ⟨⟨fun bounds => ?_, fun valid => ⟨reads, ?_, writes⟩⟩, reads, writes⟩
  · by_contra invalid
    obtain ⟨present, zero⟩ := not_or.mp invalid
    obtain ⟨cells, rfl⟩ := Option.ne_none_iff_exists'.mp present
    obtain rfl := not_not.mp zero
    obtain rfl := List.eq_nil_of_length_eq_zero (size cells rfl)
    obtain ⟨result, ok⟩ := bounds.readline
    rw [basicIoReadlineChecked_zero] at ok
    cases ok
  · obtain ⟨result, ok, -⟩ := basicIoReadlineChecked_eq size valid answers
    exact ⟨result, ok⟩

/-- Two bytes and a line that does not end. -/
theorem basicIo_bounds_two : InBounds (some [7, 8]) 2 [some 65, none, some 66] (some [true, false]) 1 :=
  (basicIo_bounds (fun cells same => by cases same; rfl) _ _ _).1.mpr (Or.inr (by decide))

/-- A line into a buffer of no bytes: the terminator goes before it. -/
theorem basicIo_bounds_zero :
    basicIoReadlineChecked (some []) 0 [] = .error (.outside (-1)) ∧ ¬ InBounds (some []) 0 [] none 0 := by
  refine ⟨rfl, fun bounds => ?_⟩
  obtain ⟨result, ok⟩ := bounds.readline
  cases ok

end Bounds

end YosStm32.BasicIo
