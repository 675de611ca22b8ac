/-
**Printing** (`_cmd_printf` in `cmdline.c`).

A message comes here as the text that it stands for. It is put into a buffer of `CMDLINE_MAX_LENGTH`
bytes on the stack, which holds anything before; what `vsnprintf` has stored of it is written to the
port by a call that blocks. So of a text with more than `CMDLINE_MAX_LENGTH - 1` characters the rest is
never printed (`cmdPrintf_prints`).
-/

import Mathlib.Algebra.Group.Nat.Defs
import YosStm32.BasicIo.Write
import YosStm32.Cmdline.Shell

namespace YosStm32.Cmdline

open Lib BasicIo
open RingBuf (writeByte)

/-! ### Formatting -/

/-- `%d`. -/
def decimal (n : Int) : List UInt8 :=
  (if n < 0 then [45] else []) ++ (Nat.toDigits 10 n.natAbs).map fun digit => UInt8.ofNat digit.toNat

/-- `%2d`. -/
def decimal2 (n : Int) : List UInt8 := List.leftpad 2 32 (decimal n)

/-- `vsnprintf`: at most `size - 1` characters of the text are stored, and a terminator. -/
def vsnprintf (buf : List UInt8) (size : Nat) (text : List UInt8) : Option (List UInt8) :=
  if size = 0 then some buf
  else if (text.take (size - 1)).length < buf.length then
    some (text.take (size - 1) ++ 0 :: buf.drop ((text.take (size - 1)).length + 1))
  else none

/-! ### Writing -/

/-- What has been printed, and what the port answers from now on; there is no port while a byte is
still offered to it. -/
structure Printing where
  output : List UInt8
  port : Option Acceptances
  deriving DecidableEq, Repr

/-- After a call of `basic_io_write`, with what had been printed before. -/
def Printing.after (output : List UInt8) : Write → Printing
  | .returned _ sent left => ⟨output ++ sent, some left⟩
  | .waiting _ sent => ⟨output ++ sent, none⟩

/-- `basic_io_write(buf, len, 1)`. -/
def Printing.write (printing : Printing) (buf : List UInt8) (len : Nat) : Option Printing :=
  match printing.port with
  | none => some printing
  | some answers =>
      (basicIoWrite (some answers) (some buf) len 1).map (Printing.after printing.output)

/-- `_cmd_printf`, with what lies in `buf` when it is called. -/
def cmdPrintf (buf text : List UInt8) (printing : Printing) : Option Printing :=
  (vsnprintf buf cmdlineMaxLength text).bind fun buf =>
    (writeByte buf (cmdlineMaxLength - 1) 0).bind fun buf =>
      (strlen buf).bind fun len => printing.write buf len

/-! ### What is printed -/

/-- The text is offered to the port, which takes all of it or as many bytes as it takes at all. -/
structure Prints (text : List UInt8) (first last : Printing) : Prop where
  whole : ∀ answers, first.port = some answers → text.length ≤ answers.count true →
    ∃ left, last = ⟨first.output ++ text, some left⟩ ∧
      left.count true + text.length = answers.count true
  part : ∀ answers, first.port = some answers → answers.count true < text.length →
    last = ⟨first.output ++ text.take (answers.count true), none⟩
  stuck : first.port = none → last = first

section Prints

variable {text more buf : List UInt8} {first middle last : Printing}

theorem Prints.nil (printing : Printing) : Prints [] printing printing where
  whole := fun answers port _ =>
    ⟨answers, by rw [List.append_nil, ← port], rfl⟩
  part := fun _ _ few => absurd few (Nat.not_lt_zero _)
  stuck := fun _ => rfl

/-- One text after another. -/
theorem Prints.append (one : Prints text first middle) (two : Prints more middle last) :
    Prints (text ++ more) first last where
  whole := fun answers port enough => by
    rw [List.length_append] at enough
    obtain ⟨left, rfl, count⟩ := one.whole answers port (by omega)
    obtain ⟨left', rfl, count'⟩ := two.whole left rfl (by omega)
    refine ⟨left', by rw [List.append_assoc], ?_⟩
    rw [List.length_append]
    omega
  part := fun answers port few => by
    rw [List.length_append] at few
    by_cases enough : text.length ≤ answers.count true
    · obtain ⟨left, rfl, count⟩ := one.whole answers port enough
      rw [two.part left rfl (by omega), ← count, List.take_append, List.append_assoc,
        Nat.add_sub_cancel, List.take_of_length_le (Nat.le_add_left _ _)]
    · rw [one.part answers port (by omega)] at two
      rw [two.stuck rfl, List.take_append_of_le_length (by omega)]
  stuck := fun port => by
    rw [one.stuck port] at two
    exact two.stuck port

/-- **The front of the buffer is printed.** -/
theorem Printing.write_prints (printing : Printing) (text rest : List UInt8) :
    ∃ last, printing.write (text ++ rest) text.length = some last ∧ Prints text printing last := by
  have room : text.length ≤ (text ++ rest).length := by
    rw [List.length_append]
    exact Nat.le_add_right _ _
  obtain ⟨output, port⟩ := printing
  cases port with
  | none =>
      have noPort {answers : Acceptances} : ¬ (⟨output, none⟩ : Printing).port = some answers :=
        (Option.some_ne_none _).symm
      exact ⟨⟨output, none⟩, rfl, fun _ port => absurd port noPort, fun _ port => absurd port noPort,
        fun _ => rfl⟩
  | some answers =>
      obtain ⟨enough, few⟩ :=
        writeLoop_blocking room (by decide : (1 : Int) ≠ 0) (Nat.zero_le _) answers
      rw [List.take_zero, Nat.zero_add] at enough few
      have isPort : ¬ (⟨output, some answers⟩ : Printing).port = none := Option.some_ne_none _
      have call : Printing.write ⟨output, some answers⟩ (text ++ rest) text.length =
          (writeLoop (text ++ rest) text.length 1 answers 0 []).map (Printing.after output) := rfl
      rcases Nat.lt_or_ge (answers.count true) text.length with less | all
      · refine ⟨_, by rw [call, few less]; rfl, ?_, ?_, fun port => absurd port isPort⟩
        · intro answers' port all
          cases port
          omega
        · intro answers' port _
          cases port
          rw [List.take_append_of_le_length (Nat.le_of_lt less)]
          rfl
      · obtain ⟨used, left, split, count, run⟩ := enough all
        refine ⟨_, by rw [call, run]; rfl, ?_, ?_, fun port => absurd port isPort⟩
        · intro answers' port _
          cases port
          refine ⟨left, by rw [List.take_left' rfl]; rfl, ?_⟩
          rw [split, List.count_append]
          omega
        · intro answers' port less
          cases port
          omega

/-- **What is in the buffer**, once a terminator has been stored at its end: as much of the text as there is
room for, and a terminator. -/
theorem vsnprintf_terminated {count : Nat} (positive : 0 < count) (size : buf.length = count) (clean : 0 ∉ text) :
    ∃ stored tail, vsnprintf buf count text = some stored ∧
      writeByte stored (count - 1) 0 = some (text.take (count - 1) ++ 0 :: tail) ∧
      strlen (text.take (count - 1) ++ 0 :: tail) = some (text.take (count - 1)).length := by
  have short : (text.take (count - 1)).length < buf.length := by
    have bound := List.length_take_le (count - 1) text
    rw [size]
    omega
  have stored : vsnprintf buf count text = some (text.take (count - 1) ++
      0 :: buf.drop ((text.take (count - 1)).length + 1)) := by
    rw [vsnprintf, if_neg (Nat.ne_of_gt positive), if_pos short]
  have cleanFront : 0 ∉ text.take (count - 1) := fun member => clean (List.mem_of_mem_take member)
  rw [stored]
  generalize text.take (count - 1) = front at short cleanFront ⊢
  generalize kept : 0 :: buf.drop (front.length + 1) = rest
  -- The last byte of the buffer is the terminator that is there already, or lies behind it.
  have whole : (front ++ rest).length = count := by
    rw [← kept, List.length_append, List.length_cons, List.length_drop]
    omega
  obtain ⟨tail, terminated⟩ : ∃ tail, rest.set (count - 1 - front.length) 0 = 0 :: tail := by
    rw [← kept]
    cases count - 1 - front.length with
    | zero => exact ⟨_, rfl⟩
    | succ i => exact ⟨_, rfl⟩
  refine ⟨_, tail, rfl, ?_, strlen_terminated cleanFront⟩
  rw [writeByte, if_pos (by omega), List.set_append_right _ _ (by omega), terminated]

/-- **What `_cmd_printf` prints of a text**: as much as the buffer has room for. -/
theorem cmdPrintf_prints (size : buf.length = cmdlineMaxLength) (clean : 0 ∉ text) (printing : Printing) :
    ∃ last, cmdPrintf buf text printing = some last ∧
      Prints (text.take (cmdlineMaxLength - 1)) printing last := by
  obtain ⟨stored, tail, formatted, written, length⟩ := vsnprintf_terminated (by decide) size clean
  rw [cmdPrintf, formatted, Option.bind_some, written, Option.bind_some, length, Option.bind_some]
  exact printing.write_prints _ (0 :: tail)

end Prints

/-! ### The characters of a number -/

section Decimal

variable {n : Int}

/-- Only a sign and digits. -/
theorem not_mem_decimal {c : UInt8} (below : c < 45) : c ∉ decimal n := by
  intro member
  rcases List.mem_append.mp member with sign | digits
  · split at sign
    · rw [List.mem_singleton.mp sign] at below
      exact absurd below (by decide)
    · cases sign
  · obtain ⟨digit, isDigit, rfl⟩ := List.mem_map.mp digits
    have range := Char.isDigit_iff_toNat.mp (Nat.isDigit_of_mem_toDigits (by decide) (by decide) isDigit)
    rw [UInt8.lt_iff_toNat_lt, UInt8.toNat_ofNat'] at below
    have bound : digit.toNat % 256 < 45 := below
    have low : 48 ≤ digit.toNat := range.1
    have high : digit.toNat ≤ 57 := range.2
    omega

theorem not_mem_decimal2 {c : UInt8} (below : c < 45) (other : c ≠ 32) : c ∉ decimal2 n := by
  intro member
  rcases List.mem_append.mp member with pad | member
  · exact other (List.eq_of_mem_replicate pad)
  · exact not_mem_decimal below member

/-- A sign and the digits. -/
theorem decimal_length_le {k : Nat} (positive : 0 < k) (small : n.natAbs < 10 ^ k) :
    (decimal n).length ≤ k + 1 := by
  have digits := (Nat.length_toDigits_le_iff (by decide : 1 < 10) positive).mpr small
  have sign : (if n < 0 then [45] else ([] : List UInt8)).length ≤ 1 := by
    split
    · exact Nat.le_refl _
    · exact Nat.zero_le _
  rw [decimal, List.length_append, List.length_map]
  omega

/-- One digit, and a space before it. -/
theorem decimal2_length {i : Nat} (small : i < 10) : (decimal2 i).length = 2 := by
  have digits : (decimal i).length = 1 := by
    rw [decimal, if_neg (by omega), Int.natAbs_natCast, Nat.toDigits_of_lt_base small]
    rfl
  rw [decimal2, List.length_leftpad, digits]
  rfl

example : decimal2 7 = [32, 55] ∧ decimal (-12) = [45, 49, 50] := by decide

end Decimal

end YosStm32.Cmdline
