/-
**The checksum of the sensor's frames.**

`crc` is the CRC of `Lib.Crc` with the divisor `X ^ 8 + X ^ 5 + X ^ 4 + 1` (`crc_eq`), in both versions
(`crcTable_eq`). So an accepted frame that is received with a small error is not accepted any more
(`smallError_detected`): the divisor has a last coefficient and four terms, and the register comes back to 1
after no less than 127 steps, while a frame has 56 bits.
-/

import YosStm32.Aht20.Aht20
import YosStm32.Lib.Crc

namespace YosStm32.Aht20

open Lib Polynomial

/-- The divisor without its leading term. -/
def crcPolynomial : BitVec 8 := 0x31#8

/-! ### The two versions -/

section Versions

/-- A property of bytes that can be tried out. -/
theorem forall_byte (holds : UInt8 → Prop) (all : ∀ n < 256, holds (UInt8.ofNat n)) (byte : UInt8) :
    holds byte := by
  have this := all byte.toNat byte.toNat_lt
  rwa [UInt8.ofNat_toNat] at this

/-- One turn of the loop over `j` is one step of the register. -/
theorem crcBits_succ (left : Nat) (crc : UInt8) :
    crcBits (left + 1) crc = crcBits left ⟨shift crcPolynomial crc.toBitVec⟩ := by
  have sign : crc &&& 0x80 ≠ 0 ↔ crc.toBitVec.msb = true :=
    forall_byte (fun crc => crc &&& 0x80 ≠ 0 ↔ crc.toBitVec.msb = true) (by decide +kernel) crc
  rw [crcBits, shift]
  by_cases high : crc &&& 0x80 ≠ 0
  · rw [if_pos high, if_pos (sign.mp high)]
    rfl
  · rw [if_neg high, if_neg fun msb => high (sign.mpr msb)]
    rfl

theorem crcBits_eq (left : Nat) (crc : UInt8) :
    crcBits left crc = ⟨(shift crcPolynomial)^[left] crc.toBitVec⟩ := by
  induction left generalizing crc with
  | zero => rfl
  | succ left ih => rw [crcBits_succ, ih, Function.iterate_succ_apply]

/-- The loop over the bytes from the `i`-th on. -/
theorem crcLoop_eq {data bytes rest : List UInt8} (first : List UInt8)
    (split : data = first ++ bytes ++ rest) (crc : UInt8) :
    crcLoop data bytes.length first.length crc =
      some ⟨Lib.crc crcPolynomial crc.toBitVec (bytes.map UInt8.toBitVec)⟩ := by
  induction bytes generalizing first crc with
  | nil => rfl
  | cons byte bytes ih =>
      have here : data[first.length]? = some byte := by
        rw [split, List.append_assoc, List.getElem?_append_right (Nat.le_refl _), Nat.sub_self]
        rfl
      have later : data = (first ++ [byte]) ++ bytes ++ rest := by
        rw [split]
        simp only [List.append_assoc, List.cons_append, List.nil_append]
      have next := ih (first ++ [byte]) later (crcBits 8 (crc ^^^ byte))
      rw [List.length_append, List.length_singleton] at next
      rw [List.length_cons, crcLoop, here, Option.bind_some, next, crcBits_eq]
      rfl

/-- **The checksum of some bytes.** -/
theorem crc_eq {bytes : List UInt8} (rest : List UInt8) {len : UInt8} (length : bytes.length = len.toNat) :
    crc (bytes ++ rest) len = some ⟨Lib.crc crcPolynomial 0xFF#8 (bytes.map UInt8.toBitVec)⟩ := by
  rw [crc, ← length]
  exact crcLoop_eq [] rfl 0xFF

/-- The table holds what eight turns of the loop give. -/
theorem crcLookup_eq (byte : UInt8) : crcLookup[byte.toNat]? = some (crcBits 8 byte) :=
  forall_byte (fun byte => crcLookup[byte.toNat]? = some (crcBits 8 byte)) (by decide +kernel) byte

theorem crcTableLoop_eq (data : List UInt8) (left i : Nat) (crc : UInt8) :
    crcTableLoop left (data.drop i) crc = crcLoop data left i crc := by
  induction left generalizing i crc with
  | zero => rfl
  | succ left ih =>
      rw [crcLoop]
      cases here : data[i]? with
      | none =>
          rw [List.drop_eq_nil_of_le (List.getElem?_eq_none_iff.mp here)]
          rfl
      | some byte =>
          obtain ⟨inside, rfl⟩ := List.getElem?_eq_some_iff.mp here
          rw [List.drop_eq_getElem_cons inside, crcTableLoop, crcLookup_eq, Option.bind_some, ih]
          rfl

/-- **The table and the loop agree.** -/
theorem crcTable_eq (data : List UInt8) (len : UInt8) : crcTable data len = crc data len :=
  crcTableLoop_eq data len.toNat 0 0xFF

end Versions

/-! ### The remainder -/

theorem divisor_crcPolynomial : divisor crcPolynomial = X ^ 8 + X ^ 5 + X ^ 4 + 1 := by
  have bits : wordBits crcPolynomial = [false, false, true, true, false, false, false, true] := by decide
  rw [divisor, bits]
  simp [ofBits, bitCoeff]
  ring

/-- **What both versions of `crc` compute**: the remainder of the bytes and a zero byte behind them, with
`0xFF` added onto the first byte, by `X ^ 8 + X ^ 5 + X ^ 4 + 1`. -/
theorem crc_remainder {data : List UInt8} {len : UInt8} (inside : len.toNat ≤ data.length) :
    ∃ sum, crc data len = some sum ∧ crcTable data len = some sum ∧
      ofBits (wordBits sum.toBitVec) =
        (X ^ (8 * len.toNat) * ofBits (wordBits 0xFF#8) +
          X ^ 8 * ofBits (messageBits ((data.take len.toNat).map UInt8.toBitVec))) %ₘ
            (X ^ 8 + X ^ 5 + X ^ 4 + 1) := by
  have length : (data.take len.toNat).length = len.toNat := List.length_take_of_le inside
  have sum := crc_eq (data.drop len.toNat) length
  rw [List.take_append_drop] at sum
  refine ⟨_, sum, (crcTable_eq data len).trans sum, ?_⟩
  have remainder := crc_eq_modByMonic crcPolynomial 0xFF#8 ((data.take len.toNat).map UInt8.toBitVec)
  rwa [List.length_map, length, divisor_crcPolynomial] at remainder

/-- Two bytes. -/
theorem crc_remainder_twoBytes :
    ∃ sum, crc [0xBE, 0xEF] 2 = some sum ∧ crcTable [0xBE, 0xEF] 2 = some sum ∧ sum = 0x92 := by
  obtain ⟨sum, checked, table, -⟩ :=
    crc_remainder (by decide : (2 : UInt8).toNat ≤ [(0xBE : UInt8), 0xEF].length)
  have value : crc [0xBE, 0xEF] 2 = some 0x92 := by decide +kernel
  exact ⟨sum, checked, table, Option.some.inj (checked.symm.trans value)⟩

/-! ### Frames -/

/-- The frame has the right checksum. -/
def Aht20T.Valid (frame : Aht20T) : Prop := Aht20.crc frame.bytes 6 = some frame.crc

instance (frame : Aht20T) : Decidable frame.Valid := inferInstanceAs (Decidable (_ = _))

/-- The bits of a frame, as they are sent. -/
def Aht20T.bits (frame : Aht20T) : List Bool := messageBits (frame.bytes.map UInt8.toBitVec)

/-- The bits that differ. -/
def wrongBits (sent received : Aht20T) : List Bool := List.zipWith xor sent.bits received.bits

section Frames

variable {sent received : Aht20T}

/-- The bytes before the checksum. -/
theorem Aht20T.front_length (frame : Aht20T) : (frame.state :: frame.data.toList).length = 6 := by
  rw [List.length_cons, Vector.length_toList]

theorem Aht20T.crc_bytes (frame : Aht20T) :
    Aht20.crc frame.bytes 6 = some
      ⟨Lib.crc crcPolynomial 0xFF#8 ((frame.state :: frame.data.toList).map UInt8.toBitVec)⟩ :=
  crc_eq _ frame.front_length

theorem Aht20T.valid_iff (frame : Aht20T) :
    frame.Valid ↔ Accepts crcPolynomial 0xFF#8 ((frame.state :: frame.data.toList).map UInt8.toBitVec)
      frame.crc.toBitVec := by
  rw [Aht20T.Valid, frame.crc_bytes, Option.some.injEq, ← UInt8.toBitVec_inj]
  rfl

/-- **A small error is detected**: a right frame is received as one that is not. -/
theorem smallError_detected (valid : sent.Valid) (error : SmallError 8 56 (wrongBits sent received)) :
    ¬ received.Valid := by
  have same : ((sent.state :: sent.data.toList).map UInt8.toBitVec).length =
      ((received.state :: received.data.toList).map UInt8.toBitVec).length := by
    rw [List.length_map, List.length_map, sent.front_length, received.front_length]
  have bits : ∀ frame : Aht20T, frame.bits = messageBits
      ((frame.state :: frame.data.toList).map UInt8.toBitVec ++ [frame.crc.toBitVec]) := fun frame => by
    rw [Aht20T.bits, Aht20T.bytes, List.map_append, List.map_singleton]
  have returns : ∀ distance < 56, 0 < distance → (shift crcPolynomial)^[distance] 1#8 ≠ 1#8 := by
    decide +kernel
  rw [received.valid_iff, accepts_iff_dvd crcPolynomial same (sent.valid_iff.mp valid), ← bits, ← bits]
  exact error.not_dvd (by decide) (by decide) fun distance positive near =>
    returns distance near positive

end Frames

end YosStm32.Aht20
