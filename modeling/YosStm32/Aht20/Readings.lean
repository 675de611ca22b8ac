/-
**What a measurement stands for.**

The five bytes of data are two numbers of 20 bits, the humidity first (`data_eq`). The driver scales them to
per cent and to degrees and rounds down. The degrees are stored in an `int8_t`, which they do not fit
from 128 degrees on (`aht20GetTemperature_eq`).
-/

import Mathlib.Algebra.Group.Nat.Defs
import YosStm32.Aht20.Aht20

namespace YosStm32.Aht20

section Raw

variable (frame : Aht20T)

/-- Three numbers side by side. -/
theorem shiftLeft_or_or {a b c : Nat} (i j : Nat) (middle : b < 2 ^ i) (last : c < 2 ^ j) :
    a <<< (i + j) ||| b <<< j ||| c = (a * 2 ^ i + b) * 2 ^ j + c := by
  have shifted : b <<< j < 2 ^ (i + j) := by
    rw [Nat.shiftLeft_eq, Nat.pow_add]
    exact Nat.mul_lt_mul_of_pos_right middle (Nat.two_pow_pos j)
  have front : a <<< (i + j) + b <<< j = (a * 2 ^ i + b) <<< j := by
    rw [Nat.shiftLeft_eq, Nat.shiftLeft_eq, Nat.shiftLeft_eq, Nat.pow_add, Nat.add_mul, Nat.mul_assoc]
  rw [← Nat.shiftLeft_add_eq_or_of_lt shifted, front, ← Nat.shiftLeft_add_eq_or_of_lt last,
    Nat.shiftLeft_eq]

/-- The lower half of a byte, and two more bytes. -/
theorem lowNibble_bytes (a b c : UInt8) :
    (a.toNat &&& 0x0F) <<< 16 ||| b.toNat <<< 8 ||| c.toNat =
      (a.toNat % 16 * 256 + b.toNat) * 256 + c.toNat := by
  have low : a.toNat &&& 0x0F = a.toNat % 16 := Nat.and_two_pow_sub_one_eq_mod _ 4
  rw [low]
  exact shiftLeft_or_or 8 8 b.toNat_lt c.toNat_lt

/-- Two bytes, and the upper half of one more. -/
theorem bytes_highNibble (a b c : UInt8) :
    a.toNat <<< 12 ||| b.toNat <<< 4 ||| (c.toNat &&& 0xF0) >>> 4 =
      (a.toNat * 256 + b.toNat) * 16 + c.toNat / 16 := by
  have small : c.toNat / 16 < 16 := Nat.div_lt_of_lt_mul c.toNat_lt
  have high : (c.toNat &&& 0xF0) >>> 4 = c.toNat / 16 := by
    have shifted : c.toNat >>> 4 = c.toNat / 16 := Nat.shiftRight_eq_div_pow _ 4
    rw [Nat.shiftRight_and_distrib, shifted]
    exact (Nat.and_two_pow_sub_one_eq_mod _ 4).trans (Nat.mod_eq_of_lt small)
  rw [high]
  exact shiftLeft_or_or 8 4 b.toNat_lt small

theorem rawTemperature_lt : rawTemperature frame < 1048576 := by
  have third := frame.data[3].toNat_lt
  have last := frame.data[4].toNat_lt
  unfold rawTemperature
  rw [lowNibble_bytes]
  omega

theorem rawHumidity_lt : rawHumidity frame < 1048576 := by
  have first := frame.data[0].toNat_lt
  have second := frame.data[1].toNat_lt
  have third := frame.data[2].toNat_lt
  unfold rawHumidity
  rw [bytes_highNibble]
  omega

/-- The data as one number. -/
def Aht20T.number : Nat := frame.data.toList.foldl (fun n byte => n * 256 + byte.toNat) 0

/-- **The two numbers share no bit and leave none out.** -/
theorem Aht20T.number_eq : frame.number = rawHumidity frame * 1048576 + rawTemperature frame := by
  obtain ⟨state, ⟨⟨bytes⟩, length⟩, sum⟩ := frame
  match bytes, length with
  | [a, b, c, d, e], length =>
      have third := c.toNat_lt
      unfold rawHumidity rawTemperature
      rw [bytes_highNibble, lowNibble_bytes]
      show ((((0 * 256 + a.toNat) * 256 + b.toNat) * 256 + c.toNat) * 256 + d.toNat) * 256 + e.toNat =
        ((a.toNat * 256 + b.toNat) * 16 + c.toNat / 16) * 1048576 +
          ((c.toNat % 16 * 256 + d.toNat) * 256 + e.toNat)
      omega

/-- Per cent, rounded down; never 100. -/
theorem aht20GetHumidity_eq :
    (aht20GetHumidity frame).toNat = rawHumidity frame * 100 / 1048576 ∧
      rawHumidity frame * 100 / 1048576 ≤ 99 := by
  have bound := rawHumidity_lt frame
  have scaled : (rawHumidity frame * 25) >>> 18 = rawHumidity frame * 25 / 262144 :=
    Nat.shiftRight_eq_div_pow _ 18
  rw [aht20GetHumidity, scaled, UInt8.toNat_ofNat_of_lt' (by show _ < 256; omega)]
  omega

/-- Degrees, rounded down, from -50 to 149. -/
def degrees : Int := ((rawTemperature frame * 200 / 1048576 : Nat) : Int) - 50

theorem degrees_range : -50 ≤ degrees frame ∧ degrees frame ≤ 149 := by
  have bound := rawTemperature_lt frame
  rw [degrees]
  omega

/-- **The degrees that are reported**: from 128 on they are 256 too few. -/
theorem aht20GetTemperature_eq :
    (aht20GetTemperature frame).toInt =
      if degrees frame < 128 then degrees frame else degrees frame - 256 := by
  obtain ⟨low, high⟩ := degrees_range frame
  have scaled : (rawTemperature frame * 25) >>> 17 = rawTemperature frame * 200 / 1048576 := by
    rw [Nat.shiftRight_eq_div_pow]
    omega
  have same : (((rawTemperature frame * 25) >>> 17 : Nat) : Int) - 50 = degrees frame := by
    rw [scaled, degrees]
  have size : ((Int8.size : Nat) : Int) = 256 := rfl
  rw [aht20GetTemperature, same, Int8.toInt_ofInt, Int.bmod_def, size]
  split <;> split <;> omega

/-- **What the driver reports of a measurement.** -/
theorem aht20Get_eq :
    frame.number = rawHumidity frame * 1048576 + rawTemperature frame ∧
      rawTemperature frame < 1048576 ∧
      (aht20GetHumidity frame).toNat = rawHumidity frame * 100 / 1048576 ∧
      (aht20GetHumidity frame).toNat ≤ 99 ∧
      (aht20GetTemperature frame).toInt =
        if degrees frame < 128 then degrees frame else degrees frame - 256 := by
  obtain ⟨scaled, bound⟩ := aht20GetHumidity_eq frame
  exact ⟨frame.number_eq, rawTemperature_lt frame, scaled, scaled ▸ bound, aht20GetTemperature_eq frame⟩

end Raw

end YosStm32.Aht20
