/-
**Cyclic redundancy checks.**

A register of `w` bits is a polynomial over the field of two elements, its first bit being the leading
coefficient. `shift` moves the register on by one bit, and is the multiplication by `X` modulo the divisor
`X ^ w + g` (`value_shift`). So the register after some words is a remainder of the message
(`crc_eq_modByMonic`), and between two frames of one length that are both accepted there is a
multiple of the divisor (`accepted_iff_dvd`). What the divisor does not divide is detected: a burst that is
not longer than the register (`not_dvd_burst`), an odd number of bits (`not_dvd_odd`), two bits that are
nearer to each other than the register's period (`not_dvd_two`); these together are `SmallError`.
-/

import Mathlib.Algebra.Field.ZMod
import Mathlib.RingTheory.AdjoinRoot

namespace YosStm32.Lib

open Polynomial

/-! ### Bits as polynomials -/

/-- A bit as a coefficient. -/
def bitCoeff (b : Bool) : ZMod 2 := if b then 1 else 0

/-- The polynomial of some bits, the first one being the leading coefficient. -/
noncomputable def ofBits : List Bool → (ZMod 2)[X]
  | [] => 0
  | b :: bits => C (bitCoeff b) * X ^ bits.length + ofBits bits

section Bits

theorem bitCoeff_xor (a b : Bool) : bitCoeff (a ^^ b) = bitCoeff a + bitCoeff b := by
  cases a <;> cases b <;> decide

theorem bitCoeff_and (a b : Bool) : bitCoeff (a && b) = bitCoeff a * bitCoeff b := by
  cases a <;> cases b <;> decide

/-- Twice the same bit is nothing. -/
theorem bitCoeff_add_self (b : Bool) : bitCoeff b + bitCoeff b = 0 := by
  cases b <;> decide

theorem bitCoeff_eq_zero {b : Bool} : bitCoeff b = 0 ↔ b = false := by
  cases b <;> decide

theorem coeff_ofBits (bits : List Bool) (i : Nat) :
    (ofBits bits).coeff i = bitCoeff (bits.reverse[i]?.getD false) := by
  induction bits with
  | nil => rfl
  | cons b bits ih =>
      rw [ofBits, coeff_add, coeff_C_mul_X_pow, ih, List.reverse_cons, List.getElem?_append,
        List.length_reverse]
      rcases Nat.lt_trichotomy i bits.length with before | rfl | behind
      · rw [if_neg (Nat.ne_of_lt before), if_pos before, zero_add]
      · rw [if_pos rfl, if_neg (Nat.lt_irrefl _), Nat.sub_self,
          List.getElem?_eq_none (Nat.le_of_eq List.length_reverse)]
        exact add_zero _
      · have none : [b][i - bits.length]? = none :=
          List.getElem?_eq_none (Nat.sub_pos_of_lt behind)
        rw [if_neg (Nat.ne_of_gt behind), if_neg (Nat.lt_asymm behind), zero_add, none,
          List.getElem?_eq_none (by rw [List.length_reverse]; exact Nat.le_of_lt behind)]

theorem degree_ofBits_lt (bits : List Bool) : (ofBits bits).degree < bits.length := by
  rw [degree_lt_iff_coeff_zero]
  intro i behind
  rw [coeff_ofBits, List.getElem?_eq_none (by rwa [List.length_reverse])]
  rfl

theorem ofBits_append (first second : List Bool) :
    ofBits (first ++ second) = ofBits first * X ^ second.length + ofBits second := by
  induction first with
  | nil => rw [List.nil_append, ofBits, zero_mul, zero_add]
  | cons b bits ih =>
      rw [List.cons_append, ofBits, ih, ofBits, List.length_append, pow_add]
      ring

theorem ofBits_eq_zero {bits : List Bool} : ofBits bits = 0 ↔ true ∉ bits := by
  constructor
  · intro zero member
    obtain ⟨i, place⟩ := List.mem_iff_getElem?.mp (List.mem_reverse.mpr member)
    have coefficient := coeff_ofBits bits i
    rw [zero, place, coeff_zero] at coefficient
    exact absurd coefficient (by decide)
  · intro absent
    ext i
    rw [coeff_ofBits, coeff_zero, bitCoeff_eq_zero]
    cases place : bits.reverse[i]? with
    | none => rfl
    | some b =>
        cases b with
        | false => rfl
        | true => exact absurd (List.mem_reverse.mp (List.mem_of_getElem? place)) absent

theorem ofBits_replicate_false (n : Nat) : ofBits (List.replicate n false) = 0 :=
  ofBits_eq_zero.mpr fun member => Bool.noConfusion (List.eq_of_mem_replicate member)

/-- Exclusive or is addition. -/
theorem ofBits_xor {first second : List Bool} (same : first.length = second.length) :
    ofBits (List.zipWith xor first second) = ofBits first + ofBits second := by
  induction first generalizing second with
  | nil =>
      obtain rfl := List.length_eq_zero_iff.mp same.symm
      exact (add_zero _).symm
  | cons a first ih =>
      cases second with
      | nil => cases same
      | cons b second =>
          have rest : first.length = second.length := Nat.succ.inj same
          rw [List.zipWith_cons_cons, ofBits, ih rest, List.length_zipWith, rest, Nat.min_self,
            bitCoeff_xor, C_add, ofBits, ofBits, rest]
          ring

/-- The number of the bits that are set, modulo 2. -/
theorem eval_ofBits (bits : List Bool) : (ofBits bits).eval 1 = (bits.count true : ZMod 2) := by
  induction bits with
  | nil => rw [ofBits, eval_zero, List.count_nil, Nat.cast_zero]
  | cons b bits ih =>
      rw [ofBits, eval_add, ih, eval_mul, eval_C, eval_pow, eval_X, one_pow, mul_one]
      cases b with
      | false => rw [List.count_cons_of_ne Bool.false_ne_true]; exact zero_add _
      | true => rw [List.count_cons_self, Nat.cast_succ]; exact add_comm _ _

end Bits

/-! ### The register -/

section Register

variable {w : Nat}

/-- The bits of a word, the most significant one first. -/
def wordBits (r : BitVec w) : List Bool := ((List.range w).map r.getLsbD).reverse

/-- The divisor `X ^ w + g`. -/
noncomputable def divisor (g : BitVec w) : (ZMod 2)[X] := X ^ w + ofBits (wordBits g)

/-- The register one bit further. -/
def shift (g r : BitVec w) : BitVec w := if r.msb then r <<< 1 ^^^ g else r <<< 1

/-- One word into the register. -/
def feed (g r word : BitVec w) : BitVec w := (shift g)^[w] (r ^^^ word)

/-- The register as a remainder. -/
noncomputable def value (g r : BitVec w) : AdjoinRoot (divisor g) :=
  AdjoinRoot.mk (divisor g) (ofBits (wordBits r))

@[simp]
theorem wordBits_length (r : BitVec w) : (wordBits r).length = w := by
  rw [wordBits, List.length_reverse, List.length_map, List.length_range]

theorem coeff_wordBits (r : BitVec w) (i : Nat) :
    (ofBits (wordBits r)).coeff i = bitCoeff (r.getLsbD i) := by
  rw [coeff_ofBits, wordBits, List.reverse_reverse, List.getElem?_map]
  by_cases inside : i < w
  · rw [List.getElem?_range inside]
    rfl
  · rw [List.getElem?_eq_none (by rw [List.length_range]; exact Nat.le_of_not_lt inside),
      BitVec.getLsbD_of_ge r i (Nat.le_of_not_lt inside)]
    rfl

theorem ofBits_wordBits_xor (r s : BitVec w) :
    ofBits (wordBits (r ^^^ s)) = ofBits (wordBits r) + ofBits (wordBits s) := by
  ext i
  rw [coeff_add, coeff_wordBits, coeff_wordBits, coeff_wordBits, BitVec.getLsbD_xor, bitCoeff_xor]

theorem ofBits_wordBits_injective {r s : BitVec w} (same : ofBits (wordBits r) = ofBits (wordBits s)) :
    r = s := by
  refine BitVec.eq_of_getLsbD_eq fun i _ => ?_
  have coefficient := congrArg (Polynomial.coeff · i) same
  rw [coeff_wordBits, coeff_wordBits] at coefficient
  cases left : r.getLsbD i <;> cases right : s.getLsbD i <;> rw [left, right] at coefficient <;>
    first | rfl | exact absurd coefficient (by decide)

theorem degree_wordBits_lt (r : BitVec w) : (ofBits (wordBits r)).degree < w := by
  have bound := degree_ofBits_lt (wordBits r)
  rwa [wordBits_length] at bound

section Divisor

variable (g : BitVec w)

theorem divisor_monic : (divisor g).Monic := monic_X_pow_add (degree_wordBits_lt g)

theorem degree_divisor : (divisor g).degree = w := by
  have positive : (ofBits (wordBits g)).degree < (X ^ w : (ZMod 2)[X]).degree := by
    rw [degree_X_pow]
    exact degree_wordBits_lt g
  rw [divisor, degree_add_eq_left_of_degree_lt positive, degree_X_pow]

/-- **A step of the register** takes a multiple of the divisor away. -/
theorem ofBits_shift (r : BitVec w) :
    ofBits (wordBits (shift g r)) = X * ofBits (wordBits r) + C (bitCoeff r.msb) * divisor g := by
  ext i
  rw [coeff_wordBits, coeff_add, coeff_C_mul, divisor, coeff_add, coeff_X_pow, coeff_wordBits]
  have out : (shift g r).getLsbD i = ((r <<< 1).getLsbD i ^^ (r.msb && g.getLsbD i)) := by
    rw [shift]
    cases r.msb with
    | false => exact (Bool.xor_false _).symm
    | true => exact BitVec.getLsbD_xor
  rw [out, bitCoeff_xor, bitCoeff_and, BitVec.getLsbD_shiftLeft]
  cases i with
  | zero =>
      have low : bitCoeff r.msb * (if 0 = w then 1 else 0) = 0 := by
        cases w with
        | zero => rw [BitVec.msb_eq_getLsbD_last, BitVec.getLsbD_of_ge r _ (Nat.zero_le _)]; rfl
        | succ w => rw [if_neg (Nat.succ_ne_zero w).symm, mul_zero]
      rw [coeff_X_mul_zero, mul_add, low]
      simp [bitCoeff]
  | succ i =>
      rw [coeff_X_mul, coeff_wordBits, mul_add, ← add_assoc]
      refine congrArg (· + _) ?_
      rcases Nat.lt_trichotomy (i + 1) w with inside | rfl | behind
      · simp [inside, Nat.ne_of_lt inside]
      · rw [BitVec.msb_eq_getLsbD_last, Nat.add_sub_cancel, if_pos rfl, mul_one, bitCoeff_add_self]
        simp [bitCoeff]
      · rw [if_neg (Nat.ne_of_gt behind), mul_zero, add_zero,
          BitVec.getLsbD_of_ge r i (Nat.le_of_lt_succ behind)]
        simp [Nat.lt_asymm behind]

/-- **The register moves on by a multiplication.** -/
theorem value_shift (r : BitVec w) :
    value g (shift g r) = AdjoinRoot.root (divisor g) * value g r := by
  rw [value, ofBits_shift, map_add, map_mul, map_mul, AdjoinRoot.mk_self, mul_zero, add_zero,
    AdjoinRoot.mk_X, value]

theorem value_shifts (n : Nat) (r : BitVec w) :
    value g ((shift g)^[n] r) = AdjoinRoot.root (divisor g) ^ n * value g r := by
  induction n generalizing r with
  | zero => rw [Function.iterate_zero_apply, pow_zero, one_mul]
  | succ n ih => rw [Function.iterate_succ_apply, ih, value_shift, pow_succ, mul_assoc]

theorem value_xor (r s : BitVec w) : value g (r ^^^ s) = value g r + value g s := by
  rw [value, ofBits_wordBits_xor, map_add, value, value]

/-- A register is known by its value. -/
theorem value_injective {r s : BitVec w} (same : value g r = value g s) : r = s := by
  refine ofBits_wordBits_injective ?_
  have multiple := AdjoinRoot.mk_eq_mk.mp same
  have small : (ofBits (wordBits r) - ofBits (wordBits s)).degree < (divisor g).degree := by
    rw [degree_divisor]
    exact lt_of_le_of_lt (degree_sub_le _ _) (max_lt (degree_wordBits_lt r) (degree_wordBits_lt s))
  exact sub_eq_zero.mp (eq_zero_of_dvd_of_degree_lt multiple small)

/-! ### Messages -/

/-- The bits of some words, one word after another. -/
def messageBits (words : List (BitVec w)) : List Bool := words.flatMap wordBits

/-- The register after some words. -/
def crc (init : BitVec w) (words : List (BitVec w)) : BitVec w := words.foldl (feed g) init

theorem messageBits_concat (words : List (BitVec w)) (word : BitVec w) :
    messageBits (words ++ [word]) = messageBits words ++ wordBits word := by
  rw [messageBits, List.flatMap_append, List.flatMap_singleton, messageBits]

theorem messageBits_length (words : List (BitVec w)) :
    (messageBits words).length = w * words.length := by
  induction words with
  | nil => rfl
  | cons word words ih =>
      rw [messageBits, List.flatMap_cons, List.length_append, wordBits_length, List.length_cons,
        Nat.mul_succ, Nat.add_comm]
      exact congrArg (· + w) ih

/-- **The register after a message**: the message behind the first register, moved on by one word. -/
theorem value_crc (init : BitVec w) (words : List (BitVec w)) :
    value g (crc g init words) =
      AdjoinRoot.root (divisor g) ^ (w * words.length) * value g init +
        AdjoinRoot.root (divisor g) ^ w * AdjoinRoot.mk (divisor g) (ofBits (messageBits words)) := by
  induction words using List.reverseRecOn with
  | nil =>
      rw [crc, messageBits, List.flatMap_nil, ofBits, map_zero, mul_zero, add_zero, List.length_nil,
        Nat.mul_zero, pow_zero, one_mul]
      rfl
  | append_singleton words word ih =>
      have last : crc g init (words ++ [word]) = feed g (crc g init words) word := by
        rw [crc, List.foldl_append]
        rfl
      rw [last, feed, value_shifts, value_xor, ih, messageBits_concat, ofBits_append, wordBits_length,
        map_add, map_mul, map_pow, AdjoinRoot.mk_X, List.length_append, List.length_singleton,
        Nat.mul_succ, pow_add, value, value]
      ring

/-- **The register is the remainder of the message.** -/
theorem crc_eq_modByMonic (init : BitVec w) (words : List (BitVec w)) :
    ofBits (wordBits (crc g init words)) =
      (X ^ (w * words.length) * ofBits (wordBits init) + X ^ w * ofBits (messageBits words)) %ₘ
        divisor g := by
  have congruent : AdjoinRoot.mk (divisor g) (ofBits (wordBits (crc g init words))) =
      AdjoinRoot.mk (divisor g)
        (X ^ (w * words.length) * ofBits (wordBits init) + X ^ w * ofBits (messageBits words)) := by
    rw [map_add, map_mul, map_mul, map_pow, map_pow, AdjoinRoot.mk_X]
    exact value_crc g init words
  have small : (ofBits (wordBits (crc g init words))).degree < (divisor g).degree := by
    rw [degree_divisor]
    exact degree_wordBits_lt _
  rw [← (modByMonic_eq_self_iff (divisor_monic g)).mpr small]
  exact modByMonic_eq_of_dvd_sub (divisor_monic g) (AdjoinRoot.mk_eq_mk.mp congruent)

/-! ### Frames -/

/-- A remainder is its own negative. -/
theorem add_eq_zero_iff_eq {a b : AdjoinRoot (divisor g)} : a + b = 0 ↔ a = b := by
  have twice : b + b = 0 := by
    obtain ⟨p, rfl⟩ := AdjoinRoot.mk_surjective b
    rw [← map_add, CharTwo.add_self_eq_zero, map_zero]
  rw [← twice, add_left_inj]

/-- A frame is accepted: its last word is the register after the others. -/
def Accepts (init : BitVec w) (words : List (BitVec w)) (last : BitVec w) : Prop :=
  crc g init words = last

/-- A frame is accepted when it is a multiple of the divisor, behind the first register. -/
theorem accepts_iff (init : BitVec w) (words : List (BitVec w)) (last : BitVec w) :
    Accepts g init words last ↔
      AdjoinRoot.root (divisor g) ^ (w * words.length) * value g init +
        AdjoinRoot.mk (divisor g) (ofBits (messageBits (words ++ [last]))) = 0 := by
  have frame : AdjoinRoot.mk (divisor g) (ofBits (messageBits (words ++ [last]))) =
      AdjoinRoot.root (divisor g) ^ w * AdjoinRoot.mk (divisor g) (ofBits (messageBits words)) +
        value g last := by
    rw [messageBits_concat, ofBits_append, wordBits_length, map_add, map_mul, map_pow, AdjoinRoot.mk_X,
      mul_comm, value]
  rw [frame, ← add_assoc, ← value_crc, add_eq_zero_iff_eq]
  exact ⟨congrArg (value g), value_injective g⟩

/-- **What is not detected.** A frame that differs from an accepted one is accepted when the
difference is a multiple of the divisor. -/
theorem accepts_iff_dvd {init last last' : BitVec w} {words words' : List (BitVec w)}
    (same : words.length = words'.length) (sent : Accepts g init words last) :
    Accepts g init words' last' ↔ divisor g ∣
      ofBits (List.zipWith xor (messageBits (words ++ [last])) (messageBits (words' ++ [last']))) := by
  have lengths : (messageBits (words ++ [last])).length = (messageBits (words' ++ [last'])).length := by
    rw [messageBits_length, messageBits_length, List.length_append, List.length_append, same]
    rfl
  rw [accepts_iff] at sent ⊢
  rw [← AdjoinRoot.mk_eq_zero, ofBits_xor lengths, map_add, ← (add_eq_zero_iff_eq g).mp sent, same]

end Divisor

/-! ### Errors that are detected -/

section Errors

variable {g : BitVec w} {bits : List Bool}

/-- With a last coefficient, the divisor does not go with a power of `X`. -/
theorem dvd_of_dvd_mul_X_pow (constant : g.getLsbD 0 = true) {p : (ZMod 2)[X]} {n : Nat}
    (multiple : divisor g ∣ p * X ^ n) : divisor g ∣ p := by
  have positive : w ≠ 0 := by
    rintro rfl
    rw [BitVec.getLsbD_of_ge g 0 (Nat.le_refl _)] at constant
    cases constant
  have apart : ¬ X ∣ divisor g := by
    rw [X_dvd_iff, divisor, coeff_add, coeff_X_pow, if_neg positive.symm, coeff_wordBits, constant]
    decide
  have coprime : IsCoprime (divisor g) (X ^ n) :=
    (irreducible_X.coprime_iff_not_dvd.mpr apart).symm.pow_right
  exact coprime.dvd_of_dvd_mul_right multiple

/-- **A burst** that is not longer than the register is detected. -/
theorem not_dvd_burst (constant : g.getLsbD 0 = true) (before after : Nat) {burst : List Bool}
    (short : burst.length ≤ w) (some : true ∈ burst) :
    ¬ divisor g ∣ ofBits (List.replicate before false ++ burst ++ List.replicate after false) := by
  intro multiple
  rw [ofBits_append, ofBits_append, ofBits_replicate_false, ofBits_replicate_false, zero_mul, zero_add,
    add_zero, List.length_replicate] at multiple
  have small : (ofBits burst).degree < (divisor g).degree := by
    rw [degree_divisor]
    exact lt_of_lt_of_le (degree_ofBits_lt burst) (Nat.cast_le.mpr short)
  have zero := eq_zero_of_dvd_of_degree_lt (dvd_of_dvd_mul_X_pow constant multiple) small
  exact ofBits_eq_zero.mp zero some

/-- **An odd number of wrong bits** is detected when the divisor has an even number of terms. -/
theorem not_dvd_odd (terms : (wordBits g).count true % 2 = 1) (odd : bits.count true % 2 = 1) :
    ¬ divisor g ∣ ofBits bits := by
  rintro ⟨quotient, product⟩
  have parity : ∀ n : Nat, n % 2 = 1 → (n : ZMod 2) = 1 := fun n one => by
    rw [← Nat.cast_one (R := ZMod 2), ZMod.natCast_eq_natCast_iff]
    exact one
  have divisor_eval : (divisor g).eval 1 = 0 := by
    rw [divisor, eval_add, eval_pow, eval_X, one_pow, eval_ofBits, parity _ terms]
    decide
  have eval := congrArg (Polynomial.eval 1) product
  rw [eval_mul, divisor_eval, zero_mul, eval_ofBits, parity _ odd] at eval
  exact absurd eval (by decide)

theorem ofBits_wordBits_one (positive : 0 < w) : ofBits (wordBits (1#w)) = 1 := by
  ext i
  rw [coeff_wordBits, BitVec.getLsbD_one, coeff_one, bitCoeff]
  cases i with
  | zero => simp [positive]
  | succ i => simp

/-- **Two wrong bits** are detected when the register does not come back to where it was in the
distance between them. -/
theorem not_dvd_two (constant : g.getLsbD 0 = true) {between : Nat}
    (returns : (shift g)^[between + 1] 1#w ≠ 1#w) (before after : Nat) :
    ¬ divisor g ∣ ofBits (List.replicate before false ++
      true :: (List.replicate between false ++ true :: List.replicate after false)) := by
  intro multiple
  have positive : 0 < w := by
    rcases Nat.eq_zero_or_pos w with rfl | positive
    · exact absurd (BitVec.eq_of_zero_length rfl) returns
    · exact positive
  have two : ofBits (List.replicate before false ++
      true :: (List.replicate between false ++ true :: List.replicate after false)) =
        (X ^ (between + 1) + 1) * X ^ after := by
    rw [ofBits_append, ofBits_replicate_false, zero_mul, zero_add, ofBits, ofBits_append,
      ofBits_replicate_false, zero_mul, zero_add, ofBits, ofBits_replicate_false, add_zero,
      List.length_append, List.length_cons, List.length_replicate, List.length_replicate, bitCoeff,
      if_pos rfl, C_1]
    ring
  rw [two] at multiple
  have power := AdjoinRoot.mk_eq_zero.mpr (dvd_of_dvd_mul_X_pow constant multiple)
  rw [map_add, map_pow, AdjoinRoot.mk_X, map_one, add_eq_zero_iff_eq] at power
  have unit : value g 1#w = 1 := by
    rw [value, ofBits_wordBits_one positive, map_one]
  refine returns (value_injective g ?_)
  rw [value_shifts, power, one_mul]

/-- The first bit that is set. -/
theorem split_first (some : true ∈ bits) :
    ∃ before rest, bits = List.replicate before false ++ true :: rest := by
  induction bits with
  | nil => exact absurd some List.not_mem_nil
  | cons b bits ih =>
      cases b with
      | true => exact ⟨0, bits, rfl⟩
      | false =>
          obtain ⟨before, rest, split⟩ := ih (List.mem_of_ne_of_mem Bool.noConfusion some)
          exact ⟨before + 1, rest, congrArg (List.cons false) split⟩

/-- No bit is set. -/
theorem eq_replicate_of_count (none : bits.count true = 0) : bits = List.replicate bits.length false :=
  List.eq_replicate_of_mem fun b member => by
    cases b with
    | false => rfl
    | true => exact absurd (List.count_pos_iff.mpr member) (none ▸ Nat.lt_irrefl 0)

/-- Two bits are set. -/
theorem split_two (two : bits.count true = 2) :
    ∃ before between after, bits = List.replicate before false ++
      true :: (List.replicate between false ++ true :: List.replicate after false) := by
  obtain ⟨before, rest, rfl⟩ := split_first (List.count_pos_iff.mp (by omega : 0 < bits.count true))
  have one : rest.count true = 1 := by
    rw [List.count_append, List.count_cons_self, List.count_replicate] at two
    simpa using two
  obtain ⟨between, last, rfl⟩ := split_first (List.count_pos_iff.mp (by omega : 0 < rest.count true))
  have zero : last.count true = 0 := by
    rw [List.count_append, List.count_cons_self, List.count_replicate] at one
    simpa using one
  exact ⟨before, between, last.length, by rw [← eq_replicate_of_count zero]⟩

/-- Errors that a checksum of `w` bits is there for, in a frame of at most `most` bits. -/
inductive SmallError (w most : Nat) : List Bool → Prop where
  | burst (before after : Nat) {burst : List Bool} (short : burst.length ≤ w) (some : true ∈ burst) :
      SmallError w most (List.replicate before false ++ burst ++ List.replicate after false)
  | odd {bits : List Bool} (odd : bits.count true % 2 = 1) : SmallError w most bits
  | two {bits : List Bool} (short : bits.length ≤ most) (two : bits.count true = 2) :
      SmallError w most bits

/-- **Small errors are detected.** -/
theorem SmallError.not_dvd {most : Nat} (constant : g.getLsbD 0 = true)
    (terms : (wordBits g).count true % 2 = 1)
    (returns : ∀ distance, 0 < distance → distance < most → (shift g)^[distance] 1#w ≠ 1#w)
    (error : SmallError w most bits) : ¬ divisor g ∣ ofBits bits := by
  cases error with
  | burst before after short some => exact not_dvd_burst constant before after short some
  | odd odd => exact not_dvd_odd terms odd
  | two short two =>
      obtain ⟨before, between, after, rfl⟩ := split_two two
      have near : between + 1 < most := by
        simp only [List.length_append, List.length_cons, List.length_replicate] at short
        omega
      exact not_dvd_two constant (returns _ (Nat.succ_pos _) near) before after

end Errors

end Register

end YosStm32.Lib
