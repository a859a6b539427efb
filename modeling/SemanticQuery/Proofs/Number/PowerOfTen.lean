/-
This file shows that every power of ten is the double nearest to it. The first 23 powers are exact.
-/

import SemanticQuery.Json.Numeral
import SemanticQuery.Proofs.Number.Arithmetic

namespace SemanticQuery

open Float.Model (Format)
open Float.Model.UnpackedFloat

/-- A double lies in its own interval. -/
theorem Dyadic.covers_size (number : Dyadic) : number.Covers number.size := by
  have weight : (0 : ℚ) < 2 ^ number.exponent := zpow_pos two_pos _
  have gap : (0 : ℚ) < Decimal.halfGapBelow number.significand number.exponent := by
    rw [halfGapBelow_eq]
    split <;> norm_num
  refine ⟨mul_le_mul_of_nonneg_right (by linarith) weight.le,
    mul_le_mul_of_nonneg_right (by linarith) weight.le, ?_⟩
  rintro (same | same) <;> have := mul_right_cancel₀ weight.ne' same <;> linarith

/-- A number of at most 53 bits is the value of a double. -/
theorem exists_stored (negative : Bool) {significand : Nat} {exponent : Int}
    (some : 0 < significand) (fits : significand < 2 ^ 53) (least : -1074 ≤ exponent)
    (greatest : exponent ≤ 971) :
    ∃ number : Dyadic, number.negative = negative ∧ number.IsStored ∧
      number.size = significand * 2 ^ exponent := by
  obtain ⟨shift, isShift⟩ :
    ∃ shift, shift = min (52 - significand.log2) (exponent + 1074).toNat := ⟨_, rfl⟩
  have bits : significand.log2 < 53 := (Nat.log2_lt some.ne').2 fits
  refine ⟨⟨negative, significand * 2 ^ shift, exponent - shift⟩, rfl, ⟨?_, ?_, ?_, ?_⟩, ?_⟩
  · calc significand * 2 ^ shift
        < 2 ^ (significand.log2 + 1) * 2 ^ shift :=
          Nat.mul_lt_mul_of_pos_right Nat.lt_log2_self (Nat.two_pow_pos shift)
      _ = 2 ^ (significand.log2 + 1 + shift) := (pow_add ..).symm
      _ ≤ 2 ^ 53 := Nat.pow_le_pow_right two_pos (by omega)
  · exact show -1074 ≤ exponent - shift by omega
  · exact show exponent - shift ≤ 971 by omega
  · by_cases normal : shift = 52 - significand.log2
    · refine .inl ?_
      calc 2 ^ 52 = 2 ^ significand.log2 * 2 ^ shift := by rw [← pow_add]; congr 1; omega
        _ ≤ significand * 2 ^ shift := Nat.mul_le_mul_right _ (Nat.log2_self_le some.ne')
    · exact .inr (show exponent - shift = -1074 by omega)
  · rw [Dyadic.size, zpow_sub₀ two_ne_zero, zpow_natCast]
    have : (2 : ℚ) ^ shift ≠ 0 := by positivity
    push_cast
    field_simp

namespace Json.Numeral

/-- The powers of ten that have at most 53 bits are exact. -/
theorem magnitude_powerOfTen_exact : ∀ exponent : Fin 23,
    magnitude (powerOfTen exponent) = .finite ⟨false, 5 ^ exponent.val *
      2 ^ (52 - (5 ^ exponent.val).log2), exponent - (52 - (5 ^ exponent.val).log2 : Nat)⟩ := by
  decide +kernel

/-- The other powers are rounded once. -/
theorem ofScientific_one {exponent : Nat} (bounded : exponent ≤ 308) {result : Dyadic}
    (stored : result.IsStored) (covers : result.Covers (10 ^ exponent))
    (sign : result.sign = .positive) :
    ofScientific Format.binary64 1 exponent = result.unpacked := by
  have range : ¬(exponent : Int) > 2 ^ Format.binary64.exponentBits := by
    change ¬(exponent : Int) > 2 ^ 11
    omega
  have range' : ¬(exponent : Int) < -((2 ^ Format.binary64.exponentBits : Int) + Nat.log2 1) := by
    change ¬(exponent : Int) < -(2 ^ 11 + 0)
    omega
  have product : 1 <<< Format.binary64.mantissaBits * 10 ^ exponent = 2 ^ 53 * 10 ^ exponent := rfl
  have scale : -(Format.binary64.mantissaBits : Int) + 0 = -53 := rfl
  have wide : 53 ≤ (2 ^ 53 * 10 ^ exponent).log2 :=
    (Nat.le_log2 (by positivity)).2 (Nat.le_mul_of_pos_right _ (by positivity))
  have exact : Approximates (2 ^ 53 * 10 ^ exponent) (10 ^ exponent / 2 ^ (-53 : Int)) .exact := by
    rw [Approximates, zpow_neg, div_inv_eq_mul, zpow_ofNat, mul_comm]
    push_cast
    rfl
  rw [ofScientific, dif_neg one_ne_zero, if_neg range, if_neg range',
    if_pos (Int.natCast_nonneg _)]
  change roundWithAccuracy Format.binary64 .positive
    (1 <<< Format.binary64.mantissaBits * 10 ^ (exponent : Int).toNat)
    (-(Format.binary64.mantissaBits : Int) + 0) .exact = _
  rw [Int.toNat_natCast, product, scale,
    ← roundWithAccuracy_eq stored covers (.inl (by positivity)) (by omega) exact, sign]

/-- The power of ten is the double in whose interval it lies. -/
theorem magnitude_powerOfTen {exponent : Nat} (bounded : exponent ≤ 308) {result : Dyadic}
    (stored : result.IsStored) (covers : result.Covers (10 ^ exponent))
    (positive : result.negative = false) :
    magnitude (powerOfTen exponent) = .finite result := by
  rcases Nat.lt_or_ge exponent 23 with small | large
  · have exact := magnitude_powerOfTen_exact ⟨exponent, small⟩
    obtain ⟨shift, isShift⟩ : ∃ shift, shift = 52 - (5 ^ exponent).log2 := ⟨_, rfl⟩
    dsimp only at exact
    rw [← isShift] at exact
    have size : Dyadic.size ⟨false, 5 ^ exponent * 2 ^ shift, exponent - shift⟩ =
        10 ^ exponent := by
      rw [Dyadic.size, zpow_sub₀ two_ne_zero, zpow_natCast, zpow_natCast,
        show (10 : ℚ) = 5 * 2 by norm_num, mul_pow]
      push_cast
      field_simp
    rw [exact, Magnitude.finite.injEq]
    exact (size ▸ Dyadic.covers_size _).unique covers (isStored_of_magnitude exact) stored
      (by positivity) positive.symm
  · have sign : result.sign = .positive := by
      rw [Dyadic.sign, positive]
      rfl
    have slow : powerOfTen exponent =
        .ofModel (.pack (ofScientific Format.binary64 1 exponent)) := by
      rw [powerOfTen, Float.ofScientific, dif_neg (by omega)]
      rfl
    rw [slow, ofScientific_one bounded stored covers sign, magnitude_pack stored]

end Json.Numeral

end SemanticQuery
