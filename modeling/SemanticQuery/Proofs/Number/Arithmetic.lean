/-
This file shows that products and quotients of doubles are the doubles whose intervals have the exact
results.
-/

import SemanticQuery.Proofs.Number.Stored

namespace SemanticQuery

open Float.Model (Format UnpackedFloat totalExponent)
open Float.Model.UnpackedFloat

variable {first second : Float} {left right result : Dyadic}

/-- The size of a dyadic number is its value without its sign. -/
def Dyadic.size (number : Dyadic) : ℚ := number.significand * 2 ^ number.exponent

/-- A product is the double whose interval has the exact product. -/
theorem magnitude_mul (finite : magnitude first = .finite left)
    (finite' : magnitude second = .finite right) (some : 0 < left.significand)
    (some' : 0 < right.significand) (stored : result.IsStored)
    (covers : result.Covers (left.size * right.size))
    (signed : result.sign = left.sign * right.sign) :
    magnitude (first * second) = .finite result := by
  have storedLeft := isStored_of_magnitude finite
  have storedRight := isStored_of_magnitude finite'
  change magnitude (.ofModel (.pack (mul Format.binary64 first.toModel.unpack
    second.toModel.unpack))) = _
  have rounded := @roundWithAccuracy_eq (left.significand * right.significand)
    (left.exponent + right.exponent) .exact _ result stored covers
    (.inl (Nat.mul_pos some some')) ?_ ?_
  · rw [unpack_eq finite, unpack_eq finite', Dyadic.unpacked, Dyadic.unpacked,
      dif_neg some.ne', dif_neg some'.ne']
    unfold mul
    dsimp only
    rw [← signed, rounded, magnitude_pack stored]
  · -- The product of two significands is only short if both doubles are small.
    have wide : 52 ≤ (left.significand * right.significand).log2 ∨
        left.exponent + right.exponent ≤ -1074 := by
      rw [Nat.le_log2 (Nat.mul_pos some some').ne']
      rcases storedLeft.normal with normal | least
      · exact .inl (normal.trans (Nat.le_mul_of_pos_right _ some'))
      · rcases storedRight.normal with normal | least'
        · exact .inl (normal.trans (Nat.le_mul_of_pos_left _ some))
        · exact .inr (by omega)
    omega
  · rw [Approximates, Dyadic.size, Dyadic.size, zpow_add₀ two_ne_zero, div_eq_iff
      (mul_pos (zpow_pos two_pos _) (zpow_pos two_pos _)).ne']
    push_cast
    ring

/-- The quotient of natural numbers is found by a division with rest. -/
theorem approximates_div (dividend : Nat) {divisor : Nat} (some : 0 < divisor) :
    Approximates (dividend / divisor) ((dividend : ℚ) / divisor)
      (accuracyOfFraction (dividend % divisor) divisor) := by
  have positive : (0 : ℚ) < divisor := by exact_mod_cast some
  have split : (divisor : ℚ) * (dividend / divisor : Nat) + (dividend % divisor : Nat) = dividend := by
    exact_mod_cast Nat.div_add_mod dividend divisor
  have less : ((dividend % divisor : Nat) : ℚ) < divisor := by exact_mod_cast Nat.mod_lt _ some
  have quotient : (dividend : ℚ) / divisor =
      (dividend / divisor : Nat) + (dividend % divisor : Nat) / divisor := by
    rw [← split]
    field_simp
  rw [quotient, accuracyOfFraction]
  split_ifs with zero
  · rw [zero, Approximates]
    simp
  · have rest : (0 : ℚ) < (dividend % divisor : Nat) := by exact_mod_cast Nat.pos_of_ne_zero zero
    rcases order : compare (2 * (dividend % divisor)) divisor with _ | _ | _
    · have half : 2 * ((dividend % divisor : Nat) : ℚ) < divisor := by
        exact_mod_cast Nat.compare_eq_lt.1 order
      refine ⟨by linarith [div_pos rest positive], ?_⟩
      rw [add_lt_add_iff_left, div_lt_iff₀ positive]
      linarith
    · have half : 2 * ((dividend % divisor : Nat) : ℚ) = divisor := by
        exact_mod_cast Nat.compare_eq_eq.1 order
      rw [Approximates, add_right_inj, div_eq_iff positive.ne']
      linarith
    · have half : (divisor : ℚ) < 2 * ((dividend % divisor : Nat) : ℚ) := by
        exact_mod_cast Nat.compare_eq_gt.1 order
      refine ⟨?_, ?_⟩
      · rw [add_lt_add_iff_left, lt_div_iff₀ positive]
        linarith
      · rw [add_lt_add_iff_left, div_lt_one positive]
        exact less

/-- A quotient is the double whose interval has the exact quotient. -/
theorem magnitude_div (finite : magnitude first = .finite left)
    (finite' : magnitude second = .finite right) (some : 0 < left.significand)
    (some' : 0 < right.significand) (stored : result.IsStored)
    (covers : result.Covers (left.size / right.size))
    (signed : result.sign = left.sign / right.sign) :
    magnitude (first / second) = .finite result := by
  change magnitude (.ofModel (.pack (div Format.binary64 first.toModel.unpack
    second.toModel.unpack))) = _
  rw [unpack_eq finite, unpack_eq finite', Dyadic.unpacked, Dyadic.unpacked,
    dif_neg some.ne', dif_neg some'.ne']
  unfold div divCore
  dsimp only
  obtain ⟨target, isTarget⟩ : ∃ target, target =
    min (left.exponent - right.exponent) (Format.binary64.targetExponent
      (totalExponent left.significand left.exponent -
        totalExponent right.significand right.exponent)) := ⟨_, rfl⟩
  obtain ⟨shift, isShift⟩ : ∃ shift, shift = (left.exponent - right.exponent - target).toNat :=
    ⟨_, rfl⟩
  rw [← isTarget, ← isShift, Nat.shiftLeft_eq]
  -- The dividend is shifted so far that the quotient has enough bits.
  have wide : 52 ≤ (left.significand * 2 ^ shift / right.significand).log2 ∨ target ≤ -1074 := by
    by_cases small : target ≤ -1074
    · exact .inr small
    · have bits : 53 + right.significand.log2 ≤ left.significand.log2 + shift := by
        rw [Format.targetExponent, totalExponent, totalExponent,
          show Format.binary64.mantissaBits = 53 from rfl,
          show Format.binary64.minExponent = -1074 by decide] at isTarget
        omega
      have quotient : 2 ^ 52 ≤ left.significand * 2 ^ shift / right.significand := by
        rw [Nat.le_div_iff_mul_le some']
        calc 2 ^ 52 * right.significand
            ≤ 2 ^ 52 * 2 ^ (right.significand.log2 + 1) :=
              Nat.mul_le_mul_left _ Nat.lt_log2_self.le
          _ = 2 ^ (53 + right.significand.log2) := by ring
          _ ≤ 2 ^ (left.significand.log2 + shift) := Nat.pow_le_pow_right two_pos bits
          _ = 2 ^ left.significand.log2 * 2 ^ shift := pow_add ..
          _ ≤ left.significand * 2 ^ shift :=
              Nat.mul_le_mul_right _ (Nat.log2_self_le some.ne')
      exact .inl ((Nat.le_log2 (by omega)).2 quotient)
  rw [← signed, roundWithAccuracy_eq stored covers, magnitude_pack stored]
  · rcases wide with wide | small
    · exact .inl (Nat.pos_of_ne_zero fun zero => by simp [zero, Nat.log2] at wide)
    · exact .inr small
  · omega
  · have scaled : left.size / right.size / 2 ^ target =
        ((left.significand * 2 ^ shift : Nat) : ℚ) / right.significand := by
      have exponents : left.exponent = right.exponent + target + shift := by omega
      rw [Dyadic.size, Dyadic.size, exponents, zpow_add₀ two_ne_zero, zpow_add₀ two_ne_zero,
        zpow_natCast]
      have weight : (2 : ℚ) ^ right.exponent ≠ 0 := (zpow_pos two_pos _).ne'
      have weight' : (2 : ℚ) ^ target ≠ 0 := (zpow_pos two_pos _).ne'
      push_cast
      field_simp
    rw [scaled]
    exact approximates_div _ some'

/-- Only zero has zero in its interval. -/
theorem Dyadic.Covers.significand_of_zero {number : Dyadic} (covers : number.Covers 0) :
    number.significand = 0 := by
  have lower := covers.lower
  have weight : (0 : ℚ) < 2 ^ number.exponent := zpow_pos two_pos _
  have small : (number.significand : ℚ) < 1 := by
    have gap := halfGapBelow_le number
    have := nonpos_of_mul_nonpos_left lower weight
    linarith
  exact Nat.lt_one_iff.1 (by exact_mod_cast small)

/-- A natural number is shifted to the left until it has enough bits. -/
theorem round_natural {whole : Nat} (some : 0 < whole) (stored : result.IsStored)
    (covers : result.Covers whole) :
    Float.Model.UnpackedFloat.round Format.binary64 result.sign whole 0 = result.unpacked := by
  obtain ⟨shift, isShift⟩ :
      ∃ shift, shift = (0 - Format.binary64.targetExponent (totalExponent whole 0)).toNat := ⟨_, rfl⟩
  rw [Float.Model.UnpackedFloat.round, decreaseExponent]
  dsimp only
  rw [← isShift]
  rw [targetExponent_eq] at isShift
  have bits : (whole <<< shift).log2 = whole.log2 + shift := by
    have weight : 0 < 2 ^ shift := Nat.two_pow_pos shift
    rw [Nat.shiftLeft_eq, Nat.log2_eq_iff (Nat.mul_pos some weight).ne', pow_add, add_right_comm,
      pow_add]
    exact ⟨Nat.mul_le_mul_right _ (Nat.log2_self_le some.ne'),
      Nat.mul_lt_mul_of_pos_right Nat.lt_log2_self weight⟩
  refine roundWithAccuracy_eq stored covers (.inl ?_) ?_ ?_
  · rw [Nat.shiftLeft_eq]
    exact Nat.mul_pos some (Nat.two_pow_pos shift)
  · rw [bits]
    omega
  · rw [Approximates, Nat.shiftLeft_eq, zero_sub, zpow_neg, div_inv_eq_mul, zpow_natCast]
    push_cast
    rfl

/-- Natural numbers of 64 bits are rounded to doubles. -/
theorem magnitude_toFloat {number : UInt64} (stored : result.IsStored)
    (covers : result.Covers number.toNat) (positive : result.negative = false) :
    magnitude number.toFloat = .finite result := by
  have sign : result.sign = .positive := by
    rw [Dyadic.sign, positive]
    rfl
  have normalized :
      UnpackedFloat.normalize Format.binary64 (number.toNat : Int) 0 .positive =
        result.unpacked := by
    rw [UnpackedFloat.normalize]
    rcases Nat.eq_zero_or_pos number.toNat with zero | some
    · rw [zero, Nat.cast_zero] at covers
      rw [zero, Dyadic.unpacked, dif_pos covers.significand_of_zero, sign]
      rfl
    · have order : compare (number.toNat : Int) 0 = .gt :=
        Int.compare_eq_gt.2 (by exact_mod_cast some)
      rw [order, ← round_natural some stored covers, sign]
      rfl
  change magnitude (.ofModel (.pack
    (UnpackedFloat.normalize Format.binary64 (number.toNat : Int) 0 .positive))) = _
  rw [normalized, magnitude_pack stored]

/-- The sign of a double is turned around. -/
theorem magnitude_neg (finite : magnitude first = .finite left) :
    magnitude (-first) = .finite { left with negative := !left.negative } := by
  have stored := isStored_of_magnitude finite
  have turned : left.unpacked.neg = Dyadic.unpacked { left with negative := !left.negative } := by
    obtain ⟨negative, significand, exponent⟩ := left
    rw [Dyadic.unpacked, Dyadic.unpacked]
    dsimp only
    by_cases zero : significand = 0
    · rw [dif_pos zero, dif_pos zero]
      cases negative <;> rfl
    · rw [dif_neg zero, dif_neg zero]
      cases negative <;> rfl
  change magnitude (.ofModel (.pack (first.toModel.unpack.neg))) = _
  rw [unpack_eq finite, turned]
  exact magnitude_pack ⟨stored.fits, stored.least, stored.greatest, stored.normal⟩

end SemanticQuery
