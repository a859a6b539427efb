/-
This file shows that the arithmetic of doubles rounds to the nearest one. Every double has an interval
of rational numbers that are rounded to it, and the ends belong to it if the significand is even.
-/

import Mathlib.Algebra.Order.Field.Rat
import Mathlib.Data.Int.Log
import Mathlib.Data.Rat.Floor
import Mathlib.Tactic.Linarith
import Mathlib.Tactic.NormNum
import Mathlib.Tactic.Positivity
import Mathlib.Tactic.Ring
import SemanticQuery.Number.Shortest

namespace SemanticQuery

open Float.Model (Format totalExponent)
open Float.Model.UnpackedFloat

section Nearest

/-- Of two natural numbers that are equally near, the even one is the nearest. -/
structure IsNearest (whole : Nat) (value : ℚ) : Prop where
  lower : (whole : ℚ) - 1 / 2 ≤ value
  upper : value ≤ whole + 1 / 2
  even : value = whole - 1 / 2 ∨ value = whole + 1 / 2 → whole % 2 = 0

/-- The accuracy says where a number stands between its whole part and the next natural number. -/
def Approximates (whole : Nat) (value : ℚ) : Accuracy → Prop
  | .exact => value = whole
  | .inexact .lt => whole < value ∧ value < whole + 1 / 2
  | .inexact .eq => value = whole + 1 / 2
  | .inexact .gt => whole + 1 / 2 < value ∧ value < whole + 1

variable {whole : Nat} {value : ℚ} {accuracy : Accuracy}

theorem Approximates.bounds (approximates : Approximates whole value accuracy) :
    whole ≤ value ∧ value < whole + 1 := by
  rcases accuracy with _ | _ | _ | _ <;> simp only [Approximates] at approximates <;>
    constructor <;> linarith

/-- The whole part and the accuracy are enough to find the nearest natural number. -/
theorem isNearest_roundToNearestEven (approximates : Approximates whole value accuracy) :
    IsNearest (accuracy.roundToNearestEven whole) value := by
  rcases accuracy with _ | _ | _ | _ <;> simp only [Approximates] at approximates <;>
    simp only [Accuracy.roundToNearestEven]
  · exact ⟨by linarith, by linarith, by rintro (same | same) <;> linarith⟩
  · exact ⟨by linarith, by linarith, by rintro (same | same) <;> linarith⟩
  · -- Halfway between two numbers, the nearest one is even.
    rcases Nat.mod_two_eq_zero_or_one whole with last | last <;> rw [last]
    · exact ⟨by push_cast; linarith, by push_cast; linarith, fun _ => by omega⟩
    · exact ⟨by push_cast; linarith, by push_cast; linarith, fun _ => by omega⟩
  · refine ⟨by push_cast; linarith, by push_cast; linarith, ?_⟩
    rintro (same | same) <;> push_cast at same <;> linarith

/-- Only one natural number is the nearest one. -/
theorem IsNearest.unique {first second : Nat} (isNearest : IsNearest first value)
    (isNearest' : IsNearest second value) : first = second := by
  -- Two of them would be one apart, so that one of them would be odd.
  have apart : ∀ {low high : Nat}, IsNearest low value → IsNearest high value → ¬low < high := by
    intro low high isLow isHigh less
    have next : (low : ℚ) + 1 ≤ high := by exact_mod_cast less
    have close := isLow.upper
    have close' := isHigh.lower
    have even := isLow.even (.inr (by linarith))
    have even' := isHigh.even (.inl (by linarith))
    have same : high = low + 1 := by
      have : (high : ℚ) ≤ (low + 1 : Nat) := by push_cast; linarith
      exact Nat.le_antisymm (by exact_mod_cast this) less
    omega
  exact Nat.le_antisymm (not_lt.1 (apart isNearest' isNearest)) (not_lt.1 (apart isNearest isNearest'))

/-- Every number that is not negative has a whole part and an accuracy. -/
theorem exists_approximates (notNegative : 0 ≤ value) :
    ∃ whole accuracy, Approximates whole value accuracy := by
  have lower : (⌊value⌋₊ : ℚ) ≤ value := Nat.floor_le notNegative
  have upper := Nat.lt_floor_add_one value
  rcases lower.eq_or_lt with same | above
  · exact ⟨_, .exact, same.symm⟩
  · rcases lt_trichotomy value (⌊value⌋₊ + 1 / 2) with less | same | more
    · exact ⟨_, .inexact .lt, above, less⟩
    · exact ⟨_, .inexact .eq, same⟩
    · exact ⟨_, .inexact .gt, more, upper⟩

/-- One more bit is taken away without a loss of accuracy. -/
theorem approximates_shiftRightOne {extended : ExtendedMantissa}
    (approximates : Approximates extended.mantissa value extended.accuracy) :
    Approximates extended.shiftRightOne.mantissa (value / 2) extended.shiftRightOne.accuracy := by
  obtain ⟨mantissa, round, sticky⟩ := extended
  have split : ((mantissa % 2 : Nat) : ℚ) + 2 * (mantissa / 2 : Nat) = mantissa := by
    exact_mod_cast Nat.mod_add_div mantissa 2
  rcases Nat.mod_two_eq_zero_or_one mantissa with last | last <;> rw [last] at split <;>
    cases round <;> cases sticky <;>
    simp only [ExtendedMantissa.shiftRightOne, ExtendedMantissa.accuracy, Approximates, last,
      bne_self_eq_false, Bool.or_self, Bool.or_true, Bool.or_false, Nat.cast_zero, Nat.cast_one,
      show ((1 : Nat) != 0) = true from rfl] at approximates split ⊢ <;>
    first
      | linarith
      | constructor <;> linarith

theorem approximates_shiftRight {extended : ExtendedMantissa}
    (approximates : Approximates extended.mantissa value extended.accuracy) (count : Nat) :
    Approximates (extended >>> count).mantissa (value / 2 ^ count)
      (extended >>> count).accuracy := by
  change Approximates (count.repeat ExtendedMantissa.shiftRightOne extended).mantissa _
    (count.repeat ExtendedMantissa.shiftRightOne extended).accuracy
  induction count with
  | zero => simpa [Nat.repeat] using approximates
  | succ count inductionHypothesis =>
      rw [Nat.repeat, pow_succ, ← div_div]
      exact approximates_shiftRightOne inductionHypothesis

theorem accuracy_ofMantissaAndAccuracy (mantissa : Nat) (accuracy : Accuracy) :
    (ExtendedMantissa.ofMantissaAndAccuracy mantissa accuracy).accuracy = accuracy ∧
      (ExtendedMantissa.ofMantissaAndAccuracy mantissa accuracy).mantissa = mantissa := by
  rcases accuracy with _ | _ | _ | _ <;> exact ⟨rfl, rfl⟩

end Nearest

namespace Dyadic

/-- The significand of a stored double has 53 bits, or the exponent is the least one. -/
structure IsStored (number : Dyadic) : Prop where
  fits : number.significand < 2 ^ 53
  least : -1074 ≤ number.exponent
  greatest : number.exponent ≤ 971
  normal : 2 ^ 52 ≤ number.significand ∨ number.exponent = -1074

/-- The double covers the numbers up to half of the way to the next double on both sides, whatever its
sign. The doubles below a power of two are twice as dense. -/
structure Covers (number : Dyadic) (value : ℚ) : Prop where
  lower : (number.significand - Decimal.halfGapBelow number.significand number.exponent / 4 : ℚ) *
    2 ^ number.exponent ≤ value
  upper : value ≤ (number.significand + 1 / 2 : ℚ) * 2 ^ number.exponent
  even : value = (number.significand -
      Decimal.halfGapBelow number.significand number.exponent / 4 : ℚ) * 2 ^ number.exponent ∨
    value = (number.significand + 1 / 2 : ℚ) * 2 ^ number.exponent → number.significand % 2 = 0

end Dyadic

section Rounding

variable {mantissa : Nat} {exponent : Int} {accuracy : Accuracy} {value : ℚ}

/-- The first bit of the mantissa says between which powers of two the number is. Nothing below the
least exponent counts. -/
theorem between_powers (high : 0 < mantissa ∨ exponent ≤ -1074)
    (approximates : Approximates mantissa (value / 2 ^ exponent) accuracy) :
    ((2 : ℚ) ^ (mantissa.log2 + exponent) ≤ value ∨ mantissa.log2 + exponent ≤ -1074) ∧
      value < 2 ^ (mantissa.log2 + exponent + 1) := by
  have weight : (0 : ℚ) < 2 ^ exponent := zpow_pos two_pos exponent
  obtain ⟨lower, upper⟩ := approximates.bounds
  rw [le_div_iff₀ weight] at lower
  rw [div_lt_iff₀ weight] at upper
  have next : (mantissa : ℚ) + 1 ≤ 2 ^ (mantissa.log2 + 1) := by
    exact_mod_cast Nat.lt_log2_self (n := mantissa)
  refine ⟨?_, ?_⟩
  · rcases Nat.eq_zero_or_pos mantissa with rfl | some
    · exact .inr (by simpa using high)
    · have first : (2 : ℚ) ^ mantissa.log2 ≤ mantissa := by
        exact_mod_cast Nat.log2_self_le (Nat.ne_of_gt some)
      rw [zpow_add₀ two_ne_zero, zpow_natCast]
      exact .inl ((mul_le_mul_of_nonneg_right first weight.le).trans lower)
  · rw [add_right_comm, zpow_add₀ two_ne_zero, ← Nat.cast_succ, zpow_natCast]
    exact upper.trans_le (mul_le_mul_of_nonneg_right next weight.le)

theorem targetExponent_eq (mantissa : Nat) (exponent : Int) :
    Format.binary64.targetExponent (totalExponent mantissa exponent) =
      max (mantissa.log2 + exponent - 52) (-1074) := by
  have least : Format.binary64.minExponent = -1074 := by decide
  have bits : Format.binary64.mantissaBits = 53 := by decide
  rw [Format.targetExponent, totalExponent, least, bits]
  omega

/-- The exponents of powers of two are in the same order. -/
theorem lt_of_zpow_lt {first second : Int} (less : (2 : ℚ) ^ first < 2 ^ second) : first < second :=
  (zpow_lt_zpow_iff_right₀ one_lt_two).1 less

variable {number : Dyadic}

theorem halfGapBelow_eq (number : Dyadic) :
    Decimal.halfGapBelow number.significand number.exponent =
      if number.significand = 2 ^ 52 ∧ number.exponent ≠ -1074 then 1 else 2 := rfl

theorem halfGapBelow_le (number : Dyadic) :
    (Decimal.halfGapBelow number.significand number.exponent : ℚ) ≤ 2 := by
  rw [halfGapBelow_eq]
  split <;> norm_num

/-- A number just below a power of two is rounded up to it from the exponent below. -/
theorem isNearest_of_covers_below (covers : number.Covers value) {power : Int}
    (lower : (2 : ℚ) ^ power ≤ value ∨ power ≤ -1074) (upper : value < 2 ^ (power + 1))
    (boundary : number.significand = 2 ^ 52 ∧ number.exponent ≠ -1074)
    (least : -1074 ≤ number.exponent) (below : value < 2 ^ 52 * 2 ^ number.exponent) :
    max (power - 52) (-1074) = number.exponent - 1 ∧
      IsNearest (2 ^ 53) (value / 2 ^ (number.exponent - 1)) := by
  have half : (2 : ℚ) ^ number.exponent = 2 * 2 ^ (number.exponent - 1) := by
    rw [mul_comm, ← zpow_add_one₀ two_ne_zero, sub_add_cancel]
  have weight : (0 : ℚ) < 2 ^ (number.exponent - 1) := zpow_pos two_pos _
  have start := covers.lower
  rw [halfGapBelow_eq, if_pos boundary, boundary.1] at start
  norm_num at start
  have first : power < 52 + number.exponent := by
    rcases lower with lower | small
    · refine lt_of_zpow_lt (lower.trans_lt ?_)
      rw [zpow_add₀ two_ne_zero]
      exact mod_cast below
    · omega
  have second : (2 : ℚ) ^ (51 + number.exponent) < 2 ^ (power + 1) := by
    refine lt_of_lt_of_le' upper ?_
    rw [zpow_add₀ two_ne_zero]
    norm_num
    linarith
  have exponents := lt_of_zpow_lt second
  refine ⟨by omega, ?_, ?_, fun _ => by norm_num⟩
  · rw [le_div_iff₀ weight]
    norm_num
    linarith
  · rw [div_le_iff₀ weight]
    norm_num
    linarith

/-- Every other number is rounded at the exponent of the double itself. -/
theorem isNearest_of_covers (stored : number.IsStored) (covers : number.Covers value) {power : Int}
    (lower : (2 : ℚ) ^ power ≤ value ∨ power ≤ -1074) (upper : value < 2 ^ (power + 1))
    (notBelow : number.significand = 2 ^ 52 ∧ number.exponent ≠ -1074 →
      2 ^ 52 * 2 ^ number.exponent ≤ value) :
    max (power - 52) (-1074) = number.exponent ∧
      IsNearest number.significand (value / 2 ^ number.exponent) := by
  have weight : (0 : ℚ) < 2 ^ number.exponent := zpow_pos two_pos _
  obtain ⟨start, finish, even⟩ := covers
  rw [halfGapBelow_eq] at start even
  have fits : (number.significand : ℚ) + 1 ≤ 2 ^ 53 := by exact_mod_cast stored.fits
  -- The interval of a regular double is symmetric, and that of a power of two only loses its lower
  -- half here.
  have half : ((number.significand : ℚ) - 1 / 2) * 2 ^ number.exponent ≤ value := by
    by_cases boundary : number.significand = 2 ^ 52 ∧ number.exponent ≠ -1074
    · have above := notBelow boundary
      rw [boundary.1]
      push_cast
      linarith
    · rw [if_neg boundary] at start
      norm_num at start ⊢
      exact start
  have least := stored.least
  have notAbove : power < 53 + number.exponent := by
    rcases lower with lower | small
    · refine lt_of_zpow_lt (lower.trans_lt (finish.trans_lt ?_))
      rw [zpow_add₀ two_ne_zero]
      exact mul_lt_mul_of_pos_right (by norm_num at fits ⊢; linarith) weight
    · omega
  refine ⟨?_, ?_, ?_, ?_⟩
  · rcases stored.normal with normal | subnormal
    · have high : number.exponent = -1074 ∨ (2 : ℚ) ^ (52 + number.exponent) ≤ value := by
        by_cases subnormal : number.exponent = -1074
        · exact .inl subnormal
        · refine .inr ?_
          rw [zpow_add₀ two_ne_zero]
          rcases Nat.eq_or_lt_of_le normal with equal | more
          · exact_mod_cast notBelow ⟨equal.symm, subnormal⟩
          · have next : (2 ^ 52 : ℚ) + 1 ≤ number.significand := by
              exact_mod_cast Nat.succ_le_of_lt more
            refine le_trans (mul_le_mul_of_nonneg_right ?_ weight.le) half
            rw [zpow_ofNat]
            linarith
      rcases high with subnormal | high
      · omega
      · have := lt_of_zpow_lt (high.trans_lt upper)
        omega
    · omega
  · rw [le_div_iff₀ weight]
    exact half
  · rw [div_le_iff₀ weight]
    exact finish
  · rintro (same | same)
    · rw [div_eq_iff weight.ne'] at same
      by_cases boundary : number.significand = 2 ^ 52 ∧ number.exponent ≠ -1074
      · have above := notBelow boundary
        rw [same, boundary.1] at above
        push_cast at above
        linarith
      · refine even (.inl ?_)
        rw [if_neg boundary, same]
        norm_num
    · rw [div_eq_iff weight.ne'] at same
      exact even (.inr same)

/-- The double is an unpacked one with its sign. -/
def Dyadic.sign (number : Dyadic) : Sign :=
  if number.negative then .negative else .positive

/-- Zero has a form of its own among the unpacked doubles. -/
def Dyadic.unpacked (number : Dyadic) : Float.Model.UnpackedFloat :=
  if zero : number.significand = 0 then .zero number.sign
  else .finite number.sign number.significand number.exponent (Nat.pos_of_ne_zero zero)

/-- The mantissa is shifted to the target exponent and rounded there. -/
theorem shiftToTargetExponent_eq {target : Int} (low : exponent ≤ target)
    (atTarget : max (mantissa.log2 + exponent - 52) (-1074) = target) :
    shiftToTargetExponent Format.binary64 mantissa exponent accuracy =
      (ExtendedMantissa.ofMantissaAndAccuracy mantissa accuracy >>> (target - exponent).toNat,
        target) := by
  rw [shiftToTargetExponent, targetExponent_eq, atTarget, shiftToExponent]
  refine Prod.ext rfl ?_
  dsimp only
  omega

theorem roundedMantissa_shiftRight {nearest : Nat} {target : Int} (low : exponent ≤ target)
    (approximates : Approximates mantissa (value / 2 ^ exponent) accuracy)
    (isNearest : IsNearest nearest (value / 2 ^ target)) :
    (ExtendedMantissa.ofMantissaAndAccuracy mantissa accuracy >>>
      (target - exponent).toNat).roundedMantissa = nearest := by
  have same := accuracy_ofMantissaAndAccuracy mantissa accuracy
  have start : Approximates (ExtendedMantissa.ofMantissaAndAccuracy mantissa accuracy).mantissa
      (value / 2 ^ exponent) (ExtendedMantissa.ofMantissaAndAccuracy mantissa accuracy).accuracy := by
    rw [same.1, same.2]
    exact approximates
  have shifted := approximates_shiftRight start (target - exponent).toNat
  rw [div_div, ← zpow_natCast, ← zpow_add₀ two_ne_zero,
    show exponent + ((target - exponent).toNat : Int) = target by omega] at shifted
  exact (isNearest_roundToNearestEven shifted).unique isNearest

/-- An operation whose result lies in the interval of a double gives that double. -/
theorem roundWithAccuracy_eq (stored : number.IsStored) (covers : number.Covers value)
    (high : 0 < mantissa ∨ exponent ≤ -1074)
    (low : exponent ≤ max (mantissa.log2 + exponent - 52) (-1074))
    (approximates : Approximates mantissa (value / 2 ^ exponent) accuracy) :
    roundWithAccuracy Format.binary64 number.sign mantissa exponent accuracy = number.unpacked := by
  obtain ⟨lower, upper⟩ := between_powers high approximates
  by_cases below : (number.significand = 2 ^ 52 ∧ number.exponent ≠ -1074) ∧
      value < 2 ^ 52 * 2 ^ number.exponent
  · -- The mantissa is rounded up to 54 bits, so that it is shifted once more.
    obtain ⟨target, isNearest⟩ :=
      isNearest_of_covers_below covers lower upper below.1 stored.least below.2
    rw [target] at low
    have again : max ((Nat.log2 (2 ^ 53) : Int) + (number.exponent - 1) - 52) (-1074) =
        number.exponent := by
      have := stored.least
      rw [Nat.log2_two_pow]
      omega
    rw [roundWithAccuracy, shiftToTargetExponent_eq low target]
    dsimp only
    rw [roundedMantissa_shiftRight low approximates isNearest,
      shiftToTargetExponent_eq (by omega) again,
      show (number.exponent - (number.exponent - 1)).toNat = 1 by omega, Dyadic.unpacked]
    obtain ⟨negative, significand, exponent⟩ := number
    obtain ⟨rfl, _⟩ := below.1
    rfl
  · obtain ⟨target, isNearest⟩ := isNearest_of_covers stored covers lower upper
      fun boundary => not_lt.1 fun less => below ⟨boundary, less⟩
    rw [target] at low
    have bits : number.significand.log2 < 53 ∨ number.significand = 0 := by
      rcases Nat.eq_zero_or_pos number.significand with zero | some
      · exact .inr zero
      · exact .inl ((Nat.log2_lt some.ne').2 stored.fits)
    have again : max ((number.significand.log2 : Int) + number.exponent - 52) (-1074) ≤
        number.exponent := by
      have := stored.least
      rcases bits with bits | zero
      · omega
      · rw [zero, show Nat.log2 0 = 0 from rfl]
        omega
    rw [roundWithAccuracy, shiftToTargetExponent_eq low target]
    dsimp only
    rw [roundedMantissa_shiftRight low approximates isNearest, shiftToTargetExponent,
      targetExponent_eq, shiftToExponent,
      show (max ((number.significand.log2 : Int) + number.exponent - 52) (-1074) -
        number.exponent).toNat = 0 by omega, Dyadic.unpacked]
    rw [Nat.cast_zero, Int.add_zero]
    rfl

/-- Zero has only one form apart from its sign. -/
theorem Dyadic.IsStored.exponent_of_zero (stored : number.IsStored)
    (zero : number.significand = 0) : number.exponent = -1074 :=
  stored.normal.resolve_left (by rw [zero]; decide)

/-- The intervals of two doubles have no number in common. -/
theorem Dyadic.Covers.unique {other : Dyadic} (covers : number.Covers value)
    (covers' : other.Covers value) (stored : number.IsStored) (stored' : other.IsStored)
    (notNegative : 0 ≤ value) (sameSign : number.negative = other.negative) : number = other := by
  obtain ⟨mantissa, accuracy, approximates⟩ :=
    exists_approximates (div_nonneg notNegative (zpow_pos two_pos (-1074)).le)
  have result := roundWithAccuracy_eq stored covers (.inr le_rfl) (le_max_right _ _) approximates
  have result' := roundWithAccuracy_eq stored' covers' (.inr le_rfl) (le_max_right _ _) approximates
  rw [Dyadic.sign, sameSign, ← Dyadic.sign, result', Dyadic.unpacked, Dyadic.unpacked] at result
  obtain ⟨negative, significand, exponent⟩ := number
  obtain ⟨negative', significand', exponent'⟩ := other
  obtain rfl : negative = negative' := sameSign
  dsimp only at result
  by_cases zero : significand = 0 <;> by_cases zero' : significand' = 0
  · have least := stored.exponent_of_zero zero
    have least' := stored'.exponent_of_zero zero'
    dsimp only at least least'
    rw [zero, zero', least, least']
  · rw [dif_neg zero', dif_pos zero] at result
    cases result
  · rw [dif_pos zero', dif_neg zero] at result
    cases result
  · rw [dif_neg zero', dif_neg zero] at result
    cases result
    rfl

/-- A number that is not too small has 53 bits at some exponent. -/
theorem exists_scale (notNegative : 0 ≤ value) :
    ∃ exponent : Int, -1074 ≤ exponent ∧ value < 2 ^ 53 * 2 ^ exponent ∧
      (exponent ≠ -1074 → 2 ^ 52 * 2 ^ exponent ≤ value) := by
  obtain ⟨power, lower, upper⟩ :
      ∃ power : Int, ((2 : ℚ) ^ power ≤ value ∨ power ≤ -1074) ∧ value < 2 ^ (power + 1) := by
    rcases notNegative.eq_or_lt with rfl | positive
    · exact ⟨-1074, .inr le_rfl, zpow_pos two_pos _⟩
    · exact ⟨Int.log 2 value, .inl (Int.zpow_log_le_self (by decide) positive),
        Int.lt_zpow_succ_log_self (by decide) value⟩
  refine ⟨max (power - 52) (-1074), le_max_right _ _, upper.trans_le ?_, fun regular => ?_⟩
  · rw [← zpow_ofNat, ← zpow_add₀ two_ne_zero]
    refine zpow_le_zpow_right₀ one_le_two ?_
    change power + 1 ≤ 53 + max (power - 52) (-1074)
    omega
  · have same : 52 + max (power - 52) (-1074) = power := by omega
    rw [← zpow_ofNat, ← zpow_add₀ two_ne_zero]
    exact same.symm ▸ lower.resolve_right (by omega)

/-- The nearest significand makes the double whose interval has the number. -/
theorem covers_of_isNearest {nearest : Nat} (isNearest : IsNearest nearest (value / 2 ^ exponent))
    (normal : exponent ≠ -1074 → 2 ^ 52 * 2 ^ exponent ≤ value) (negative : Bool) :
    Dyadic.Covers ⟨negative, nearest, exponent⟩ value := by
  have weight : (0 : ℚ) < 2 ^ exponent := zpow_pos two_pos exponent
  obtain ⟨start, finish, even⟩ := isNearest
  rw [le_div_iff₀ weight] at start
  rw [div_le_iff₀ weight] at finish
  rw [div_eq_iff weight.ne', div_eq_iff weight.ne'] at even
  refine ⟨?_, finish, ?_⟩ <;> rw [halfGapBelow_eq] <;> dsimp only
  · split
    · next boundary =>
        have := normal boundary.2
        rw [boundary.1]
        push_cast
        linarith
    · norm_num at start ⊢
      exact start
  · rintro (same | same)
    · split at same
      · next boundary =>
          rw [boundary.1]
          rfl
      · refine even (.inl ?_)
        rw [same]
        norm_num
    · exact even (.inr same)

/-- A significand that gets one bit too many is halved. -/
theorem covers_of_isNearest_top (isNearest : IsNearest (2 ^ 53) (value / 2 ^ exponent))
    (fits : value < 2 ^ 53 * 2 ^ exponent) (least : -1074 ≤ exponent) (negative : Bool) :
    Dyadic.Covers ⟨negative, 2 ^ 52, exponent + 1⟩ value := by
  have weight : (0 : ℚ) < 2 ^ exponent := zpow_pos two_pos exponent
  have double : (2 : ℚ) ^ (exponent + 1) = 2 * 2 ^ exponent := by
    rw [zpow_add_one₀ two_ne_zero, mul_comm]
  have start := isNearest.lower
  rw [le_div_iff₀ weight] at start
  refine ⟨?_, ?_, fun _ => by norm_num⟩
  · rw [halfGapBelow_eq, if_pos ⟨rfl, show exponent + 1 ≠ -1074 by omega⟩]
    dsimp only
    rw [double]
    push_cast at start ⊢
    linarith
  · dsimp only
    rw [double]
    push_cast
    linarith

/-- The numbers from here on are too large for a double. -/
def Dyadic.limit : ℚ := (2 ^ 53 - 1 / 2) * 2 ^ (971 : Int)

/-- Every number in the range of the doubles lies in the interval of one of them. -/
theorem exists_covers (negative : Bool) (notNegative : 0 ≤ value) (small : value < Dyadic.limit) :
    ∃ number : Dyadic, number.negative = negative ∧ number.IsStored ∧ number.Covers value := by
  rw [Dyadic.limit] at small
  obtain ⟨exponent, least, fits, normal⟩ := exists_scale notNegative
  have weight : (0 : ℚ) < 2 ^ exponent := zpow_pos two_pos exponent
  obtain ⟨whole, accuracy, approximates⟩ :=
    exists_approximates (div_nonneg notNegative weight.le)
  obtain ⟨nearest, isNearest⟩ : ∃ nearest, IsNearest nearest (value / 2 ^ exponent) :=
    ⟨_, isNearest_roundToNearestEven approximates⟩
  have start := isNearest.lower
  rw [le_div_iff₀ weight] at start
  have finish := isNearest.upper
  rw [div_le_iff₀ weight] at finish
  have greatest : exponent ≤ 971 := by
    by_cases regular : exponent = -1074
    · omega
    · have : (2 : ℚ) ^ (52 + exponent) < 2 ^ (53 + 971 : Int) := by
        rw [zpow_add₀ two_ne_zero, zpow_add₀ two_ne_zero]
        refine (normal regular).trans_lt (small.trans_le ?_)
        exact mul_le_mul_of_nonneg_right (by norm_num) (zpow_pos two_pos _).le
      have := lt_of_zpow_lt this
      omega
  have most : nearest ≤ 2 ^ 53 := by
    have : ((nearest : ℚ) - 1 / 2) < 2 ^ 53 := lt_of_mul_lt_mul_right (start.trans_lt fits) weight.le
    have : (nearest : ℚ) < (2 ^ 53 + 1 : Nat) := by push_cast; linarith
    exact Nat.lt_succ_iff.1 (by exact_mod_cast this)
  rcases most.eq_or_lt with rfl | fewer
  · have room : exponent + 1 ≤ 971 := by
      by_contra full
      have last : exponent = 971 := by omega
      rw [← last] at small
      exact absurd (start.trans_lt small) (by push_cast; exact lt_irrefl _)
    exact ⟨⟨negative, 2 ^ 52, exponent + 1⟩, rfl,
      ⟨by norm_num, show (-1074 : Int) ≤ exponent + 1 by omega, room, .inl le_rfl⟩,
      covers_of_isNearest_top isNearest fits least negative⟩
  · have isNormal : 2 ^ 52 ≤ nearest ∨ exponent = -1074 := by
      by_cases regular : exponent = -1074
      · exact .inr regular
      · have : (2 ^ 52 : ℚ) ≤ nearest + 1 / 2 :=
          le_of_mul_le_mul_right ((normal regular).trans finish) weight
        have : ((2 ^ 52 : Nat) : ℚ) < (nearest + 1 : Nat) := by push_cast; linarith
        exact .inl (Nat.lt_succ_iff.1 (by exact_mod_cast this))
    exact ⟨⟨negative, nearest, exponent⟩, rfl, ⟨fewer, least, greatest, isNormal⟩,
      covers_of_isNearest isNearest normal negative⟩

end Rounding

end SemanticQuery
