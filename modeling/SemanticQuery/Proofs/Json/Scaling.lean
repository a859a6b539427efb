/-
This file shows what doubles are read from the digits of a number. A number whose digits and whose
power of ten are doubles is rounded once, and no number that a double is written as is too large.
-/

import SemanticQuery.Proofs.Json.Double
import SemanticQuery.Proofs.Number.Finite

namespace SemanticQuery

namespace Dyadic.Covers

variable {number : Dyadic} {value : ℚ}

/-- A double is at most twice as large as the numbers in its interval. -/
theorem size_le (covers : number.Covers value) (notNegative : 0 ≤ value) :
    number.size ≤ 2 * value := by
  have weight : (0 : ℚ) < 2 ^ number.exponent := zpow_pos two_pos _
  have lower := covers.lower
  have gap := halfGapBelow_le number
  rw [size]
  rcases Nat.eq_zero_or_pos number.significand with zero | some
  · rw [zero, Nat.cast_zero, zero_mul]
    exact mul_nonneg two_pos.le notNegative
  · have one : (1 : ℚ) ≤ number.significand := by exact_mod_cast some
    refine le_trans ?_ (mul_le_mul_of_nonneg_left lower two_pos.le)
    rw [← mul_assoc]
    exact mul_le_mul_of_nonneg_right (by linarith) weight.le

/-- The numbers in the interval of a double are at most twice as large, unless it is zero. -/
theorem le_size (covers : number.Covers value) (some : 0 < number.significand) :
    value ≤ 2 * number.size := by
  have weight : (0 : ℚ) < 2 ^ number.exponent := zpow_pos two_pos _
  have one : (1 : ℚ) ≤ number.significand := by exact_mod_cast some
  refine covers.upper.trans ?_
  rw [size, ← mul_assoc]
  exact mul_le_mul_of_nonneg_right (by linarith) weight.le

/-- A regular double is hardly larger than the numbers in its interval. -/
theorem size_le_of_one_le (covers : number.Covers value) (stored : number.IsStored)
    (one : 1 ≤ value) : number.size ≤ (1 + 1 / 2 ^ 52) * value := by
  have weight : (0 : ℚ) < 2 ^ number.exponent := zpow_pos two_pos _
  have gap := halfGapBelow_le number
  have normal : 2 ^ 52 ≤ number.significand := by
    refine stored.normal.resolve_right fun least => absurd (one.trans covers.upper) (not_le.2 ?_)
    have fits : (number.significand : ℚ) + 1 ≤ 2 ^ 53 := by exact_mod_cast stored.fits
    rw [least]
    calc (number.significand + 1 / 2 : ℚ) * 2 ^ (-1074 : Int)
        < 2 ^ (53 : Int) * 2 ^ (-1074 : Int) :=
          mul_lt_mul_of_pos_right (by rw [zpow_ofNat]; linarith) (zpow_pos two_pos _)
      _ = 2 ^ (-1021 : Int) := (zpow_add₀ two_ne_zero _ _).symm
      _ < 1 := zpow_lt_one_of_neg₀ one_lt_two (by decide)
  have most : (4503599627370496 : ℚ) ≤ number.significand := by exact_mod_cast normal
  have factor : (0 : ℚ) ≤ 1 + 1 / 2 ^ 52 := by positivity
  refine le_trans ?_ (mul_le_mul_of_nonneg_left covers.lower factor)
  rw [size, ← mul_assoc]
  refine mul_le_mul_of_nonneg_right ?_ weight.le
  calc (number.significand : ℚ)
      ≤ (1 + 1 / 2 ^ 52) * (number.significand - 1 / 2) := by
        norm_num
        linarith
    _ ≤ _ := mul_le_mul_of_nonneg_left (by linarith) factor

end Dyadic.Covers

theorem Dyadic.size_nonneg (number : Dyadic) : 0 ≤ number.size :=
  mul_nonneg (Nat.cast_nonneg _) (zpow_pos two_pos _).le

/-- The limit is a natural number. -/
theorem Dyadic.limit_eq : Dyadic.limit = ((2 ^ 54 - 1) * 2 ^ 970 : Nat) := by
  have double : (2 : ℚ) ^ (971 : Int) = 2 * 2 ^ 970 := by
    rw [zpow_ofNat]
    exact pow_succ' _ _
  rw [Dyadic.limit, double, Nat.cast_mul, Nat.cast_pow]
  generalize (2 : ℚ) ^ 970 = weight
  norm_num
  ring

theorem lt_limit {whole : Nat} (small : whole < (2 ^ 54 - 1) * 2 ^ 970) :
    (whole : ℚ) < Dyadic.limit := by
  rw [Dyadic.limit_eq]
  exact_mod_cast small

/-- The double is not negative, and the number is rounded to it. -/
structure IsRounded (double : Float) (exact : Dyadic) (value : ℚ) : Prop where
  finite : magnitude double = .finite exact
  positive : exact.negative = false
  covers : exact.Covers value

namespace IsRounded

variable {double other : Float} {exact exact' : Dyadic} {value value' : ℚ}

theorem stored (rounded : IsRounded double exact value) : exact.IsStored :=
  isStored_of_magnitude rounded.finite

theorem sign (rounded : IsRounded double exact value) : exact.sign = .positive := by
  rw [Dyadic.sign, rounded.positive]
  rfl

theorem isFinite (rounded : IsRounded double exact value) : double.isFinite = true :=
  (isFinite_iff double).2 ⟨exact, rounded.finite⟩

/-- A number that needs at most 53 bits is not changed. -/
theorem size_eq (rounded : IsRounded double exact value) {significand : Nat} (exponent : Int)
    (same : value = significand * 2 ^ exponent) (some : 0 < significand)
    (fits : significand < 2 ^ 53) (least : -1074 ≤ exponent) (greatest : exponent ≤ 971) :
    exact.size = value := by
  obtain ⟨number, positive, stored, size⟩ := exists_stored false some fits least greatest
  have covers : number.Covers value := by
    rw [same, ← size]
    exact number.covers_size
  have notNegative : 0 ≤ value := by
    rw [same]
    exact mul_nonneg (Nat.cast_nonneg _) (zpow_pos two_pos _).le
  rw [rounded.covers.unique covers rounded.stored stored notNegative
    (rounded.positive.trans positive.symm), size, same]

/-- Nothing but a very small number is rounded to zero. -/
theorem some (rounded : IsRounded double exact value) (large : 2 ^ (-1074 : Int) ≤ value) :
    0 < exact.significand := by
  refine Nat.pos_of_ne_zero fun zero => absurd (large.trans rounded.covers.upper) (not_le.2 ?_)
  have weight : (0 : ℚ) < 2 ^ (-1074 : Int) := zpow_pos two_pos _
  rw [rounded.stored.exponent_of_zero zero, zero, Nat.cast_zero]
  linarith

theorem some_of_one_le (rounded : IsRounded double exact value) (one : 1 ≤ value) :
    0 < exact.significand :=
  rounded.some ((zpow_le_one_of_nonpos₀ one_le_two (by decide)).trans one)

theorem toFloat (number : UInt64) : ∃ exact, IsRounded number.toFloat exact number.toNat := by
  have small : (number.toNat : ℚ) < Dyadic.limit :=
    lt_limit (number.toNat_lt.trans (by decide +kernel))
  obtain ⟨exact, positive, stored, covers⟩ := exists_covers false (Nat.cast_nonneg _) small
  exact ⟨exact, magnitude_toFloat stored covers positive, positive, covers⟩

theorem powerOfTen (exponent : Nat) (bounded : exponent ≤ 308) :
    ∃ exact, IsRounded (Json.Numeral.powerOfTen exponent) exact (10 ^ exponent) := by
  have small : (10 ^ exponent : ℚ) < Dyadic.limit := by
    have bound : 10 ^ exponent < (2 ^ 54 - 1) * 2 ^ 970 :=
      (Nat.pow_le_pow_right (by decide) bounded).trans_lt (by decide +kernel)
    exact_mod_cast lt_limit bound
  obtain ⟨exact, positive, stored, covers⟩ := exists_covers false (by positivity) small
  exact ⟨exact, Json.Numeral.magnitude_powerOfTen bounded stored covers positive, positive, covers⟩

/-- A product is rounded once. -/
theorem mul (rounded : IsRounded double exact value) (rounded' : IsRounded other exact' value')
    (some : 0 < exact.significand) (some' : 0 < exact'.significand)
    (small : exact.size * exact'.size < Dyadic.limit) :
    ∃ result, IsRounded (double * other) result (exact.size * exact'.size) := by
  have notNegative : 0 ≤ exact.size * exact'.size :=
    mul_nonneg exact.size_nonneg exact'.size_nonneg
  obtain ⟨result, positive, stored, covers⟩ := exists_covers false notNegative small
  have signed : result.sign = exact.sign * exact'.sign := by
    rw [rounded.sign, rounded'.sign, Dyadic.sign, positive]
    rfl
  exact ⟨result, magnitude_mul rounded.finite rounded'.finite some some' stored covers signed,
    positive, covers⟩

/-- A quotient is rounded once. -/
theorem div (rounded : IsRounded double exact value) (rounded' : IsRounded other exact' value')
    (some : 0 < exact.significand) (some' : 0 < exact'.significand)
    (small : exact.size / exact'.size < Dyadic.limit) :
    ∃ result, IsRounded (double / other) result (exact.size / exact'.size) := by
  have notNegative : 0 ≤ exact.size / exact'.size :=
    div_nonneg exact.size_nonneg exact'.size_nonneg
  obtain ⟨result, positive, stored, covers⟩ := exists_covers false notNegative small
  have signed : result.sign = exact.sign / exact'.sign := by
    rw [rounded.sign, rounded'.sign, Dyadic.sign, positive]
    rfl
  exact ⟨result, magnitude_div rounded.finite rounded'.finite some some' stored covers signed,
    positive, covers⟩

end IsRounded

namespace Json.Numeral

variable {significand : Nat} {power : Int}

/-- The whole number and the power of ten are doubles, so that only one operation rounds. The number
has at most 53 bits, apart from zeros behind them. -/
structure RoundsOnce (numeral : Numeral) : Prop where
  bits : ∃ bits < 2 ^ 53, ∃ zeros, numeral.significand = bits * 2 ^ zeros
  small : numeral.power.natAbs ≤ 22

/-- Zero is read as zero, whatever its power of ten. -/
theorem exists_scale?_zero (power : Int) : ∃ double exact,
    scale? 0 power = some double ∧ IsRounded double exact 0 := by
  obtain ⟨exact, rounded⟩ := IsRounded.toFloat 0
  exact ⟨_, exact, rfl, rounded⟩

variable {double other : Float} {left right exact : Dyadic} {value value' : ℚ}

theorem ofNat_ne_zero (fits : significand < UInt64.size) (positive : 0 < significand) :
    UInt64.ofNat significand ≠ 0 := by
  intro zero
  have whole := UInt64.toNat_ofNat_of_lt' fits
  rw [zero] at whole
  exact positive.ne whole

/-- A power of ten is multiplied with if it is not negative. -/
theorem scale?_of_mul (fits : significand < UInt64.size) (positive : 0 < significand)
    (natural : 0 ≤ power) (bounded : power ≤ 308)
    (rounded :
      IsRounded ((UInt64.ofNat significand).toFloat * powerOfTen power.toNat) exact value) :
    scale? (UInt64.ofNat significand) power =
      some ((UInt64.ofNat significand).toFloat * powerOfTen power.toNat) := by
  rw [scale?, if_neg (ofNat_ne_zero fits positive), if_neg (by omega), if_pos natural]
  exact if_pos rounded.isFinite

/-- The opposite power of ten is divided by otherwise. -/
theorem scale?_of_div (fits : significand < UInt64.size) (positive : 0 < significand)
    (negative : power < 0) (bounded : -308 ≤ power) :
    scale? (UInt64.ofNat significand) power =
      some ((UInt64.ofNat significand).toFloat / powerOfTen (-power).toNat) := by
  rw [scale?, if_neg (ofNat_ne_zero fits positive), if_neg (by omega), if_neg (by omega),
    if_pos bounded]

/-- A number of at most 53 bits is a double, apart from zeros behind these bits. -/
theorem size_toFloat (fits : significand < UInt64.size) (positive : 0 < significand)
    (bits : ∃ bits < 2 ^ 53, ∃ zeros, significand = bits * 2 ^ zeros)
    (rounded : IsRounded (UInt64.ofNat significand).toFloat left significand) :
    left.size = significand := by
  obtain ⟨bits, short, zeros, rfl⟩ := bits
  have some : 0 < bits := Nat.pos_of_mul_pos_right positive
  have few : zeros < 64 := by
    refine (Nat.pow_lt_pow_iff_right one_lt_two).1 ((Nat.le_mul_of_pos_left _ some).trans_lt fits)
  refine rounded.size_eq zeros ?_ some short (by omega) (by omega)
  rw [zpow_natCast]
  push_cast
  rfl

/-- The first powers of ten are doubles. -/
theorem size_powerOfTen {exponent : Nat} (small : exponent ≤ 22)
    (rounded : IsRounded (powerOfTen exponent) right (10 ^ exponent)) :
    right.size = 10 ^ exponent := by
  have short : 5 ^ exponent < 2 ^ 53 :=
    (Nat.pow_le_pow_right (by decide) small).trans_lt (by decide)
  refine rounded.size_eq exponent ?_ (Nat.pow_pos (by decide)) short (by omega) (by omega)
  rw [zpow_natCast, show (10 : ℚ) = 5 * 2 by norm_num, mul_pow]
  push_cast
  rfl

theorem mul_tens_of_neg (value : ℚ) (negative : power < 0) :
    value * 10 ^ power = value / 10 ^ (-power).toNat := by
  rw [← zpow_natCast, Int.toNat_of_nonneg (by omega), zpow_neg, div_inv_eq_mul]

theorem mul_tens_of_nonneg (value : ℚ) (natural : 0 ≤ power) :
    value * 10 ^ power = value * 10 ^ power.toNat := by
  rw [← zpow_natCast, Int.toNat_of_nonneg natural]

/-- A number that is rounded only once becomes the double in whose interval it lies. -/
theorem exists_scale?_of_once (fits : significand < UInt64.size)
    (bits : ∃ bits < 2 ^ 53, ∃ zeros, significand = bits * 2 ^ zeros)
    (small : power.natAbs ≤ 22) : ∃ double exact,
      scale? (UInt64.ofNat significand) power = some double ∧
        IsRounded double exact (significand * 10 ^ power) := by
  rcases Nat.eq_zero_or_pos significand with rfl | positive
  · rw [Nat.cast_zero, zero_mul]
    exact exists_scale?_zero power
  · obtain ⟨left, rounded⟩ := IsRounded.toFloat (UInt64.ofNat significand)
    rw [UInt64.toNat_ofNat_of_lt' fits] at rounded
    have size := size_toFloat fits positive bits rounded
    have some := rounded.some_of_one_le (by exact_mod_cast positive)
    rcases lt_or_ge power 0 with negative | natural
    · obtain ⟨right, rounded'⟩ := IsRounded.powerOfTen (-power).toNat (by omega)
      have size' := size_powerOfTen (by omega) rounded'
      have some' := rounded'.some_of_one_le (one_le_pow₀ (by norm_num))
      have below : left.size / right.size < Dyadic.limit := by
        rw [size, size']
        refine (div_le_self (Nat.cast_nonneg _) (one_le_pow₀ (by norm_num))).trans_lt ?_
        exact lt_limit (fits.trans (by decide +kernel))
      obtain ⟨result, quotient⟩ := rounded.div rounded' some some' below
      refine ⟨_, result, scale?_of_div fits positive negative (by omega), ?_⟩
      rw [mul_tens_of_neg _ negative, ← size, ← size']
      exact quotient
    · obtain ⟨right, rounded'⟩ := IsRounded.powerOfTen power.toNat (by omega)
      have size' := size_powerOfTen (by omega) rounded'
      have some' := rounded'.some_of_one_le (one_le_pow₀ (by norm_num))
      have below : left.size * right.size < Dyadic.limit := by
        have bound : significand * 10 ^ power.toNat < (2 ^ 54 - 1) * 2 ^ 970 := by
          calc significand * 10 ^ power.toNat
              ≤ UInt64.size * 10 ^ 22 :=
                Nat.mul_le_mul fits.le (Nat.pow_le_pow_right (by decide) (by omega))
            _ < (2 ^ 54 - 1) * 2 ^ 970 := by decide +kernel
        rw [size, size']
        exact_mod_cast lt_limit bound
      obtain ⟨result, product⟩ := rounded.mul rounded' some some' below
      refine ⟨_, result, scale?_of_mul fits positive natural (by omega) product, ?_⟩
      rw [mul_tens_of_nonneg _ natural, ← size, ← size']
      exact product

/-- Both roundings of a product take less than the nine largest doubles leave. -/
theorem scale?_of_nonneg (fits : significand < UInt64.size) (positive : 0 < significand)
    (natural : 0 ≤ power)
    (room : (significand : ℚ) * 10 ^ power ≤ (2 ^ 53 - 17 / 2) * 2 ^ (971 : Int)) :
    ∃ double exact value, scale? (UInt64.ofNat significand) power = some double ∧
      IsRounded double exact value := by
  have one : (1 : ℚ) ≤ significand := by exact_mod_cast positive
  rw [mul_tens_of_nonneg _ natural] at room
  have bounded : power.toNat ≤ 308 := by
    have above : (10 ^ power.toNat : Nat) < (2 ^ 54 - 1) * 2 ^ 970 := by
      have tens : ((10 ^ power.toNat : Nat) : ℚ) ≤ significand * 10 ^ power.toNat := by
        push_cast
        exact le_mul_of_one_le_left (by positivity) one
      have less : (2 ^ 53 - 17 / 2) * 2 ^ (971 : Int) < Dyadic.limit :=
        mul_lt_mul_of_pos_right (by norm_num) (zpow_pos two_pos _)
      rw [Dyadic.limit_eq] at less
      exact_mod_cast (tens.trans room).trans_lt less
    by_contra large
    exact absurd ((Nat.pow_le_pow_right (by decide) (Nat.lt_of_not_le large)).trans_lt above)
      (by decide +kernel)
  obtain ⟨left, rounded⟩ := IsRounded.toFloat (UInt64.ofNat significand)
  rw [UInt64.toNat_ofNat_of_lt' fits] at rounded
  obtain ⟨right, rounded'⟩ := IsRounded.powerOfTen power.toNat bounded
  have ten : (1 : ℚ) ≤ 10 ^ power.toNat := one_le_pow₀ (by norm_num)
  have below : left.size * right.size < Dyadic.limit := by
    calc left.size * right.size
        ≤ ((1 + 1 / 2 ^ 52) * significand) * ((1 + 1 / 2 ^ 52) * 10 ^ power.toNat) :=
          mul_le_mul (rounded.covers.size_le_of_one_le rounded.stored one)
            (rounded'.covers.size_le_of_one_le rounded'.stored ten) right.size_nonneg
            (by positivity)
      _ = (1 + 1 / 2 ^ 52) ^ 2 * (significand * 10 ^ power.toNat) := by ring
      _ ≤ (1 + 1 / 2 ^ 52) ^ 2 * ((2 ^ 53 - 17 / 2) * 2 ^ (971 : Int)) :=
          mul_le_mul_of_nonneg_left room (by positivity)
      _ < Dyadic.limit := by
          rw [Dyadic.limit, ← mul_assoc]
          exact mul_lt_mul_of_pos_right (by norm_num) (zpow_pos two_pos _)
  obtain ⟨result, product⟩ := rounded.mul rounded' (rounded.some_of_one_le one)
    (rounded'.some_of_one_le ten) below
  exact ⟨_, result, _, scale?_of_mul fits positive natural (by omega) product, product⟩

/-- A quotient is never too large. -/
theorem exists_div (fits : significand < UInt64.size) (positive : 0 < significand) {exponent : Nat}
    (bounded : exponent ≤ 308) : ∃ exact value,
      IsRounded ((UInt64.ofNat significand).toFloat / powerOfTen exponent) exact value ∧
        2 ^ (-1074 : Int) ≤ value ∧ value ≤ 2 ^ 66 := by
  have one : (1 : ℚ) ≤ significand := by exact_mod_cast positive
  have ten : (1 : ℚ) ≤ 10 ^ exponent := one_le_pow₀ (by norm_num)
  obtain ⟨left, rounded⟩ := IsRounded.toFloat (UInt64.ofNat significand)
  rw [UInt64.toNat_ofNat_of_lt' fits] at rounded
  obtain ⟨right, rounded'⟩ := IsRounded.powerOfTen exponent bounded
  have some := rounded.some_of_one_le one
  have some' := rounded'.some_of_one_le ten
  have upper := rounded.covers.size_le (by positivity)
  have upper' := rounded'.covers.size_le (by positivity)
  have lower := rounded.covers.le_size some
  have lower' := rounded'.covers.le_size some'
  have positive' : 0 < right.size := by linarith
  have most : left.size / right.size ≤ 2 ^ 66 := by
    have whole : (significand : ℚ) ≤ 18446744073709551616 := by exact_mod_cast fits.le
    rw [div_le_iff₀ positive']
    norm_num
    linarith
  have least : 2 ^ (-1074 : Int) ≤ left.size / right.size := by
    have tens : (10 ^ exponent : ℚ) ≤ 10 ^ 308 := pow_le_pow_right₀ (by norm_num) bounded
    have coarse : 4 * 10 ^ 308 ≤ (2 : ℚ) ^ (1074 : Int) := by
      rw [zpow_ofNat]
      exact_mod_cast (by decide +kernel : 4 * 10 ^ 308 ≤ 2 ^ 1074)
    have positive : 0 < left.size := by linarith
    rw [zpow_neg, inv_le_comm₀ (zpow_pos two_pos _) (div_pos positive positive'), inv_div]
    refine le_trans ?_ coarse
    rw [div_le_iff₀ positive]
    have huge : (0 : ℚ) ≤ 10 ^ 308 := by positivity
    generalize (10 : ℚ) ^ 308 = most at tens huge ⊢
    calc right.size ≤ 2 * most * 1 := by linarith
      _ ≤ 2 * most * (2 * left.size) := mul_le_mul_of_nonneg_left (one.trans lower) (by positivity)
      _ = 4 * most * left.size := by ring
  have below : left.size / right.size < Dyadic.limit :=
    most.trans_lt (by exact_mod_cast lt_limit (by decide +kernel : 2 ^ 66 < (2 ^ 54 - 1) * 2 ^ 970))
  obtain ⟨result, quotient⟩ := rounded.div rounded' some some' below
  exact ⟨result, _, quotient, least, most⟩

/-- The smallest powers of ten are divided by in two steps, or nothing is left. -/
theorem scale?_of_far (fits : significand < UInt64.size) (positive : 0 < significand)
    (far : power < -308) : ∃ double exact value,
      scale? (UInt64.ofNat significand) power = some double ∧ IsRounded double exact value := by
  rw [scale?, if_neg (ofNat_ne_zero fits positive), if_neg (by omega), if_neg (by omega),
    if_neg (by omega)]
  split
  · obtain ⟨left, value, rounded, least, most⟩ := exists_div fits positive (le_refl 308)
    obtain ⟨right, rounded'⟩ := IsRounded.powerOfTen (-(power + 308)).toNat (by omega)
    have ten : (1 : ℚ) ≤ 10 ^ (-(power + 308)).toNat := one_le_pow₀ (by norm_num)
    have some' := rounded'.some_of_one_le ten
    have below : left.size / right.size < Dyadic.limit := by
      have upper := rounded.covers.size_le ((zpow_pos two_pos _).le.trans least)
      have lower := ten.trans (rounded'.covers.le_size some')
      have bound := lt_limit (by decide +kernel : 2 ^ 68 < (2 ^ 54 - 1) * 2 ^ 970)
      refine lt_of_le_of_lt ?_ bound
      rw [div_le_iff₀ (by linarith)]
      push_cast
      linarith
    obtain ⟨result, quotient⟩ :=
      rounded.div rounded' (rounded.some least) some' below
    exact ⟨_, result, _, rfl, quotient⟩
  · have zero : Dyadic.size ⟨false, 0, -1074⟩ = 0 := by rw [Dyadic.size, Nat.cast_zero, zero_mul]
    exact ⟨_, ⟨false, 0, -1074⟩, 0, rfl, by decide +kernel, rfl, zero ▸ Dyadic.covers_size _⟩

/-- A number that is far enough below the largest doubles is never too large. -/
theorem exists_scale? (fits : significand < UInt64.size)
    (room : (significand : ℚ) * 10 ^ power ≤ (2 ^ 53 - 17 / 2) * 2 ^ (971 : Int)) :
    ∃ double exact value, scale? (UInt64.ofNat significand) power = some double ∧
      IsRounded double exact value := by
  rcases Nat.eq_zero_or_pos significand with rfl | positive
  · obtain ⟨double, exact, scaled, rounded⟩ := exists_scale?_zero power
    exact ⟨double, exact, 0, scaled, rounded⟩
  · rcases lt_or_ge power 0 with negative | natural
    · by_cases near : -308 ≤ power
      · have bounded : (-power).toNat ≤ 308 := by omega
        obtain ⟨exact, value, rounded, _⟩ := exists_div fits positive bounded
        exact ⟨_, exact, value, scale?_of_div fits positive negative near, rounded⟩
      · exact scale?_of_far fits positive (by omega)
    · exact scale?_of_nonneg fits positive natural room

end Json.Numeral

end SemanticQuery
