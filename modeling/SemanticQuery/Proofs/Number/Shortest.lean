/-
This file shows that the digits written for a double lie in its interval, so that no two doubles have
the same digits.
-/

import SemanticQuery.Proofs.Number.PowerOfTen

namespace SemanticQuery

namespace Decimal

variable {tie : Tie} {significand digits : Nat} {exponent power : Int}

/-- A decimal stands for a rational number. -/
def value (decimal : Decimal) : ℚ := decimal.digits * 10 ^ decimal.exponent

/-- The dyadic number has its exact decimal value. -/
theorem value_exact (significand : Nat) (exponent : Int) :
    (exact significand exponent).value = significand * 2 ^ exponent := by
  cases exponent with
  | ofNat shift =>
      rw [exact, value, zpow_zero, mul_one, Nat.pow_eq]
      push_cast
      rfl
  | negSucc shift =>
      rw [exact, value, Nat.pow_eq, zpow_negSucc, zpow_negSucc, show (10 : ℚ) = 5 * 2 by norm_num,
        mul_pow]
      push_cast
      field_simp

/-- All that is compared is multiplied by this number, so that it is natural. -/
def scale (exponent power : Int) : Nat :=
  Nat.pow 2 (exponent - 2).toNat * Nat.pow 10 (-power).toNat

/-- This is the power of ten with the scale of everything else. -/
def unit (exponent power : Int) : Nat := Nat.pow 2 (2 - exponent).toNat * Nat.pow 10 power.toNat

theorem unit_mul (exponent power : Int) :
    (unit exponent power : ℚ) * 2 ^ exponent = 4 * scale exponent power * 10 ^ power := by
  have twos : (2 : ℚ) ^ (2 - exponent).toNat * 2 ^ exponent = 4 * 2 ^ (exponent - 2).toNat := by
    rw [← zpow_natCast, ← zpow_natCast, ← zpow_add₀ two_ne_zero, show (4 : ℚ) = 2 ^ (2 : Int) by rfl,
      ← zpow_add₀ two_ne_zero]
    congr 1
    omega
  have tens : (10 : ℚ) ^ power.toNat = 10 ^ (-power).toNat * 10 ^ power := by
    rw [← zpow_natCast, ← zpow_natCast, ← zpow_add₀ (by norm_num)]
    congr 1
    omega
  rw [unit, scale, Nat.pow_eq, Nat.pow_eq, Nat.pow_eq, Nat.pow_eq]
  push_cast
  rw [tens, mul_right_comm, twos]
  ring

/-- A multiple is only chosen between the ends of the interval. -/
theorem between_of_nearest? (found : nearest? tie significand exponent power = some digits) :
    ((4 * significand - halfGapBelow significand exponent) * scale exponent power ≤
        digits * unit exponent power ∧
      digits * unit exponent power ≤ (4 * significand + 2) * scale exponent power) ∧
    (digits * unit exponent power =
        (4 * significand - halfGapBelow significand exponent) * scale exponent power ∨
      digits * unit exponent power = (4 * significand + 2) * scale exponent power →
        significand % 2 = 0) := by
  unfold nearest? at found
  extract_lets scale unit value low high within below above at found
  have inside : within digits = true := by
    split at found
    · cases found
    · next isWithin _ => exact Option.some.inj found ▸ isWithin
    · next _ isWithin => exact Option.some.inj found ▸ isWithin
    · next isWithin isWithin' =>
        split at found
        · exact Option.some.inj found ▸ isWithin
        · exact Option.some.inj found ▸ isWithin'
        · split at found
          · exact Option.some.inj found ▸ isWithin
          · exact Option.some.inj found ▸ isWithin'
  unfold within at inside
  split at inside
  · next even =>
      simp only [Bool.and_eq_true, decide_eq_true_eq] at inside
      exact ⟨inside, fun _ => even⟩
  · simp only [Bool.and_eq_true, decide_eq_true_eq] at inside
    refine ⟨⟨inside.1.le, inside.2.le⟩, ?_⟩
    rintro (same | same)
    · exact absurd same inside.1.ne'
    · exact absurd same inside.2.ne

/-- The chosen multiple lies in the interval of the double. -/
theorem covers_nearest? (found : nearest? tie significand exponent power = some digits)
    (some : 0 < significand) (negative : Bool) :
    Dyadic.Covers ⟨negative, significand, exponent⟩ (digits * 10 ^ power) := by
  obtain ⟨⟨above, below⟩, even⟩ := between_of_nearest? found
  have weight : (0 : ℚ) < 2 ^ exponent := zpow_pos two_pos _
  have factor : (0 : ℚ) < 4 * scale exponent power := by
    have : 0 < scale exponent power := Nat.mul_pos (Nat.pow_pos two_pos) (Nat.pow_pos (by decide))
    exact_mod_cast Nat.mul_pos (by decide : 0 < 4) this
  have gap : halfGapBelow significand exponent ≤ 4 * significand := by
    unfold halfGapBelow
    split <;> omega
  have multiple : ((digits * unit exponent power : Nat) : ℚ) * 2 ^ exponent =
      digits * 10 ^ power * (4 * scale exponent power) := by
    rw [Nat.cast_mul, mul_assoc, unit_mul]
    ring
  have lower : (((4 * significand - halfGapBelow significand exponent) *
        scale exponent power : Nat) : ℚ) * 2 ^ exponent =
      (significand - halfGapBelow significand exponent / 4) * 2 ^ exponent *
        (4 * scale exponent power) := by
    push_cast [Nat.cast_sub gap]
    ring
  have upper : (((4 * significand + 2) * scale exponent power : Nat) : ℚ) * 2 ^ exponent =
      (significand + 1 / 2) * 2 ^ exponent * (4 * scale exponent power) := by
    push_cast
    ring
  refine ⟨le_of_mul_le_mul_right ?_ factor, le_of_mul_le_mul_right ?_ factor, fun ends => ?_⟩
  · rw [← multiple, ← lower]
    exact mul_le_mul_of_nonneg_right (by exact_mod_cast above) weight.le
  · rw [← multiple, ← upper]
    exact mul_le_mul_of_nonneg_right (by exact_mod_cast below) weight.le
  · refine even (ends.imp (fun same => ?_) fun same => ?_)
    · rw [← mul_left_inj' factor.ne', ← multiple, ← lower, mul_left_inj' weight.ne'] at same
      exact_mod_cast same
    · rw [← mul_left_inj' factor.ne', ← multiple, ← upper, mul_left_inj' weight.ne'] at same
      exact_mod_cast same

theorem covers_search (some : 0 < significand) (negative : Bool) (steps : Nat) (power : Int) :
    Dyadic.Covers ⟨negative, significand, exponent⟩
      (search tie significand exponent steps power).value := by
  induction steps generalizing power with
  | zero =>
      rw [search, value_exact]
      exact Dyadic.covers_size ⟨negative, significand, exponent⟩
  | succ steps inductionHypothesis =>
      rw [search]
      split
      · next found => exact covers_nearest? found some negative
      · exact inductionHypothesis _

/-- A multiple of a power of ten that is less than half of the gap between two doubles is always
found. -/
theorem exists_nearest? (tie : Tie) (significand : Nat)
    (fine : 2 * 10 ^ power < (2 : ℚ) ^ exponent) :
    ∃ digits, nearest? tie significand exponent power = some digits := by
  have fewer : unit exponent power < 2 * scale exponent power := by
    have factor : (0 : ℚ) < 2 * scale exponent power := by
      have : 0 < scale exponent power := Nat.mul_pos (Nat.pow_pos two_pos) (Nat.pow_pos (by decide))
      exact_mod_cast Nat.mul_pos two_pos this
    have less : (unit exponent power : ℚ) * 2 ^ exponent <
        2 * scale exponent power * 2 ^ exponent := by
      calc (unit exponent power : ℚ) * 2 ^ exponent
          = 2 * scale exponent power * (2 * 10 ^ power) := by rw [unit_mul]; ring
        _ < 2 * scale exponent power * 2 ^ exponent := mul_lt_mul_of_pos_left fine factor
    exact_mod_cast lt_of_mul_lt_mul_right less (zpow_pos two_pos _).le
  unfold nearest?
  extract_lets scale' unit' value low high within below above
  change unit' < 2 * scale' at fewer
  have positive : 0 < unit' := Nat.mul_pos (Nat.pow_pos two_pos) (Nat.pow_pos (by decide))
  have split : unit' * below + value % unit' = value := Nat.div_add_mod value unit'
  have rest : value % unit' < unit' := Nat.mod_lt _ positive
  have multiple : above * unit' = unit' * below + unit' := by
    rw [Nat.mul_comm, Nat.mul_succ]
  have gap : low ≤ value := Nat.mul_le_mul_right _ (Nat.sub_le ..)
  have highest : high = value + 2 * scale' := Nat.add_mul ..
  have inside : within above = true := by
    unfold within
    split <;> simp only [Bool.and_eq_true, decide_eq_true_eq] <;> omega
  rw [inside]
  cases within below with
  | false => exact ⟨_, rfl⟩
  | true =>
      dsimp only
      split
      · exact ⟨_, rfl⟩
      · exact ⟨_, rfl⟩
      · split <;> exact ⟨_, rfl⟩

/-- The first hit comes at the latest where a multiple is found. -/
theorem exists_search {least : Int} (hit : ∃ digits, nearest? tie significand exponent least = some digits)
    (steps : Nat) (power : Int) (below : least ≤ power) (near : power < least + steps) :
    ∃ digits found, least ≤ found ∧
      search tie significand exponent steps power = ⟨digits, found⟩ := by
  induction steps generalizing power with
  | zero => omega
  | succ steps inductionHypothesis =>
      rw [search]
      split
      · exact ⟨_, _, below, rfl⟩
      · next missing =>
          have other : power ≠ least := by
            rintro rfl
            obtain ⟨digits, found⟩ := hit
            rw [found] at missing
            cases missing
          exact inductionHypothesis _ (by omega) (by omega)

/-- This power of ten is a little less than half of the gap between two doubles. -/
def finePower (exponent : Int) : Int := ((exponent + 1074) * 30103 + 39275) / 100000 - 325

/-- Powers of two and of ten are compared for all exponents of doubles. -/
theorem all_finePower : ((List.range 2046).all fun step =>
    Nat.blt (10 ^ ((step * 30103 + 39275) / 100000) * 2 ^ 1075) (2 ^ step * 10 ^ 325) &&
      Nat.ble (2 ^ step * 10 ^ 325)
        (2 ^ 1082 * 10 ^ ((step * 30103 + 39275) / 100000))) = true := by
  decide +kernel

theorem finePower_bounds (least : -1074 ≤ exponent) (greatest : exponent ≤ 971) :
    2 * 10 ^ finePower exponent < (2 : ℚ) ^ exponent ∧
      (2 : ℚ) ^ exponent ≤ 256 * 10 ^ finePower exponent := by
  obtain ⟨step, rfl⟩ : ∃ step : Nat, exponent = step - 1074 :=
    ⟨(exponent + 1074).toNat, by omega⟩
  have inside : step ∈ List.range 2046 := List.mem_range.2 (by omega)
  have both := List.all_eq_true.1 all_finePower step inside
  rw [Bool.and_eq_true, Nat.blt_eq, Nat.ble_eq] at both
  have power : finePower (step - 1074) = ((step * 30103 + 39275) / 100000 : Nat) - (325 : Nat) := by
    rw [finePower]
    omega
  have smaller : ((10 ^ ((step * 30103 + 39275) / 100000) * 2 ^ 1075 : Nat) : ℚ) <
      (2 ^ step * 10 ^ 325 : Nat) := by exact_mod_cast both.1
  have larger : ((2 ^ step * 10 ^ 325 : Nat) : ℚ) ≤
      (2 ^ 1082 * 10 ^ ((step * 30103 + 39275) / 100000) : Nat) := by exact_mod_cast both.2
  simp only [Nat.cast_mul, Nat.cast_pow, Nat.cast_ofNat] at smaller larger
  rw [power, zpow_sub₀ two_ne_zero, zpow_sub₀ (by norm_num), zpow_natCast, zpow_natCast,
    zpow_natCast, zpow_ofNat, ← mul_div_assoc, ← mul_div_assoc,
    div_lt_div_iff₀ (by positivity) (by positivity), div_le_div_iff₀ (by positivity) (by positivity)]
  have once : (2 : ℚ) ^ 1075 = 2 * 2 ^ 1074 := pow_succ' _ _
  have more : (2 : ℚ) ^ 1082 = 256 * 2 ^ 1074 := by
    rw [show (256 : ℚ) = 2 ^ 8 by norm_num]
    exact pow_add _ 8 1074
  rw [once] at smaller
  rw [more] at larger
  generalize (2 : ℚ) ^ 1074 = weight, (10 : ℚ) ^ 325 = factor at smaller larger ⊢
  constructor <;> linarith

end Decimal

/-- The written digits lie in the interval of the double. -/
theorem Dyadic.covers_shortest (tie : Tie) (number : Dyadic) :
    number.Covers (Decimal.shortest tie number.significand number.exponent).value := by
  rw [Decimal.shortest]
  split
  · next zero =>
      have size : number.size = 0 := by rw [Dyadic.size, zero, Nat.cast_zero, zero_mul]
      have covers := number.covers_size
      rw [size] at covers
      simpa [Decimal.value] using covers
  · next some => exact Decimal.covers_search (Nat.pos_of_ne_zero some) _ _ _

/-- Only zero has no digits, and no exponent either. -/
theorem Decimal.exponent_shortest {tie : Tie} {significand : Nat} {exponent : Int}
    (zero : (shortest tie significand exponent).digits = 0) :
    (shortest tie significand exponent).exponent = 0 := by
  have covers := Dyadic.covers_shortest tie ⟨false, significand, exponent⟩
  rw [value, zero, Nat.cast_zero, zero_mul] at covers
  rw [shortest, if_pos covers.significand_of_zero]

/-- The shortest digits fit 64 bits. -/
theorem Dyadic.IsStored.digits_shortest_lt {number : Dyadic} (stored : number.IsStored) (tie : Tie) :
    (Decimal.shortest tie number.significand number.exponent).digits < UInt64.size := by
  have covers := number.covers_shortest tie
  obtain ⟨hit, coarse⟩ := Decimal.finePower_bounds stored.least stored.greatest
  rw [Decimal.shortest] at covers ⊢
  split
  · decide
  · next some =>
      rw [if_neg some] at covers
      have bits : number.significand.log2 < 53 := (Nat.log2_lt some).2 stored.fits
      obtain ⟨digits, found, above, same⟩ :=
        Decimal.exists_search (Decimal.exists_nearest? tie number.significand hit) 22
          ((number.significand.log2 + number.exponent + 2) * 30103 / 100000 + 2)
          (by unfold Decimal.finePower; omega) (by unfold Decimal.finePower; omega)
      have upper := covers.upper
      rw [same, Decimal.value] at upper
      rw [same]
      have fits : (number.significand : ℚ) + 1 / 2 ≤ 2 ^ 53 := by
        have : (number.significand : ℚ) + 1 ≤ 2 ^ 53 := by exact_mod_cast stored.fits
        linarith
      have tens : (0 : ℚ) < 10 ^ found := zpow_pos (by norm_num) _
      have : (digits : ℚ) * 10 ^ found ≤ 2 ^ 61 * 10 ^ found := by
        calc (digits : ℚ) * 10 ^ found
            ≤ (number.significand + 1 / 2) * 2 ^ number.exponent := upper
          _ ≤ 2 ^ 53 * (256 * 10 ^ Decimal.finePower number.exponent) :=
              mul_le_mul fits coarse (zpow_pos two_pos _).le (by positivity)
          _ ≤ 2 ^ 53 * (256 * 10 ^ found) := by
              gcongr
              norm_num
          _ = 2 ^ 61 * 10 ^ found := by ring
      have : digits ≤ 2 ^ 61 := by exact_mod_cast le_of_mul_le_mul_right this tens
      exact this.trans_lt (by decide)

end SemanticQuery
