/-
This file says what is an exact value. A double is read as a natural number when its rational value
is that number.
-/

import Mathlib.Data.Rat.Cast.Order
import Mathlib.Tactic.Positivity
import SemanticQuery.Number.Dyadic
import SemanticQuery.Proofs.Number.Natural

namespace SemanticQuery

namespace Dyadic

/-- A dyadic number stands for a rational number. -/
def value (number : Dyadic) : ℚ :=
  (if number.negative then -1 else 1) * (number.significand * 2 ^ number.exponent)

/-- A negative number is no natural number. -/
theorem value_neg {number : Dyadic} (negative : number.negative = true)
    (some : number.significand ≠ 0) : number.value < 0 := by
  have positive : (0 : ℚ) < number.significand := by exact_mod_cast Nat.pos_of_ne_zero some
  have weight : (0 : ℚ) < 2 ^ number.exponent := zpow_pos two_pos number.exponent
  rw [value, if_pos negative, neg_one_mul]
  exact neg_neg_of_pos (mul_pos positive weight)

/-- The sign of zero has no effect. -/
theorem value_of_unsigned {number : Dyadic}
    (unsigned : ¬(number.negative = true ∧ number.significand ≠ 0)) :
    number.value = number.significand * 2 ^ number.exponent := by
  by_cases negative : number.negative = true
  · have zero : number.significand = 0 := by
      by_contra some
      exact unsigned ⟨negative, some⟩
    simp [value, zero]
  · rw [value, if_neg negative, one_mul]

/-- The value is read as a natural number exactly when it is that number. -/
theorem toNat?_eq_some_iff {number : Dyadic} {whole : Nat} :
    number.toNat? = some whole ↔ number.value = whole := by
  by_cases signed : number.negative = true ∧ number.significand ≠ 0
  · have below := value_neg signed.1 signed.2
    have above : (0 : ℚ) ≤ whole := by positivity
    have none : number.toNat? = none := if_pos (by simpa using signed)
    rw [none]
    exact iff_of_false (by simp) (below.trans_le above).ne
  · rw [value_of_unsigned signed, toNat?, if_neg (by simpa using signed)]
    cases number.exponent with
    | ofNat shift =>
        have exact : (number.significand : ℚ) * 2 ^ Int.ofNat shift =
            ((number.significand * Nat.pow 2 shift : Nat) : ℚ) := by
          push_cast [Nat.pow_eq]
          rfl
        rw [exact, Nat.cast_inj, Option.some.injEq]
    | negSucc shift =>
        have positive : 0 < Nat.pow 2 (shift + 1) := Nat.pow_pos (by decide)
        have fraction : (number.significand : ℚ) * 2 ^ Int.negSucc shift = whole ↔
            number.significand = whole * Nat.pow 2 (shift + 1) := by
          have weight : (0 : ℚ) < 2 ^ (shift + 1) := by positivity
          rw [zpow_negSucc, ← div_eq_mul_inv, div_eq_iff weight.ne', Nat.pow_eq]
          exact_mod_cast Iff.rfl
        rw [fraction]
        dsimp only
        split
        · next divides =>
            rw [Option.some.injEq]
            exact Nat.div_eq_iff_eq_mul_left positive (Nat.dvd_of_mod_eq_zero divides)
        · next rest =>
            refine iff_of_false (by simp) fun multiple => rest ?_
            rw [multiple, Nat.mul_mod_left]

end Dyadic

/-- A double is read as an integer of 64 bits exactly when its rational value is that integer. -/
theorem wholeUInt64?_eq_some_iff {number : Float} {whole : UInt64} :
    wholeUInt64? number = some whole ↔
      ∃ exact, magnitude number = .finite exact ∧ exact.value = whole.toNat := by
  unfold wholeUInt64?
  cases magnitude number with
  | finite exact =>
      simp only [Magnitude.finite.injEq, exists_eq_left', ← Dyadic.toNat?_eq_some_iff]
      cases exact.toNat? with
      | none => simp
      | some other => rw [Option.some.injEq, ← fitting_eq_some_iff]
  | infinite negative => simp
  | undefined => simp

end SemanticQuery
