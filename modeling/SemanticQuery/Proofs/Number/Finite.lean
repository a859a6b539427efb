/-
This file shows that finite doubles are those with an exact value.
-/

import Mathlib.Tactic.Common
import SemanticQuery.Number.Dyadic

namespace SemanticQuery

open Float.Model

/-- The stored exponent of a double is read from its bits. -/
theorem toNat_unpackExponent (bits : BitVec Format.binary64.numBits) :
    (@UnpackedFloat.unpackExponent Format.binary64 bits).toNat =
      bits.toNat / Dyadic.leadingBit % 0x800 := by
  simp [UnpackedFloat.unpackExponent, BitVec.extractLsb_toNat, Nat.shiftRight_eq_div_pow,
    Dyadic.leadingBit]

/-- A double is finite unless all bits of its stored exponent are set. -/
theorem isFinite_eq_false_iff (value : Float) :
    value.isFinite = false ↔ value.toBits.toNat / Dyadic.leadingBit % 0x800 = 0x7FF := by
  have exponent := toNat_unpackExponent value.toModel.toBits.toBitVec
  have largest : @UnpackedFloat.unpackExponent Format.binary64
      value.toModel.toBits.toBitVec = -1#_ ↔
        value.toBits.toNat / Dyadic.leadingBit % 0x800 = 0x7FF := by
    rw [BitVec.toNat_eq, exponent]
    exact Iff.rfl
  rw [← largest]
  change UnpackedFloat.isFinite (UnpackedFloat.unpack _ _) = false ↔ _
  unfold UnpackedFloat.unpack
  extract_lets mantissa exponentBits exponent sign
  by_cases all : exponentBits = -1#_
  · refine iff_of_true ?_ all
    rw [if_pos all]
    by_cases none : mantissa = 0#_
    · rw [if_pos none]
      rfl
    · rw [if_neg none]
      rfl
  · refine iff_of_false ?_ all
    rw [if_neg all]
    by_cases small : exponentBits = 0#_
    · rw [if_pos small]
      by_cases zero : mantissa = 0#_
      · rw [dif_pos zero]
        exact Bool.noConfusion
      · rw [dif_neg zero]
        exact Bool.noConfusion
    · rw [if_neg small]
      exact Bool.noConfusion

/-- The finite doubles have an exact value, and only these. -/
theorem isFinite_iff (value : Float) :
    value.isFinite = true ↔ ∃ number, magnitude value = .finite number := by
  rw [← Bool.not_eq_false, isFinite_eq_false_iff]
  unfold magnitude
  dsimp only
  split_ifs with largest none zero
  · exact iff_of_false (fun small => small largest) (by simp)
  · exact iff_of_false (fun small => small largest) (by simp)
  · exact iff_of_true largest ⟨_, rfl⟩
  · exact iff_of_true largest ⟨_, rfl⟩

end SemanticQuery
