/-
This file shows that the bits of a finite double and its exact value determine each other.
-/

import Mathlib.Tactic.Common
import SemanticQuery.Proofs.Number.Finite
import SemanticQuery.Proofs.Number.Rounding

namespace SemanticQuery

open Float.Model (Format)
open Float.Model.UnpackedFloat

/-- The fraction of a double is read from its bits. -/
theorem toNat_unpackMantissa (bits : BitVec Format.binary64.numBits) :
    (@unpackMantissa Format.binary64 bits).toNat = bits.toNat % Dyadic.leadingBit := by
  simp [unpackMantissa, BitVec.extractLsb_toNat, Dyadic.leadingBit]

/-- The sign of a double is read from its bits. -/
theorem toNat_unpackSign (bits : BitVec Format.binary64.numBits) :
    (@unpackSign Format.binary64 bits).toNat = bits.toNat / 0x8000000000000000 := by
  have bound : bits.toNat < 2 ^ 64 := bits.isLt
  unfold unpackSign
  simp [BitVec.extractLsb_toNat, Nat.shiftRight_eq_div_pow]
  omega

theorem ofBitVec_unpackSign (bits : BitVec Format.binary64.numBits) (rest : Nat) (exponent : Int) :
    Sign.ofBitVec (@unpackSign Format.binary64 bits) =
      Dyadic.sign ⟨decide (0x8000000000000000 ≤ bits.toNat), rest, exponent⟩ := by
  have bound : bits.toNat < 2 ^ 64 := bits.isLt
  rw [Sign.ofBitVec, Dyadic.sign]
  by_cases negative : 0x8000000000000000 ≤ bits.toNat
  · rw [if_neg, if_pos (by simpa using negative)]
    rw [BitVec.toNat_eq, toNat_unpackSign]
    simp
    omega
  · rw [if_pos, if_neg (by simpa using negative)]
    rw [BitVec.toNat_eq, toNat_unpackSign]
    simp
    omega

/-- A finite double is unpacked into its exact value. -/
theorem unpack_eq {number : Float} {exact : Dyadic} (finite : magnitude number = .finite exact) :
    number.toModel.unpack = exact.unpacked := by
  have largest : @unpackExponent Format.binary64 number.toModel.toBits.toBitVec = -1#_ ↔
      number.toBits.toNat / Dyadic.leadingBit % 0x800 = 0x7FF := by
    rw [BitVec.toNat_eq, toNat_unpackExponent]
    exact Iff.rfl
  have least : @unpackExponent Format.binary64 number.toModel.toBits.toBitVec = 0#_ ↔
      number.toBits.toNat / Dyadic.leadingBit % 0x800 = 0 := by
    rw [BitVec.toNat_eq, toNat_unpackExponent]
    exact Iff.rfl
  have none : @unpackMantissa Format.binary64 number.toModel.toBits.toBitVec = 0#_ ↔
      number.toBits.toNat % Dyadic.leadingBit = 0 := by
    rw [BitVec.toNat_eq, toNat_unpackMantissa]
    exact Iff.rfl
  unfold magnitude at finite
  dsimp only at finite
  unfold Float.Model.unpack unpack
  dsimp only
  split_ifs at finite with infinite zero small
  · cases finite
    rw [if_neg (largest.not.2 infinite), if_pos (least.2 small), Dyadic.unpacked]
    by_cases zero : number.toBits.toNat % Dyadic.leadingBit = 0
    · rw [dif_pos (none.2 zero), dif_pos zero]
      exact congrArg _ (ofBitVec_unpackSign _ _ _)
    · rw [dif_neg (none.not.2 zero), dif_neg zero, finite.injEq]
      refine ⟨ofBitVec_unpackSign _ _ _, toNat_unpackMantissa _, ?_⟩
      rw [least.2 small]
      rfl
  · cases finite
    rw [if_neg (largest.not.2 infinite), if_neg (least.not.2 small), Dyadic.unpacked,
      dif_neg (Nat.ne_of_gt (Nat.add_pos_left (by decide) _)), finite.injEq]
    refine ⟨ofBitVec_unpackSign _ _ _, ?_, ?_⟩
    · rw [BitVec.toNat_append, toNat_unpackMantissa, ← Nat.shiftLeft_add_eq_or_of_lt]
      · rfl
      · exact Nat.mod_lt _ (by decide)
    · rw [toNat_unpackExponent]
      rfl

/-- A finite double has its exact value in stored form. -/
theorem isStored_of_magnitude {number : Float} {exact : Dyadic}
    (finite : magnitude number = .finite exact) : exact.IsStored := by
  have fraction : number.toBits.toNat % Dyadic.leadingBit < Dyadic.leadingBit :=
    Nat.mod_lt _ (by decide)
  have scale : number.toBits.toNat / Dyadic.leadingBit % 0x800 < 0x800 := Nat.mod_lt _ (by decide)
  have weight : Dyadic.leadingBit = 2 ^ 52 := rfl
  unfold magnitude at finite
  dsimp only at finite
  split_ifs at finite with infinite zero small <;> cases finite
  · exact ⟨by dsimp only; omega, le_rfl, by dsimp only; omega, .inr rfl⟩
  · exact ⟨by dsimp only; omega, by dsimp only; omega, by dsimp only; omega,
      .inl (by dsimp only; omega)⟩

/-- The parts of a packed double take separate bits. -/
theorem toNat_packComponents (sign : Sign) (exponent : BitVec 11) (mantissa : BitVec 52) :
    (packComponents Format.binary64 sign exponent mantissa).toNat =
      (sign.toBitVec.toNat * 0x800 + exponent.toNat) * Dyadic.leadingBit + mantissa.toNat := by
  have parts : packComponents Format.binary64 sign exponent mantissa =
    (sign.toBitVec ++ exponent) ++ mantissa := rfl
  rw [parts, BitVec.toNat_append, BitVec.toNat_append,
    ← Nat.shiftLeft_add_eq_or_of_lt mantissa.isLt, ← Nat.shiftLeft_add_eq_or_of_lt exponent.isLt,
    Nat.shiftLeft_eq, Nat.shiftLeft_eq]
  rfl

/-- A packed double with an exponent that is not the last one is finite. -/
theorem magnitude_packComponents {number : Float} {exact : Dyadic} (scale fraction : Nat)
    (bits : number.toBits.toNat =
      (exact.sign.toBitVec.toNat * 0x800 + scale) * Dyadic.leadingBit + fraction)
    (finite : scale < 0x7FF) (fits : fraction < Dyadic.leadingBit)
    (parts : if scale = 0 then exact.significand = fraction ∧ exact.exponent = -1074
      else exact.significand = Dyadic.leadingBit + fraction ∧
        exact.exponent = (scale : Int) - 1075) :
    magnitude number = .finite exact := by
  have bit : exact.sign.toBitVec.toNat = if exact.negative then 1 else 0 := by
    rw [Dyadic.sign]
    split <;> rfl
  have high : number.toBits.toNat / Dyadic.leadingBit =
      exact.sign.toBitVec.toNat * 0x800 + scale := by
    rw [bits, mul_comm, Nat.mul_add_div (by decide), Nat.div_eq_of_lt fits, add_zero]
  have low : number.toBits.toNat % Dyadic.leadingBit = fraction := by
    rw [bits, mul_comm, Nat.mul_add_mod, Nat.mod_eq_of_lt fits]
  have scaled : number.toBits.toNat / Dyadic.leadingBit % 0x800 = scale := by
    rw [high, mul_comm, Nat.mul_add_mod, Nat.mod_eq_of_lt (by omega)]
  have sign : decide (0x8000000000000000 ≤ number.toBits.toNat) = exact.negative := by
    rw [bit, show Dyadic.leadingBit = 0x10000000000000 from rfl] at bits
    rw [show Dyadic.leadingBit = 0x10000000000000 from rfl] at fits
    cases negative : exact.negative <;> rw [negative] at bits
    · rw [decide_eq_false_iff_not]
      simp only [Bool.false_eq_true, if_false] at bits
      omega
    · rw [decide_eq_true_iff]
      simp only [if_true] at bits
      omega
  obtain ⟨negative, significand, exponent⟩ := exact
  unfold magnitude
  dsimp only at sign parts ⊢
  rw [scaled, low, sign, if_neg (Nat.ne_of_lt finite)]
  split <;> next zero =>
    first
      | rw [if_pos zero] at parts
      | rw [if_neg zero] at parts
    rw [parts.1, parts.2]

/-- The first bit of a regular significand is not stored. -/
theorem pack_of_normal {exact : Dyadic} (stored : exact.IsStored)
    (normal : 2 ^ 52 ≤ exact.significand) :
    pack Format.binary64 exact.unpacked = packComponents Format.binary64 exact.sign
      (BitVec.ofNat 11 (exact.exponent + 1075).toNat) (BitVec.ofNat 52 exact.significand) := by
  have zero : exact.significand ≠ 0 := by omega
  have least := stored.least
  have greatest := stored.greatest
  have bits : exact.significand.log2 + 1 = Format.binary64.mantissaBits := by
    rw [(Nat.log2_eq_iff zero).2 ⟨normal, stored.fits⟩]
    rfl
  have biased : (exact.exponent + Format.binary64.exponentBias +
      Format.binary64.mantissaBitsWithoutImplicit).toNat = (exact.exponent + 1075).toNat := by
    change (exact.exponent + 1023 + 52).toNat = _
    omega
  rw [Dyadic.unpacked, dif_neg zero]
  unfold pack
  dsimp only
  rw [biased, if_neg (by omega), if_pos bits]

/-- A small double has the least exponent, which is stored as zero. -/
theorem pack_of_subnormal {exact : Dyadic} (least : exact.exponent = -1074)
    (subnormal : exact.significand < 2 ^ 52) :
    pack Format.binary64 exact.unpacked =
      packComponents Format.binary64 exact.sign 0 (BitVec.ofNat 52 exact.significand) := by
  rw [Dyadic.unpacked]
  by_cases zero : exact.significand = 0
  · rw [dif_pos zero, zero]
    rfl
  · have bits : exact.significand.log2 + 1 ≠ Format.binary64.mantissaBits := by
      have : exact.significand.log2 < 52 := (Nat.log2_lt zero).2 subnormal
      change _ ≠ 53
      omega
    rw [dif_neg zero]
    unfold pack
    dsimp only
    rw [least, if_neg (by decide), if_neg bits]
    rfl

/-- A stored value is packed into a double with that value. -/
theorem magnitude_pack {exact : Dyadic} (stored : exact.IsStored) :
    magnitude (.ofModel (.pack exact.unpacked)) = .finite exact := by
  have weight : Dyadic.leadingBit = 2 ^ 52 := rfl
  have fits := stored.fits
  have least := stored.least
  have greatest := stored.greatest
  by_cases normal : 2 ^ 52 ≤ exact.significand
  · refine magnitude_packComponents (exact.exponent + 1075).toNat (exact.significand - 2 ^ 52) ?_
      (by omega) (by omega) ?_
    · change (pack Format.binary64 _).toNat = _
      rw [pack_of_normal stored normal, toNat_packComponents, BitVec.toNat_ofNat,
        BitVec.toNat_ofNat, Nat.mod_eq_of_lt (by omega)]
      omega
    · rw [if_neg (by omega)]
      omega
  · have small := stored.normal.resolve_left normal
    refine magnitude_packComponents 0 exact.significand ?_ (by decide) (by omega) ⟨rfl, small⟩
    change (pack Format.binary64 _).toNat = _
    rw [pack_of_subnormal small (by omega), toNat_packComponents, BitVec.toNat_ofNat,
      Nat.mod_eq_of_lt (by omega)]
    rfl

/-- The bits of a finite double can be found from its exact value. -/
theorem toNat_toBits {number : Float} {exact : Dyadic}
    (finite : magnitude number = .finite exact) :
    number.toBits.toNat = (if exact.negative then 0x8000000000000000 else 0) +
      (if exact.significand < Dyadic.leadingBit then 0 else (exact.exponent + 1075).toNat) *
        Dyadic.leadingBit + exact.significand % Dyadic.leadingBit := by
  have bound : number.toBits.toNat < 2 ^ 64 := number.toBits.toBitVec.isLt
  have weight : Dyadic.leadingBit = 0x10000000000000 := rfl
  unfold magnitude at finite
  dsimp only at finite
  split_ifs at finite with infinite zero small <;> cases finite <;>
    simp only [decide_eq_true_eq, weight] at small ⊢
  · rw [if_pos (Nat.mod_lt _ (by decide))]
    split <;> omega
  · rw [if_neg (Nat.not_lt.2 (Nat.le_add_right _ _))]
    split <;> omega

/-- Two finite doubles of equal value and equal sign are the same double. -/
theorem eq_of_magnitude {first second : Float} {exact : Dyadic}
    (finite : magnitude first = .finite exact) (finite' : magnitude second = .finite exact) :
    first = second := by
  have bits : first.toBits = second.toBits :=
    UInt64.toNat.inj ((toNat_toBits finite).trans (toNat_toBits finite').symm)
  obtain ⟨bits, valid⟩ := first
  obtain ⟨bits', valid'⟩ := second
  cases bits
  rfl

end SemanticQuery
