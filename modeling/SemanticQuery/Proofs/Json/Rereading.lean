/-
This file says what is read when a written value is read again. Every number that is written can be
read, and only doubles can change.
-/

import SemanticQuery.Proofs.Json.Layout
import SemanticQuery.Proofs.Json.Scaling

namespace SemanticQuery

namespace Json.Numeral

variable {numeral : Numeral}

/-- The digits of a number of 64 bits are taken completely. -/
theorem value_of_isReal (fits : numeral.significand < UInt64.size)
    (isReal : (numeral.fraction.isEmpty && numeral.exponent.isNone) = false) :
    numeral.value = match scale? (UInt64.ofNat numeral.significand) numeral.power with
      | none => .error .malformed
      | some number => finite? (if numeral.negative then -number else number) := by
  have split : numeral.significand =
      Nat.ofDigitChars 10 numeral.fraction (Nat.ofDigitChars 10 numeral.whole 0) := by
    rw [significand, Nat.ofDigitChars_append]
  have whole : absorb 0 numeral.whole = (Nat.ofDigitChars 10 numeral.whole 0, []) :=
    absorb_digits _ 0 ((le_ofDigitChars _ _).trans_lt (split ▸ fits))
  have fraction : absorb (Nat.ofDigitChars 10 numeral.whole 0) numeral.fraction =
      (numeral.significand, []) := by
    rw [absorb_digits _ _ (split ▸ fits), split]
  have power : ((0 : Nat) : Int) - (numeral.fraction.length - 0 : Nat) + numeral.exponent.getD 0 =
      numeral.power := by
    unfold Numeral.power
    omega
  cases scaled : scale? (UInt64.ofNat numeral.significand) numeral.power <;>
    simp only [value, whole, fraction, List.isEmpty_nil, Bool.and_true, isReal,
      Bool.false_eq_true, if_false, List.length_nil, power, scaled]

end Json.Numeral

open Json (Number Numeral)
open Json.Numeral (scale?)

/-- The largest doubles are tried out. Their digits are rounded up at most to the largest one. -/
theorem all_largest : ((List.range 9).all fun step =>
    let numeral := Layout.json.numeral ⟨false, 2 ^ 53 - 1 - step, 971⟩
    (scale? (UInt64.ofNat numeral.significand) numeral.power).any (·.isFinite)) = true := by
  decide +kernel

/-- The digits of a double do not depend on its sign. -/
theorem Layout.numeral_unsigned (layout : Layout) (negative : Bool) (significand : Nat)
    (exponent : Int) : layout.numeral ⟨negative, significand, exponent⟩ =
      { layout.numeral ⟨false, significand, exponent⟩ with negative := negative } := by
  unfold numeral positionalNumeral exponentNumeral
  dsimp only
  split
  · split
    · rfl
    · split <;> rfl
  · rfl

/-- The digits of a double fit 64 bits in a JSON text. -/
theorem Layout.significand_json_lt {number : Dyadic} (stored : number.IsStored) :
    (json.numeral number).significand < UInt64.size := by
  refine json.significand_numeral_lt number (fun point positional => ?_) stored
  have bounds : -5 < point ∧ point ≤ 16 := by simpa [json] using positional
  exact bounds.2

/-- No double is written as a number that is too large. -/
theorem exists_scale?_numeral {number : Dyadic} (stored : number.IsStored) :
    ∃ double, scale? (UInt64.ofNat (Layout.json.numeral number).significand)
      (Layout.json.numeral number).power = some double ∧ double.isFinite = true := by
  by_cases largest : number.exponent = 971 ∧ 2 ^ 53 - 9 ≤ number.significand
  · obtain ⟨negative, significand, exponent⟩ := number
    obtain ⟨rfl, large⟩ := largest
    have small := stored.fits
    dsimp only at large small
    have tried := List.all_eq_true.1 all_largest (2 ^ 53 - 1 - significand)
      (List.mem_range.2 (by omega))
    rw [show 2 ^ 53 - 1 - (2 ^ 53 - 1 - significand) = significand by omega] at tried
    obtain ⟨double, scaled, finite⟩ := (Option.any_eq_true ..).1 tried
    rw [Layout.numeral_unsigned]
    exact ⟨double, scaled, finite⟩
  · have room : ((Layout.json.numeral number).significand : ℚ) *
        10 ^ (Layout.json.numeral number).power ≤ (2 ^ 53 - 17 / 2) * 2 ^ (971 : Int) := by
      refine (Layout.json.covers_numeral number).upper.trans ?_
      have fits := stored.fits
      rcases stored.greatest.eq_or_lt with last | before
      · have small : number.significand + 10 ≤ 2 ^ 53 := by omega
        have small : (number.significand + 10 : ℚ) ≤ 2 ^ 53 := by exact_mod_cast small
        rw [last]
        exact mul_le_mul_of_nonneg_right (by linarith) (zpow_pos two_pos _).le
      · have most : (number.significand + 1 : ℚ) ≤ 2 ^ 53 := by exact_mod_cast fits
        calc (number.significand + 1 / 2 : ℚ) * 2 ^ number.exponent
            ≤ 2 ^ 53 * 2 ^ (970 : Int) :=
              mul_le_mul (by linarith) (zpow_le_zpow_right₀ one_le_two (by omega))
                (zpow_pos two_pos _).le (by positivity)
          _ ≤ (2 ^ 53 - 17 / 2) * 2 * 2 ^ (970 : Int) :=
              mul_le_mul_of_nonneg_right (by norm_num) (zpow_pos two_pos _).le
          _ = (2 ^ 53 - 17 / 2) * 2 ^ (971 : Int) := by
              rw [mul_assoc, ← zpow_one_add₀ two_ne_zero]
              rfl
    obtain ⟨double, exact, value, scaled, rounded⟩ :=
      Json.Numeral.exists_scale? (Layout.significand_json_lt stored) room
    exact ⟨double, scaled, rounded.isFinite⟩

theorem isFinite_neg {double : Float} (finite : double.isFinite = true) :
    (-double).isFinite = true := by
  obtain ⟨exact, same⟩ := (isFinite_iff double).1 finite
  exact (isFinite_iff _).2 ⟨_, magnitude_neg same⟩

namespace Json.Number

/-- The digits of a double are scaled, and the sign is set afterwards. -/
theorem exists_value_real {value : Float} (finite : value.isFinite = true) {exact : Dyadic}
    (same : magnitude value = .finite exact) :
    ∃ double, scale? (UInt64.ofNat (Number.real value finite).numeral.significand)
        (Number.real value finite).numeral.power = some double ∧
      ∃ signed, (Number.real value finite).numeral.value =
        .ok (.real (if exact.negative then -double else double) signed) := by
  have stored := isStored_of_magnitude same
  have written : (Number.real value finite).numeral = Layout.json.numeral exact := by
    rw [numeral, same]
  obtain ⟨double, scaled, isFinite⟩ := exists_scale?_numeral stored
  have signed : (if exact.negative then -double else double).isFinite = true := by
    split
    · exact isFinite_neg isFinite
    · exact isFinite
  rw [written]
  refine ⟨double, scaled, signed, ?_⟩
  rw [Numeral.value_of_isReal (Layout.significand_json_lt stored)
    (Layout.json.isReal_numeral exact rfl), scaled, Layout.negative_numeral]
  exact dif_pos signed

/-- This number is read when a number is written. -/
def reread (number : Number) : Number :=
  match number.numeral.value with
  | .ok again => again
  | .error _ => number

/-- Every number that is written can be read. -/
theorem value_numeral (number : Number) : number.numeral.value = .ok number.reread := by
  have readable : ∃ again, number.numeral.value = .ok again := by
    cases number with
    | integer value => exact ⟨_, Numeral.value_numeral value⟩
    | real value finite =>
        obtain ⟨exact, same⟩ := (isFinite_iff value).1 finite
        obtain ⟨_, _, _, read⟩ := exists_value_real finite same
        exact ⟨_, read⟩
  obtain ⟨again, read⟩ := readable
  rw [reread, read]

theorem reread_integer (value : Integer) : (Number.integer value).reread = .integer value :=
  Except.ok.inj ((value_numeral _).symm.trans (Numeral.value_numeral value))

/-- A double stays a double. -/
theorem exists_reread_real (value : Float) (finite : value.isFinite = true) :
    ∃ again signed, (Number.real value finite).reread = .real again signed := by
  obtain ⟨exact, same⟩ := (isFinite_iff value).1 finite
  obtain ⟨_, _, signed, read⟩ := exists_value_real finite same
  exact ⟨_, signed, Except.ok.inj ((value_numeral _).symm.trans read)⟩

/-- A double whose digits are rounded only once is read again as itself. -/
theorem reread_of_roundsOnce {value : Float} {finite : value.isFinite = true}
    (once : (Number.real value finite).numeral.RoundsOnce) :
    (Number.real value finite).reread = .real value finite := by
  obtain ⟨exact, same⟩ := (isFinite_iff value).1 finite
  have stored := isStored_of_magnitude same
  have written : (Number.real value finite).numeral = Layout.json.numeral exact := by
    rw [numeral, same]
  obtain ⟨double, scaled, signed, read⟩ := exists_value_real finite same
  rw [value_numeral, Except.ok.injEq] at read
  rw [written] at once scaled
  obtain ⟨double', unsigned, scaled', rounded⟩ :=
    Numeral.exists_scale?_of_once (Layout.significand_json_lt stored) once.bits once.small
  obtain rfl : double = double' := Option.some.inj (scaled.symm.trans scaled')
  -- The exact value lies in the interval of both doubles, whatever their signs are.
  have covers := Layout.json.covers_numeral exact
  have absolute : Dyadic.Covers { exact with negative := false } _ :=
    ⟨covers.lower, covers.upper, covers.even⟩
  have equal := absolute.unique rounded.covers
    ⟨stored.fits, stored.least, stored.greatest, stored.normal⟩ rounded.stored
    (mul_nonneg (Nat.cast_nonneg _) (zpow_pos (by norm_num) _).le) rounded.positive.symm
  have again : magnitude (if exact.negative then -double else double) = .finite exact := by
    have finite := rounded.finite
    rw [← equal] at finite
    obtain ⟨negative, significand, exponent⟩ := exact
    cases negative with
    | false => exact finite
    | true => exact magnitude_neg finite
  rw [read]
  congr 1
  exact eq_of_magnitude again same

end Json.Number

namespace Json.Value

mutual

/-- The numbers of a value are read again at any depth. -/
def reread : Value → Value
  | .null => .null
  | .boolean value => .boolean value
  | .number value => .number value.reread
  | .string value => .string value
  | .array items => .array (rereadItems items)
  | .object members => .object (rereadMembers members)

/-- All items are read again. -/
def rereadItems : List Value → List Value
  | [] => []
  | item :: rest => reread item :: rereadItems rest

/-- All members keep their keys. -/
def rereadMembers : List (String × Value) → List (String × Value)
  | [] => []
  | (key, item) :: rest => (key, reread item) :: rereadMembers rest

end

mutual

/-- A value without doubles does not change. -/
theorem reread_of_isExact (value : Value) (exact : value.isExact = true) :
    value.reread = value := by
  match value with
  | .null => rfl
  | .boolean _ => rfl
  | .number (.integer value) => rw [reread, Number.reread_integer]
  | .number (.real ..) => cases exact
  | .string _ => rfl
  | .array items => rw [reread, rereadItems_of_areExact items exact]
  | .object members => rw [reread, rereadMembers_of_haveExact members exact]

theorem rereadItems_of_areExact (items : List Value) (exact : areExact items = true) :
    rereadItems items = items := by
  match items with
  | [] => rfl
  | item :: rest =>
      rw [areExact, Bool.and_eq_true] at exact
      rw [rereadItems, reread_of_isExact item exact.1, rereadItems_of_areExact rest exact.2]

theorem rereadMembers_of_haveExact (members : List (String × Value))
    (exact : haveExact members = true) : rereadMembers members = members := by
  match members with
  | [] => rfl
  | (key, item) :: rest =>
      rw [haveExact, Bool.and_eq_true] at exact
      rw [rereadMembers, reread_of_isExact item exact.1, rereadMembers_of_haveExact rest exact.2]

end

end Json.Value

end SemanticQuery
