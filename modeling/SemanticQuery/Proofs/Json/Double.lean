/-
This file shows that the text of a double is scanned as its shortest digits, whatever stands around
them.
-/

import SemanticQuery.Number.Layout
import SemanticQuery.Proofs.Json.Integer
import SemanticQuery.Proofs.Number.Shortest

namespace SemanticQuery

open Json (EndsNumber Numeral)
open Json.Grammar (IsDigits)

namespace Layout

/-- The digits stand around the decimal point, with zeros between them if needed. -/
def positionalNumeral (keepFraction negative : Bool) (digits : List Char) (point : Int) : Numeral :=
  if point ≤ 0 then ⟨negative, ['0'], List.replicate (-point).toNat '0' ++ digits, none⟩
  else if digits.length ≤ point.toNat then
    ⟨negative, digits ++ List.replicate (point.toNat - digits.length) '0',
      if keepFraction then ['0'] else [], none⟩
  else ⟨negative, digits.take point.toNat, digits.drop point.toNat, none⟩

/-- The exponent counts from the first digit. -/
def exponentNumeral (negative : Bool) (digits : List Char) (point : Int) : Numeral :=
  ⟨negative, digits.take 1, digits.drop 1, some (point - 1)⟩

/-- The numeral of a dyadic number has the parts of its text. -/
def numeral (layout : Layout) (number : Dyadic) : Numeral :=
  let decimal := Decimal.shortest layout.tie number.significand number.exponent
  let digits := Nat.toDigits 10 decimal.digits
  let point := digits.length + decimal.exponent
  if layout.positional point then
    positionalNumeral layout.keepFraction number.negative digits point
  else exponentNumeral number.negative digits point

/-- A fraction stands behind a point unless it is empty. -/
def fractionText (fraction : List Char) : List Char :=
  if fraction.isEmpty then [] else '.' :: fraction

end Layout

namespace Json.Numeral

/-- The digits of a number make one natural number when the decimal point is left out. -/
def significand (numeral : Numeral) : Nat :=
  Nat.ofDigitChars 10 (numeral.whole ++ numeral.fraction) 0

/-- The exponent of ten counts from the last digit. -/
def power (numeral : Numeral) : Int := numeral.exponent.getD 0 - numeral.fraction.length

/-- The whole digits of a number start with a zero only if there are no others. -/
structure IsDecimal (numeral : Numeral) : Prop where
  whole : IsDigits numeral.whole
  noZero : numeral.whole.head? = some '0' → numeral.whole = ['0']
  fraction : ∀ character ∈ numeral.fraction, character.isDigit = true

variable {negative : Bool} {whole fraction tail rest : List Char} {result : Numeral}

theorem scanAfterWhole_fraction (digits : ∀ character ∈ fraction, character.isDigit = true)
    (other : ∀ next ∈ tail.head?, next.isDigit = false ∧ next ≠ '.')
    (scanned : scanAfterDigits ⟨negative, whole, fraction, none⟩ tail = .ok (result, rest)) :
    scanAfterWhole ⟨negative, whole, [], none⟩ (Layout.fractionText fraction ++ tail) =
      .ok (result, rest) := by
  cases fraction with
  | nil =>
      change scanAfterWhole ⟨negative, whole, [], none⟩ tail = _
      unfold scanAfterWhole
      split
      · exact absurd rfl (other '.' rfl).2
      · exact scanned
  | cons digit fraction =>
      obtain ⟨taken, dropped⟩ := takeWhile_digits digits fun next first => (other next first).1
      change scanAfterWhole ⟨negative, whole, [], none⟩ ('.' :: (digit :: fraction ++ tail)) = _
      simp only [scanAfterWhole, taken, dropped, List.isEmpty_cons, Bool.false_eq_true, if_false]
      exact scanned

/-- The parts of a number are scanned one after the other. -/
theorem scan_parts {numeral : Numeral} (decimal : numeral.IsDecimal)
    (other : ∀ next ∈ tail.head?, next.isDigit = false ∧ next ≠ '.')
    (scanned : scanAfterDigits { numeral with exponent := none } tail = .ok (result, rest)) :
    scan ((if numeral.negative then ['-'] else []) ++
      (numeral.whole ++ Layout.fractionText numeral.fraction) ++ tail) = .ok (result, rest) := by
  obtain ⟨negative, whole, fraction, exponent⟩ := numeral
  obtain ⟨digits, noZero, fractional⟩ := decimal
  dsimp only at digits noZero fractional scanned ⊢
  have noDigit : ∀ next ∈ (Layout.fractionText fraction ++ tail).head?, next.isDigit = false := by
    cases fraction with
    | nil => exact fun next first => (other next first).1
    | cons digit fraction =>
        rintro next ⟨⟩
        rfl
  obtain ⟨taken, dropped⟩ := takeWhile_digits digits.digits noDigit
  have filled : whole.isEmpty = false := by simpa using digits.some
  have single : ¬(whole.head? = some '0' ∧ whole.length ≠ 1) := fun leading =>
    leading.2 (congrArg List.length (noZero leading.1))
  have unsigned : scanWhole negative (whole ++ (Layout.fractionText fraction ++ tail)) =
      .ok (result, rest) := by
    simp only [scanWhole, taken, dropped, filled, Bool.false_eq_true, if_false, if_neg single]
    exact scanAfterWhole_fraction fractional other scanned
  rw [List.append_assoc, List.append_assoc]
  cases negative with
  | true => exact unsigned
  | false =>
      obtain ⟨first, others, rfl⟩ := List.exists_cons_of_ne_nil digits.some
      have digit := digits.digits first List.mem_cons_self
      change scan (first :: others ++ _) = _
      unfold scan
      split
      · next same =>
          cases same
          cases digit
      · exact unsigned

/-- A number starts with a sign or with a digit. -/
theorem exists_start {text : List Char} (scanned : scan text = .ok (result, rest)) :
    ∃ first others, text = first :: others ∧ (first = '-' ∨ first.isDigit = true) := by
  rw [scan.eq_def] at scanned
  split at scanned
  · exact ⟨'-', _, rfl, .inl rfl⟩
  · simp only [scanWhole] at scanned
    split at scanned
    · cases scanned
    · next digits =>
        cases text with
        | nil => exact absurd rfl digits
        | cons first others =>
            refine ⟨first, others, rfl, .inr ?_⟩
            by_contra other
            rw [List.takeWhile_cons_of_neg other] at digits
            exact digits rfl

/-- A number without an exponent ends behind its digits. -/
theorem scanAfterDigits_ends (numeral : Numeral) (ends : EndsNumber rest) :
    scanAfterDigits numeral rest = .ok (numeral, rest) := by
  unfold scanAfterDigits
  split
  · exact absurd (ends 'e' rfl).2 (by decide)
  · exact absurd (ends 'E' rfl).2 (by decide)
  · rfl

/-- A negative number is written with its sign. -/
theorem toList_toString (number : Int) :
    (toString number).toList =
      (if number < 0 then ['-'] else []) ++ Nat.toDigits 10 number.natAbs := by
  rw [Int.toString_eq_repr, Int.repr_eq_if]
  by_cases negative : number < 0
  · rw [if_neg (by omega), if_pos negative, show (-number).toNat = number.natAbs by omega]
    simp
  · rw [if_pos (by omega), if_neg negative, show number.toNat = number.natAbs by omega]
    simp

/-- A digit is no sign. -/
theorem exponentSign_digits {digits : List Char} (power : IsDigits digits) (rest : List Char) :
    exponentSign (digits ++ rest) = (false, digits ++ rest) := by
  obtain ⟨first, others, rfl⟩ := List.exists_cons_of_ne_nil power.some
  have digit := power.digits first List.mem_cons_self
  unfold exponentSign
  split
  · next same =>
      cases same
      cases digit
  · next same =>
      cases same
      cases digit
  · rfl

/-- The digits behind the sign are the exponent. -/
theorem scanExponent_digits (numeral : Numeral) {text digits : List Char} (power : IsDigits digits)
    {size : Nat} (value : Nat.ofDigitChars 10 digits 0 = size)
    (signed : exponentSign text = (negative, digits ++ rest)) (ends : EndsNumber rest) :
    scanExponent numeral text =
      .ok ({ numeral with exponent := some (if negative then -(size : Int) else size) }, rest) := by
  obtain ⟨taken, dropped⟩ := takeWhile_digits power.digits fun next first => (ends next first).1
  have filled : digits.isEmpty = false := by simpa using power.some
  rw [scanExponent, signed]
  simp only [taken, dropped, filled, value, Bool.false_eq_true, if_false]

/-- A written exponent is scanned as itself. A sign may stand before it if it is not negative. -/
theorem scanAfterDigits_exponent (numeral : Numeral) {plus : List Char}
    (signs : plus = [] ∨ plus = ['+']) (exponent : Int) (ends : EndsNumber rest) :
    scanAfterDigits numeral ('e' :: ((if 0 ≤ exponent then plus else []) ++
      (toString exponent).toList ++ rest)) =
        .ok ({ numeral with exponent := some exponent }, rest) := by
  have power : IsDigits (Nat.toDigits 10 exponent.natAbs) :=
    ⟨Nat.toDigits_ne_nil, fun _ => isDigit_of_mem_toDigits⟩
  have value : Nat.ofDigitChars 10 (Nat.toDigits 10 exponent.natAbs) 0 = exponent.natAbs :=
    Nat.ofDigitChars_ten_toDigits
  change scanExponent numeral _ = _
  rw [toList_toString]
  by_cases negative : exponent < 0
  · have signed : exponentSign ([] ++ (['-'] ++ Nat.toDigits 10 exponent.natAbs) ++ rest) =
        (true, Nat.toDigits 10 exponent.natAbs ++ rest) := rfl
    rw [if_neg (by omega), if_pos negative, scanExponent_digits numeral power value signed ends,
      if_pos rfl, show -(exponent.natAbs : Int) = exponent by omega]
  · have size : (exponent.natAbs : Int) = exponent := by omega
    have unsigned : exponentSign (plus ++ Nat.toDigits 10 exponent.natAbs ++ rest) =
        (false, Nat.toDigits 10 exponent.natAbs ++ rest) := by
      rcases signs with rfl | rfl
      · exact exponentSign_digits power rest
      · rfl
    rw [if_pos (by omega), if_neg negative, List.nil_append,
      scanExponent_digits numeral power value unsigned ends, size]
    rfl

end Json.Numeral

namespace Layout

variable {keepFraction negative : Bool} {digits : List Char} {point : Int}

theorem fractionText_of_ne {fraction : List Char} (some : fraction ≠ []) :
    fractionText fraction = '.' :: fraction := by
  rw [fractionText, if_neg (by simpa using some)]

theorem positionalText_eq (keepFraction negative : Bool) (point : Int) (some : digits ≠ []) :
    positionalText keepFraction digits point =
      (positionalNumeral keepFraction negative digits point).whole ++
        fractionText (positionalNumeral keepFraction negative digits point).fraction := by
  rw [positionalText, positionalNumeral]
  split
  · rw [fractionText_of_ne (by simp [some])]
    rfl
  · split
    · cases keepFraction <;> rfl
    · next inside =>
        have behind : digits.drop point.toNat ≠ [] := by simpa using inside
        rw [fractionText_of_ne behind, List.append_assoc]
        rfl

theorem exponentText_eq (plus : String) (negative : Bool) (digits : List Char) (point : Int) :
    exponentText plus digits point = (exponentNumeral negative digits point).whole ++
      fractionText (exponentNumeral negative digits point).fraction ++
        'e' :: ((if 0 ≤ point - 1 then plus.toList else []) ++ (toString (point - 1)).toList) := by
  have signed : (if 1 ≤ point then plus.toList else []) =
      if 0 ≤ point - 1 then plus.toList else [] := if_congr (by omega) rfl rfl
  rw [exponentText, signed]
  simp only [exponentNumeral, fractionText, List.append_assoc, List.cons_append, List.nil_append]
  rfl

/-- Only zero starts with a zero, and it has no other digits. -/
theorem isDecimal_positionalNumeral {value : Nat} (zero : value = 0 → point = 1) :
    (positionalNumeral keepFraction negative (Nat.toDigits 10 value) point).IsDecimal := by
  have digits : ∀ character ∈ Nat.toDigits 10 value, character.isDigit = true :=
    fun _ => isDigit_of_mem_toDigits
  have zeros (count : Nat) : ∀ character ∈ List.replicate count '0', character.isDigit = true := by
    intro character inside
    rw [List.eq_of_mem_replicate inside]
    rfl
  have first : (Nat.toDigits 10 value).head? = some '0' → value = 0 := fun leading =>
    Nat.eq_zero_of_not_pos fun positive => head?_toDigits_ne_zero positive leading
  rw [positionalNumeral]
  split
  · refine ⟨⟨List.cons_ne_nil _ _, ?_⟩, fun _ => rfl, fun character inside => ?_⟩
    · exact List.forall_mem_singleton.2 rfl
    · exact (List.mem_append.1 inside).elim (zeros _ character) (digits character)
  · next positive =>
    split
    · refine ⟨⟨?_, fun character inside => ?_⟩, fun leading => ?_, ?_⟩
      · simp [Nat.toDigits_ne_nil]
      · exact (List.mem_append.1 inside).elim (digits character) (zeros _ character)
      · have none : value = 0 := first (by
          obtain ⟨digit, rest, same, _⟩ := exists_toDigits value
          rw [same] at leading ⊢
          exact leading)
        obtain rfl := zero none
        subst none
        rfl
      · cases keepFraction
        · exact fun character inside => absurd inside List.not_mem_nil
        · exact List.forall_mem_singleton.2 rfl
    · next inside =>
      obtain ⟨digit, rest, same, isDigit⟩ := exists_toDigits value
      obtain ⟨place, isPlace⟩ : ∃ place, point.toNat = place + 1 := ⟨point.toNat - 1, by omega⟩
      refine ⟨⟨?_, fun character inside => digits character (List.mem_of_mem_take inside)⟩,
        fun leading => ?_, fun character inside => digits character (List.mem_of_mem_drop inside)⟩
      · rw [isPlace, same]
        exact List.cons_ne_nil _ _
      · have none : value = 0 := first (by
          rw [isPlace, same] at leading
          rw [same]
          exact leading)
        subst none
        exact absurd (zero rfl) (by rintro rfl; exact inside le_rfl)

theorem isDecimal_exponentNumeral (value : Nat) :
    (exponentNumeral negative (Nat.toDigits 10 value) point).IsDecimal := by
  have digits : ∀ character ∈ Nat.toDigits 10 value, character.isDigit = true :=
    fun _ => isDigit_of_mem_toDigits
  obtain ⟨first, rest, same, digit⟩ := exists_toDigits value
  rw [same] at digits ⊢
  refine ⟨⟨List.cons_ne_nil _ _, List.forall_mem_singleton.2 digit⟩, fun leading => ?_,
    fun character inside => digits character (List.mem_of_mem_drop inside)⟩
  cases leading
  rfl

theorem scan_positionalText {value : Nat} (zero : value = 0 → point = 1) {rest : List Char}
    (ends : EndsNumber rest) :
    Numeral.scan ((if negative then ['-'] else []) ++
      positionalText keepFraction (Nat.toDigits 10 value) point ++ rest) =
        .ok (positionalNumeral keepFraction negative (Nat.toDigits 10 value) point, rest) := by
  have other : ∀ next ∈ rest.head?, next.isDigit = false ∧ next ≠ '.' := fun next first =>
    ⟨(ends next first).1, fun same => (ends next first).2 (by simp [same])⟩
  obtain ⟨numeral, isNumeral⟩ : ∃ numeral,
    numeral = positionalNumeral keepFraction negative (Nat.toDigits 10 value) point := ⟨_, rfl⟩
  have signed : numeral.negative = negative ∧ numeral.exponent = none := by
    rw [isNumeral, positionalNumeral]
    split
    · exact ⟨rfl, rfl⟩
    · split <;> exact ⟨rfl, rfl⟩
  have decimal : numeral.IsDecimal := isNumeral ▸ isDecimal_positionalNumeral zero
  obtain ⟨rfl, whole⟩ := signed
  have same : { numeral with exponent := none } = numeral := by rw [← whole]
  have scanned := Numeral.scan_parts decimal other (Numeral.scanAfterDigits_ends _ ends)
  rw [same] at scanned
  rw [positionalText_eq keepFraction numeral.negative point Nat.toDigits_ne_nil, ← isNumeral]
  exact scanned

theorem scan_exponentText {plus : String} (signs : plus = "" ∨ plus = "+") (value : Nat)
    {rest : List Char} (ends : EndsNumber rest) :
    Numeral.scan ((if negative then ['-'] else []) ++
      exponentText plus (Nat.toDigits 10 value) point ++ rest) =
        .ok (exponentNumeral negative (Nat.toDigits 10 value) point, rest) := by
  have signs' : plus.toList = [] ∨ plus.toList = ['+'] := by
    rcases signs with rfl | rfl
    · exact .inl rfl
    · exact .inr rfl
  have decimal : (exponentNumeral negative (Nat.toDigits 10 value) point).IsDecimal :=
    isDecimal_exponentNumeral value
  have scanned := Numeral.scan_parts decimal
    (by
      rintro next ⟨⟩
      exact ⟨rfl, by decide⟩)
    (Numeral.scanAfterDigits_exponent _ signs' (point - 1) ends)
  rw [exponentText_eq plus negative]
  simpa [exponentNumeral] using scanned

/-- The text of a double is scanned as its numeral. -/
theorem scan_text (layout : Layout) (signs : layout.plus = "" ∨ layout.plus = "+") (number : Dyadic)
    {rest : List Char} (ends : EndsNumber rest) :
    Numeral.scan ((layout.text number).toList ++ rest) = .ok (layout.numeral number, rest) := by
  rw [text, numeral, String.toList_ofList]
  obtain ⟨decimal, isDecimal⟩ : ∃ decimal,
    decimal = Decimal.shortest layout.tie number.significand number.exponent := ⟨_, rfl⟩
  have zero : decimal.digits = 0 → decimal.exponent = 0 := by
    rw [isDecimal]
    exact Decimal.exponent_shortest
  rw [← isDecimal]
  by_cases positional : layout.positional
      ((Nat.toDigits 10 decimal.digits).length + decimal.exponent) = true
  · rw [if_pos positional, if_pos positional]
    refine scan_positionalText (fun none => ?_) ends
    rw [none, zero none]
    rfl
  · rw [if_neg positional, if_neg positional]
    exact scan_exponentText signs _ ends

section Value

variable {value : Nat}

/-- A text has the digits of the decimal, with zeros behind them up to the decimal point or one
place further. -/
structure Spreads (value : Nat) (exponent : Int) (numeral : Numeral) (zeros : Nat) : Prop where
  significand : numeral.significand = value * 10 ^ zeros
  power : numeral.power = exponent - zeros
  short : zeros = 0 ∨ zeros ≤ exponent + 1

theorem exists_spreads_positionalNumeral (value : Nat) (exponent : Int) :
    ∃ zeros, Spreads value exponent (positionalNumeral keepFraction negative (Nat.toDigits 10 value)
      ((Nat.toDigits 10 value).length + exponent)) zeros := by
  obtain ⟨digits, isDigits⟩ : ∃ digits, digits = Nat.toDigits 10 value := ⟨_, rfl⟩
  have written : Nat.ofDigitChars 10 digits 0 = value := by
    rw [isDigits, Nat.ofDigitChars_ten_toDigits]
  have padded (zeros : Nat) :
      Nat.ofDigitChars 10 (digits ++ List.replicate zeros '0') 0 = value * 10 ^ zeros := by
    rw [Nat.ofDigitChars_append, written, Nat.ofDigitChars_replicate_zero, Nat.mul_comm]
  rw [← isDigits, positionalNumeral]
  split
  · next small =>
      refine ⟨0, ?_, ?_, .inl rfl⟩
      · simp only [Numeral.significand]
        rw [← List.append_assoc, List.singleton_append, ← List.replicate_succ,
          Nat.ofDigitChars_append, Nat.ofDigitChars_replicate_zero, Nat.mul_zero, written, pow_zero,
          Nat.mul_one]
      · simp only [Numeral.power, Option.getD_none, List.length_append, List.length_replicate]
        omega
  · next positive =>
    split
    · next inside =>
        cases keepFraction
        · refine ⟨exponent.toNat, ?_, ?_, .inr (by omega)⟩
          · simp only [Numeral.significand, Bool.false_eq_true, if_false, List.append_nil]
            rw [padded]
            congr 2
            omega
          · simp only [Numeral.power, Option.getD_none, Bool.false_eq_true, if_false,
              List.length_nil]
            omega
        · refine ⟨exponent.toNat + 1, ?_, ?_, .inr (by omega)⟩
          · simp only [Numeral.significand, if_true, List.append_assoc]
            rw [← List.replicate_succ', padded]
            congr 2
            omega
          · simp only [Numeral.power, Option.getD_none, if_true, List.length_singleton]
            omega
    · next outside =>
        refine ⟨0, ?_, ?_, .inl rfl⟩
        · simp only [Numeral.significand, List.take_append_drop, written, pow_zero, Nat.mul_one]
        · simp only [Numeral.power, Option.getD_none, List.length_drop]
          omega

theorem spreads_exponentNumeral (value : Nat) (exponent : Int) :
    Spreads value exponent (exponentNumeral negative (Nat.toDigits 10 value)
      ((Nat.toDigits 10 value).length + exponent)) 0 := by
  have some : 0 < (Nat.toDigits 10 value).length := List.length_pos_iff.2 Nat.toDigits_ne_nil
  refine ⟨?_, ?_, .inl rfl⟩
  · simp only [exponentNumeral, Numeral.significand, List.take_append_drop,
      Nat.ofDigitChars_ten_toDigits, pow_zero, Nat.mul_one]
  · simp only [exponentNumeral, Numeral.power, Option.getD_some, List.length_drop]
    omega

/-- The digits have the value of the decimal wherever the zeros are. -/
theorem Spreads.value_eq {exponent : Int} {numeral : Numeral} {zeros : Nat}
    (spreads : Spreads value exponent numeral zeros) :
    (numeral.significand : ℚ) * 10 ^ numeral.power = value * 10 ^ exponent := by
  rw [spreads.significand, spreads.power, zpow_sub₀ (by norm_num), zpow_natCast]
  push_cast
  field_simp

end Value

variable (layout : Layout) (number : Dyadic)

/-- Zeros are only written in positional texts. -/
theorem exists_spreads : ∃ zeros, Spreads
    (Decimal.shortest layout.tie number.significand number.exponent).digits
    (Decimal.shortest layout.tie number.significand number.exponent).exponent
    (layout.numeral number) zeros ∧
      (zeros = 0 ∨ layout.positional ((Nat.toDigits 10
        (Decimal.shortest layout.tie number.significand number.exponent).digits).length +
          (Decimal.shortest layout.tie number.significand number.exponent).exponent) = true) := by
  unfold numeral
  obtain ⟨decimal, isDecimal⟩ : ∃ decimal,
    decimal = Decimal.shortest layout.tie number.significand number.exponent := ⟨_, rfl⟩
  rw [← isDecimal]
  dsimp only
  split
  · next positional =>
      obtain ⟨zeros, spreads⟩ := exists_spreads_positionalNumeral decimal.digits decimal.exponent
      exact ⟨zeros, spreads, .inr positional⟩
  · exact ⟨0, spreads_exponentNumeral _ _, .inl rfl⟩

/-- The written number lies in the interval of the double. -/
theorem covers_numeral :
    number.Covers ((layout.numeral number).significand * 10 ^ (layout.numeral number).power) := by
  obtain ⟨zeros, spreads, _⟩ := layout.exists_spreads number
  rw [spreads.value_eq]
  exact number.covers_shortest layout.tie

theorem negative_numeral : (layout.numeral number).negative = number.negative := by
  unfold numeral positionalNumeral exponentNumeral
  dsimp only
  split
  · split
    · rfl
    · split <;> rfl
  · rfl

/-- A written double is never taken for an integer. -/
theorem isReal_numeral (keeps : layout.keepFraction = true) :
    ((layout.numeral number).fraction.isEmpty && (layout.numeral number).exponent.isNone) =
      false := by
  unfold numeral positionalNumeral exponentNumeral
  dsimp only
  split
  · split
    · simp [Nat.toDigits_ne_nil]
    · split
      · rfl
      · next outside => simpa using outside
  · exact Bool.and_false _

/-- Two doubles with the same text are the same double. -/
theorem text_injective {other : Dyadic} (signs : layout.plus = "" ∨ layout.plus = "+")
    (stored : number.IsStored) (stored' : other.IsStored)
    (same : layout.text number = layout.text other) : number = other := by
  have scanned := layout.scan_text signs number Json.endsNumber_nil
  rw [same, layout.scan_text signs other Json.endsNumber_nil] at scanned
  have numeral : layout.numeral other = layout.numeral number :=
    congrArg Prod.fst (Except.ok.inj scanned)
  have covers := layout.covers_numeral number
  have covers' := layout.covers_numeral other
  rw [numeral] at covers'
  have notNegative := mul_nonneg (Nat.cast_nonneg (layout.numeral number).significand)
    (zpow_pos (by norm_num : (0 : ℚ) < 10) (layout.numeral number).power).le
  refine covers.unique covers' stored stored' notNegative ?_
  rw [← layout.negative_numeral number, ← numeral, layout.negative_numeral]

/-- The digits of a written double fit 64 bits, with the zeros up to the decimal point. -/
theorem significand_numeral_lt (bounded : ∀ point, layout.positional point = true → point ≤ 16)
    (stored : number.IsStored) : (layout.numeral number).significand < UInt64.size := by
  obtain ⟨zeros, spreads, positional⟩ := layout.exists_spreads number
  have digits := stored.digits_shortest_lt layout.tie
  rw [spreads.significand]
  rcases spreads.short with rfl | short
  · rwa [pow_zero, Nat.mul_one]
  · rcases positional with rfl | positional
    · rwa [pow_zero, Nat.mul_one]
    · have places := bounded _ positional
      generalize Decimal.shortest layout.tie number.significand number.exponent = decimal at *
      have fits : decimal.digits < 10 ^ (Nat.toDigits 10 decimal.digits).length :=
        (Nat.length_toDigits_le_iff (by decide) Nat.length_toDigits_pos).1 le_rfl
      calc decimal.digits * 10 ^ zeros
          < 10 ^ (Nat.toDigits 10 decimal.digits).length * 10 ^ zeros :=
            Nat.mul_lt_mul_of_pos_right fits (Nat.pow_pos (by decide))
        _ = 10 ^ ((Nat.toDigits 10 decimal.digits).length + zeros) := (pow_add ..).symm
        _ ≤ 10 ^ 17 := Nat.pow_le_pow_right (by decide) (by omega)
        _ < UInt64.size := by decide

end Layout

end SemanticQuery
