/-
This file shows that a written integer is read back exactly, up to the ends of its range.
-/

import SemanticQuery.Proofs.Json.Grammar

namespace SemanticQuery

theorem isDigit_of_mem_toDigits {value : Nat} {character : Char}
    (inside : character ∈ Nat.toDigits 10 value) : character.isDigit = true :=
  Nat.isDigit_of_mem_toDigits (by decide) (by decide) inside

/-- A number has a first digit. -/
theorem exists_toDigits (value : Nat) :
    ∃ first rest, Nat.toDigits 10 value = first :: rest ∧ first.isDigit = true := by
  obtain ⟨first, rest, digits⟩ := List.exists_cons_of_ne_nil
    (Nat.toDigits_ne_nil (b := 10) (n := value))
  have member : first ∈ Nat.toDigits 10 value := by simp [digits]
  exact ⟨first, rest, digits, isDigit_of_mem_toDigits member⟩

/-- The digits of a positive number do not start with a zero. -/
theorem head?_toDigits_ne_zero {value : Nat} (positive : 0 < value) :
    (Nat.toDigits 10 value).head? ≠ some '0' := by
  induction value using Nat.strongRecOn with
  | _ value inductionHypothesis =>
      by_cases small : value < 10
      · rw [Nat.toDigits_of_lt_base small]
        have single : ∀ digit ∈ List.range 10, 0 < digit → Nat.digitChar digit ≠ '0' := by decide
        simpa using single value (List.mem_range.2 small) positive
      · have front : 0 < value / 10 := Nat.div_pos (Nat.le_of_not_lt small) (by decide)
        have last : value % 10 < 10 := Nat.mod_lt _ (by decide)
        have split := Nat.toDigits_append_toDigits (b := 10) (by decide) front last
        rw [Nat.div_add_mod] at split
        have first := inductionHypothesis (value / 10) (by omega) front
        obtain ⟨digit, digits, same, _⟩ := exists_toDigits (value / 10)
        rw [← split, same]
        rw [same] at first
        exact first

/-- The numeral of an integer has its digits and nothing else. -/
def Integer.numeral (integer : Integer) : Json.Numeral where
  negative := integer.value < 0
  whole := Nat.toDigits 10 integer.value.natAbs
  fraction := []
  exponent := none

/-- A negative integer is written with its sign. -/
theorem Integer.toList_text (integer : Integer) :
    integer.text.toList = (if integer.value < 0 then ['-'] else []) ++
      Nat.toDigits 10 integer.value.natAbs := by
  rw [text, Int.toString_eq_repr, Int.repr_eq_if]
  by_cases negative : integer.value < 0
  · have size : (-integer.value).toNat = integer.value.natAbs := by omega
    rw [if_neg (by omega), if_pos negative, size]
    simp
  · have size : integer.value.toNat = integer.value.natAbs := by omega
    rw [if_pos (by omega), if_neg negative, size]
    simp

namespace Json

/-- A number goes on with these characters only. -/
def EndsNumber (rest : List Char) : Prop :=
  ∀ next ∈ rest.head?, next.isDigit = false ∧ next ∉ ['.', 'e', 'E']

theorem endsNumber_nil : EndsNumber [] := by simp [EndsNumber]

theorem endsNumber_cons {next : Char} (rest : List Char) (noDigit : next.isDigit = false)
    (other : next ∉ ['.', 'e', 'E']) : EndsNumber (next :: rest) := by
  intro first same
  cases same
  exact ⟨noDigit, other⟩

namespace Numeral

variable {rest : List Char}

/-- The digits in front of any other character are taken together. -/
theorem takeWhile_digits {digits : List Char}
    (all : ∀ character ∈ digits, character.isDigit = true)
    (other : ∀ next ∈ rest.head?, next.isDigit = false) :
    (digits ++ rest).takeWhile Char.isDigit = digits ∧
      (digits ++ rest).dropWhile Char.isDigit = rest := by
  rw [List.takeWhile_append_of_pos all, List.dropWhile_append_of_pos all]
  cases rest with
  | nil => simp
  | cons next rest =>
      have noDigit := other next rfl
      simp [noDigit]

/-- Neither a fraction nor an exponent follows. -/
theorem scanAfterWhole_ends (numeral : Numeral) (ends : EndsNumber rest) :
    scanAfterWhole numeral rest = .ok (numeral, rest) := by
  cases rest with
  | nil => rfl
  | cons next rest =>
      obtain ⟨noPoint, noSmall, noLarge⟩ : next ≠ '.' ∧ next ≠ 'e' ∧ next ≠ 'E' := by
        simpa using (ends next rfl).2
      rw [scanAfterWhole, scanAfterDigits]
      all_goals simp_all

/-- The digits of a number are scanned up to their end. -/
theorem scanWhole_toDigits (negative : Bool) (value : Nat) (ends : EndsNumber rest) :
    scanWhole negative (Nat.toDigits 10 value ++ rest) =
      .ok (⟨negative, Nat.toDigits 10 value, [], none⟩, rest) := by
  have digits : ∀ character ∈ Nat.toDigits 10 value, character.isDigit = true :=
    fun _ => isDigit_of_mem_toDigits
  obtain ⟨taken, dropped⟩ := takeWhile_digits digits fun next first => (ends next first).1
  have filled : (Nat.toDigits 10 value).isEmpty = false := by
    simp [Nat.toDigits_ne_nil]
  have noZero : ¬((Nat.toDigits 10 value).head? = some '0' ∧
      (Nat.toDigits 10 value).length ≠ 1) := by
    intro leading
    rcases Nat.eq_zero_or_pos value with rfl | positive
    · exact leading.2 rfl
    · exact head?_toDigits_ne_zero positive leading.1
  simp only [scanWhole, taken, dropped, filled, Bool.false_eq_true, if_false, if_neg noZero]
  exact scanAfterWhole_ends _ ends

/-- The text of an integer is scanned as its numeral. -/
theorem scan_text (integer : Integer) (ends : EndsNumber rest) :
    scan (integer.text.toList ++ rest) = .ok (integer.numeral, rest) := by
  have scanned : scanWhole (integer.value < 0) (Nat.toDigits 10 integer.value.natAbs ++ rest) =
      .ok (integer.numeral, rest) := scanWhole_toDigits _ _ ends
  rw [integer.toList_text]
  by_cases negative : integer.value < 0
  · rw [if_pos negative]
    simpa [scan, negative] using scanned
  · rw [if_neg negative, List.nil_append]
    have noSign : ∀ after, Nat.toDigits 10 integer.value.natAbs ++ rest ≠ '-' :: after := by
      intro after same
      obtain ⟨first, digits, split, digit⟩ := exists_toDigits integer.value.natAbs
      rw [split] at same
      cases same
      cases digit
    rw [scan.eq_def]
    split
    · next after same => exact absurd same (noSign after)
    · simpa [negative] using scanned

/-- More digits never make a number smaller. -/
theorem le_ofDigitChars (digits : List Char) (value : Nat) :
    value ≤ Nat.ofDigitChars 10 digits value := by
  induction digits generalizing value with
  | nil => exact Nat.le_refl _
  | cons digit digits inductionHypothesis =>
      have bound := inductionHypothesis (10 * value + (digit.toNat - '0'.toNat))
      rw [Nat.ofDigitChars_cons]
      omega

/-- Digits are taken as long as their value fits, which it does to the end here. -/
theorem absorb_digits (digits : List Char) (value : Nat)
    (fits : Nat.ofDigitChars 10 digits value < UInt64.size) :
    absorb value digits = (Nat.ofDigitChars 10 digits value, []) := by
  induction digits generalizing value with
  | nil => rfl
  | cons digit digits inductionHypothesis =>
      rw [Nat.ofDigitChars_cons, Nat.mul_comm] at fits ⊢
      have small := Nat.lt_of_le_of_lt (le_ofDigitChars digits _) fits
      rw [absorb]
      simp only [small, if_true]
      exact inductionHypothesis _ fits

/-- The numeral of an integer has that integer as its value. -/
theorem value_numeral (integer : Integer) : integer.numeral.value = .ok (.integer integer) := by
  have lower := integer.lower
  have upper := integer.upper
  have size : UInt64.size = 0x10000000000000000 := rfl
  have number : Nat.ofDigitChars 10 (Nat.toDigits 10 integer.value.natAbs) 0 =
      integer.value.natAbs := Nat.ofDigitChars_toDigits (by decide) (by decide)
  have absorbed : absorb 0 (Nat.toDigits 10 integer.value.natAbs) =
      (integer.value.natAbs, []) := by
    rw [absorb_digits _ 0 (by omega), number]
  have signed : (if integer.value < 0 then -(integer.value.natAbs : Int)
      else integer.value.natAbs) = integer.value := by
    split <;> omega
  have noMinusZero : (decide (integer.value < 0) && decide (integer.value.natAbs = 0)) = false := by
    rw [Bool.and_eq_false_iff, decide_eq_false_iff_not, decide_eq_false_iff_not]
    omega
  have exactly : Integer.ofInt? integer.value = some integer := by
    rw [Integer.ofInt?, dif_pos ⟨lower, upper⟩]
  simp only [value, Integer.numeral, absorbed, absorb, noMinusZero, decide_eq_true_eq, signed,
    exactly]
  rfl

/-- Different integers have different texts. -/
theorem text_injective : Function.Injective Integer.text := by
  intro first second same
  have scanned := scan_text first endsNumber_nil
  rw [same, scan_text second endsNumber_nil] at scanned
  have numeral : second.numeral = first.numeral := congrArg Prod.fst (Except.ok.inj scanned)
  have value := value_numeral second
  rw [numeral, value_numeral first] at value
  cases value
  rfl

end Numeral

namespace Grammar

/-- Every digit stands for a value below ten. -/
theorem exists_digitChar {character : Char} (digit : character.isDigit = true) :
    ∃ value < 10, character = Nat.digitChar value := by
  obtain ⟨least, greatest⟩ := Char.isDigit_iff_toNat.1 digit
  have zero : '0'.toNat = 48 := rfl
  have nine : '9'.toNat = 57 := rfl
  have small : character.toNat - 48 < 10 := by omega
  refine ⟨character.toNat - 48, small, Char.toNat_inj.1 ?_⟩
  rw [Nat.toNat_digitChar_of_lt_ten small]
  omega

/-- More digits stand behind those of a positive number. -/
theorem toDigits_ofDigitChars_of_pos {digits : List Char}
    (all : ∀ character ∈ digits, character.isDigit = true) {value : Nat} (positive : 0 < value) :
    Nat.toDigits 10 (Nat.ofDigitChars 10 digits value) = Nat.toDigits 10 value ++ digits := by
  induction digits generalizing value with
  | nil => simp
  | cons character digits inductionHypothesis =>
      obtain ⟨first, later⟩ := List.forall_mem_cons.1 all
      obtain ⟨digit, small, rfl⟩ := exists_digitChar first
      have split := Nat.toDigits_append_toDigits (b := 10) (by decide) positive small
      rw [Nat.ofDigitChars_cons_digitChar_of_lt_ten small,
        inductionHypothesis later (by omega), ← split, Nat.toDigits_of_lt_base small,
        List.append_assoc, List.singleton_append]

/-- Digits are those of their value if they do not start with a needless zero. -/
theorem toDigits_ofDigitChars {digits : List Char} (whole : IsDigits digits)
    (noZero : digits.head? = some '0' → digits = ['0']) :
    Nat.toDigits 10 (Nat.ofDigitChars 10 digits 0) = digits := by
  obtain ⟨character, digits, rfl⟩ := List.exists_cons_of_ne_nil whole.some
  obtain ⟨first, later⟩ := List.forall_mem_cons.1 whole.digits
  obtain ⟨digit, small, rfl⟩ := exists_digitChar first
  rcases Nat.eq_zero_or_pos digit with rfl | positive
  · rw [noZero rfl]
    rfl
  · rw [Nat.ofDigitChars_cons_digitChar_of_lt_ten small,
      toDigits_ofDigitChars_of_pos later (by omega), Nat.mul_zero, Nat.zero_add,
      Nat.toDigits_of_lt_base small, List.singleton_append]

/-- An integer has digits only, and a sign in front of them if it is negative. Only zero itself
starts with a zero. -/
inductive IsInteger : List Char → Int → Prop where
  | natural {digits : List Char} (whole : IsDigits digits)
      (noZero : digits.head? = some '0' → digits = ['0']) :
      IsInteger digits (Nat.ofDigitChars 10 digits 0)
  | negative {digits : List Char} (whole : IsDigits digits)
      (noZero : digits.head? = some '0' → digits = ['0']) :
      IsInteger ('-' :: digits) (-(Nat.ofDigitChars 10 digits 0 : Int))

theorem IsInteger.isNumber {token : List Char} {value : Int} (written : IsInteger token value) :
    IsNumber token := by
  cases written with
  | natural whole noZero =>
      simpa using IsNumber.parts List.mem_cons_self whole noZero .none .none
  | negative whole noZero =>
      have sign : ['-'] ∈ [[], ['-']] := by decide
      simpa using IsNumber.parts sign whole noZero .none .none

/-- An integer is written back with its own characters, unless it is a zero with a sign. -/
theorem IsInteger.toList_text {token : List Char} {integer : Integer}
    (written : IsInteger token integer.value) (noMinusZero : token ≠ ['-', '0']) :
    integer.text.toList = token := by
  rw [Integer.toList_text]
  generalize integer.value = value at written
  cases written with
  | natural whole noZero =>
      rw [if_neg (Int.not_lt.2 (Int.natCast_nonneg _)), List.nil_append, Int.natAbs_natCast,
        toDigits_ofDigitChars whole noZero]
  | @negative digits whole noZero =>
      have canonical := toDigits_ofDigitChars whole noZero
      have positive : Nat.ofDigitChars 10 digits 0 ≠ 0 := by
        intro zero
        rw [zero] at canonical
        exact noMinusZero (congrArg ('-' :: ·) canonical.symm)
      rw [if_pos (by omega), Int.natAbs_neg, Int.natAbs_natCast, canonical, List.singleton_append]

theorem IsInteger.text_eq {token : String} {integer : Integer}
    (written : IsInteger token.toList integer.value) (noMinusZero : token ≠ "-0") :
    integer.text = token := by
  apply String.toList_inj.1
  apply written.toList_text
  intro zero
  exact noMinusZero (String.toList_inj.1 zero)

end Grammar

end Json

end SemanticQuery
