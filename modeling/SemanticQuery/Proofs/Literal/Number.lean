/-
This file shows that the texts of numbers are plain. A minus sign only stands in front of a digit.
-/

import SemanticQuery.Number.Layout
import SemanticQuery.Proofs.Literal.Scanner

namespace SemanticQuery.Sql

/-- Numbers consist of these characters and of minus signs. -/
def isNumeric (character : Char) : Bool :=
  character.isDigit || character == '.' || character == 'e'

/-- A numeric character in front of plain text opens nothing. -/
theorem isPlain_cons_numeric {first : Char} {rest : List Char} (numeric : isNumeric first)
    (plain : IsPlain rest) : IsPlain (first :: rest) := by
  have different (other : Char) (notNumeric : isNumeric other = false) : first ≠ other := by
    intro same
    rw [same, notNumeric] at numeric
    cases numeric
  refine isPlain_cons_iff.2 ⟨different _ rfl, ?_, plain⟩
  intro opens
  rcases opens with special | line | block
  · simp [different '"' rfl, different '`' rfl, different '\\' rfl, different '#' rfl] at special
  · exact different '-' rfl (List.cons_prefix_cons.1 line).1.symm
  · exact different '/' rfl (List.cons_prefix_cons.1 block).1.symm

theorem isPlain_append_numeric {text rest : List Char} (numeric : text.all isNumeric)
    (plain : IsPlain rest) : IsPlain (text ++ rest) := by
  induction text with
  | nil => exact plain
  | cons first text inductionHypothesis =>
      rw [List.all_cons, Bool.and_eq_true] at numeric
      exact isPlain_cons_numeric numeric.1 (inductionHypothesis numeric.2)

/-- A minus sign starts no comment unless another one follows. -/
theorem isPlain_cons_minus {rest : List Char} (noMinus : rest.head? ≠ some '-')
    (plain : IsPlain rest) : IsPlain ('-' :: rest) := by
  refine isPlain_cons_iff.2 ⟨by decide, ?_, plain⟩
  intro opens
  rcases opens with special | line | block
  · simp at special
  · obtain ⟨after, same⟩ := (List.cons_prefix_cons.1 line).2
    exact noMinus (by simp [← same])
  · simp [List.cons_prefix_cons] at block

/-- A text that starts with a numeric character does not start with a minus sign. -/
theorem head?_ne_minus {text : List Char} (rest : List Char) (numeric : text.all isNumeric)
    (filled : text ≠ []) : (text ++ rest).head? ≠ some '-' := by
  cases text with
  | nil => exact absurd rfl filled
  | cons first text =>
      intro same
      cases same
      simp [isNumeric] at numeric

/-- A numeric text with or without a sign is plain. -/
theorem isPlain_signed (negative : Bool) {text rest : List Char} (numeric : text.all isNumeric)
    (filled : text ≠ []) (plain : IsPlain rest) :
    IsPlain ((if negative then ['-'] else []) ++ (text ++ rest)) := by
  have unsigned := isPlain_append_numeric numeric plain
  cases negative with
  | false => exact unsigned
  | true => exact isPlain_cons_minus (head?_ne_minus rest numeric filled) unsigned

theorem all_isNumeric_toDigits (value : Nat) : (Nat.toDigits 10 value).all isNumeric := by
  rw [List.all_eq_true]
  intro character inside
  simp [isNumeric, Nat.isDigit_of_mem_toDigits (by decide) (by decide) inside]

/-- The text of an integer is plain. -/
theorem isPlain_toString (value : Int) : IsPlain (toString value).toList := by
  have digits (number : Nat) (negative : Bool) :
      IsPlain ((if negative then ['-'] else []) ++ (Nat.toDigits 10 number ++ [])) :=
    isPlain_signed negative (all_isNumeric_toDigits number) Nat.toDigits_ne_nil isPlain_nil
  rw [Int.toString_eq_repr, Int.repr_eq_if]
  split
  · simpa using digits value.toNat false
  · simpa using digits (-value).toNat true

/-- Zeros and a decimal point among digits are numeric. -/
theorem all_isNumeric_positionalText (keepFraction : Bool) {digits : List Char} (point : Int)
    (numeric : digits.all isNumeric) :
    (Layout.positionalText keepFraction digits point).all isNumeric := by
  have zeros (count : Nat) : (List.replicate count '0').all isNumeric := by
    rw [List.all_replicate]
    simp [isNumeric]
  have front : (digits.take point.toNat).all isNumeric :=
    List.all_eq_true.2 fun _ inside => List.all_eq_true.1 numeric _ (List.mem_of_mem_take inside)
  have back : (digits.drop point.toNat).all isNumeric :=
    List.all_eq_true.2 fun _ inside => List.all_eq_true.1 numeric _ (List.mem_of_mem_drop inside)
  have mark : ['.'].all isNumeric := by decide
  have leading : ['0', '.'].all isNumeric := by decide
  have ending : (if keepFraction then ['.', '0'] else []).all isNumeric := by
    cases keepFraction <;> decide
  unfold Layout.positionalText
  split
  · simp only [List.all_append, leading, zeros, numeric, Bool.and_self]
  · split
    · simp only [List.all_append, numeric, zeros, ending, Bool.and_self]
    · simp only [List.all_append, front, mark, back, Bool.and_self]

theorem positionalText_ne_nil (keepFraction : Bool) {digits : List Char} (point : Int)
    (filled : digits ≠ []) : Layout.positionalText keepFraction digits point ≠ [] := by
  unfold Layout.positionalText
  split
  · simp
  · split
    · simp [filled]
    · simp

/-- The characters in front of an exponent are numeric. -/
theorem all_isNumeric_mantissa {digits : List Char} (numeric : digits.all isNumeric) :
    (digits.take 1 ++ (if (digits.drop 1).isEmpty then [] else '.' :: digits.drop 1) ++
      ['e']).all isNumeric := by
  cases digits with
  | nil => decide
  | cons first rest =>
      rw [List.all_cons, Bool.and_eq_true] at numeric
      have point : isNumeric '.' = true := by decide
      have mark : isNumeric 'e' = true := by decide
      cases rest <;> simp_all

/-- The digits of a double are plain in either form, with or without a sign. -/
theorem isPlain_signedDigits (negative positional keepFraction : Bool) (value : Nat) (point : Int) :
    IsPlain ((if negative then ['-'] else []) ++
      if positional then Layout.positionalText keepFraction (Nat.toDigits 10 value) point
      else Layout.exponentText "" (Nat.toDigits 10 value) point) := by
  have numeric := all_isNumeric_toDigits value
  cases positional with
  | true =>
      have placed := isPlain_signed negative
        (all_isNumeric_positionalText keepFraction point numeric)
        (positionalText_ne_nil keepFraction point Nat.toDigits_ne_nil) isPlain_nil
      simpa using placed
  | false =>
      have scaled := isPlain_signed negative (all_isNumeric_mantissa numeric) (by simp)
        (isPlain_toString (point - 1))
      simpa [Layout.exponentText] using scaled

/-- The text of a double is plain. -/
theorem isPlain_literal (number : Dyadic) : IsPlain (Layout.literal.text number).toList := by
  rw [Layout.text, String.toList_ofList]
  exact isPlain_signedDigits number.negative _ _ _ _

end SemanticQuery.Sql
