/-
This file shows that the object in a response is found whatever stands around it. Every phrase of
the grammar may stand between braces, so an object of JSON is a span.
-/

import SemanticQuery.Proofs.Document.Extraction
import SemanticQuery.Proofs.Json.Grammar

namespace SemanticQuery.Document

open Json.Grammar

theorem isNeutral_of_isSpace {character : Char} (space : Json.Token.isSpace character = true) :
    isNeutral character = true := by
  simp only [Json.Token.isSpace, Bool.or_eq_true, beq_iff_eq] at space
  rcases space with ((same | same) | same) | same <;> rw [same] <;> decide

theorem isNeutral_of_isDigit {character : Char} (digit : character.isDigit = true) :
    isNeutral character = true := by
  have different (special : Char) (noDigit : special.isDigit = false) : character ≠ special := by
    intro same
    rw [same, noDigit] at digit
    cases digit
  exact isNeutral_iff.2
    ⟨different '"' (by decide), different '{' (by decide), different '}' (by decide)⟩

theorem ne_of_isPlain {character : Char} (plain : isPlain character = true) :
    character ≠ '"' ∧ character ≠ '\\' := by
  simp only [isPlain, Bool.and_eq_true, bne_iff_ne] at plain
  exact plain.1

theorem ne_of_isHex {digit : Char} (hex : IsHex digit) : digit ≠ '"' ∧ digit ≠ '\\' := by
  constructor
  · intro same
    rw [same] at hex
    exact absurd hex (by decide)
  · intro same
    rw [same] at hex
    exact absurd hex (by decide)

/-- A backslash takes one character only, and the digits behind it stand for themselves. -/
theorem isQuoted_of_isContent {content : List Char} (written : IsContent content) :
    IsQuoted content := by
  induction written with
  | nil => exact .nil
  | plain plain _ inductionHypothesis =>
      obtain ⟨notQuote, notEscape⟩ := ne_of_isPlain plain
      exact .plain notQuote notEscape inductionHypothesis
  | letter _ _ inductionHypothesis => exact .escape inductionHypothesis
  | @unit first second third fourth _ digits _ inductionHypothesis =>
      have one := ne_of_isHex (digits first (by simp))
      have two := ne_of_isHex (digits second (by simp))
      have three := ne_of_isHex (digits third (by simp))
      have four := ne_of_isHex (digits fourth (by simp))
      exact .escape (.plain one.1 one.2 (.plain two.1 two.2
        (.plain three.1 three.2 (.plain four.1 four.2 inductionHypothesis))))

namespace IsInside

theorem of_isBlank {text : List Char} (blank : IsBlank text) : IsInside text := by
  apply of_neutral
  rw [List.all_eq_true]
  intro character inside
  exact isNeutral_of_isSpace (blank character inside)

theorem of_isString {text : List Char} (string : IsString text) : IsInside text := by
  obtain ⟨content⟩ := string
  exact of_quoted (isQuoted_of_isContent content)

theorem of_isDigits {text : List Char} (digits : IsDigits text) : IsInside text := by
  apply of_neutral
  rw [List.all_eq_true]
  intro character inside
  exact isNeutral_of_isDigit (digits.digits character inside)

/-- A sign is missing or a single neutral character. -/
theorem of_sign {sign : List Char} (signs : sign ∈ [[], ['+'], ['-']]) : IsInside sign := by
  simp only [List.mem_cons, List.not_mem_nil, or_false] at signs
  rcases signs with same | same | same <;> rw [same] <;> exact of_neutral (by decide)

theorem of_isFraction {text : List Char} (fraction : IsFraction text) : IsInside text := by
  cases fraction with
  | none => exact .nil
  | point digits => exact .neutral (by decide) (of_isDigits digits)

theorem of_isExponent {text : List Char} (exponent : IsExponent text) : IsInside text := by
  cases exponent with
  | none => exact .nil
  | power letters signs digits =>
      refine .neutral ?_ ((of_sign signs).append (of_isDigits digits))
      simp only [List.mem_cons, List.not_mem_nil, or_false] at letters
      rcases letters with same | same <;> rw [same] <;> decide

theorem of_isNumber {text : List Char} (number : IsNumber text) : IsInside text := by
  obtain ⟨signs, digits, _, fraction, exponent⟩ := number
  have allowed : [[], ['-']] ⊆ [[], ['+'], ['-']] := by simp
  exact (((of_sign (allowed signs)).append (of_isDigits digits)).append
    (of_isFraction fraction)).append (of_isExponent exponent)

/-- Every phrase may stand between braces, by induction on how the phrase is written. -/
theorem of_writes {phrase : Phrase} {text : List Char} (written : Writes phrase text) :
    IsInside text := by
  have comma : isNeutral ',' = true := by decide
  have colon : isNeutral ':' = true := by decide
  have brackets {text : List Char} (inside : IsInside text) : IsInside ('[' :: (text ++ [']'])) :=
    .neutral (by decide) (inside.append (.neutral (by decide) .nil))
  induction written with
  | null => exact of_neutral (by decide)
  | true => exact of_neutral (by decide)
  | false => exact of_neutral (by decide)
  | number number => exact of_isNumber number
  | string string => exact of_isString string
  | emptyArray blanks => exact brackets (of_isBlank blanks)
  | array _ elements => exact brackets elements
  | nested _ object => exact object
  | emptyObject blanks => exact (of_isBlank blanks).braces
  | object _ members => exact members.braces
  | element front _ back value => exact ((of_isBlank front).append value).append (of_isBlank back)
  | lastElement _ element => exact element
  | moreElements _ _ element rest => exact element.append (.neutral comma rest)
  | member front name back _ element =>
      exact (((of_isBlank front).append (of_isString name)).append (of_isBlank back)).append
        (.neutral colon element)
  | lastMember _ member => exact member
  | moreMembers _ _ member rest => exact member.append (.neutral comma rest)

end IsInside

/-- The brace that opens an object is closed at the end of the object. -/
theorem isSpan_of_isObject {object : List Char} (written : IsObject object) : IsSpan object := by
  cases written with
  | emptyObject blanks => exact .braces (.of_isBlank blanks)
  | object inside => exact .braces (.of_writes inside)

/-- The first brace of a text is that of the object when no other one stands in front of it. -/
theorem firstObject_append {before object : List Char} (noBrace : '{' ∉ before)
    (written : IsObject object) (after : List Char) :
    firstObject (before ++ object ++ after) = some object := by
  refine firstObject_eq_some_iff.2
    ⟨before, after, List.append_assoc .., isSpan_of_isObject written, ?_⟩
  rintro front back rfl some other ⟨inside⟩ ⟨rest, same⟩
  obtain ⟨character, back, rfl⟩ := List.exists_cons_of_ne_nil some
  obtain rfl : '{' = character := (List.cons.inj same).1
  exact noBrace (by simp)

end SemanticQuery.Document
