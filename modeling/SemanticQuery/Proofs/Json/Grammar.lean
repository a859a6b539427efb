/-
This file gives the grammar of JSON texts. It says which texts are well formed, and nothing about
what they mean or how deep they are nested.
-/

import Mathlib.Tactic.Common
import SemanticQuery.Json.Token

namespace SemanticQuery.Json.Grammar

/-- Blanks may stand between any two tokens. -/
def IsBlank (text : List Char) : Prop := ∀ character ∈ text, Token.isSpace character = true

-- Only the characters of the text are tried, whatever instances there are for all characters.
instance (text : List Char) : Decidable (IsBlank text) :=
  List.decidableBAll _ text

/-- A hexadecimal digit may be in either case. -/
def IsHex (digit : Char) : Prop :=
  digit.isDigit = true ∨ 'a' ≤ digit ∧ digit ≤ 'f' ∨ 'A' ≤ digit ∧ digit ≤ 'F'

instance (digit : Char) : Decidable (IsHex digit) := inferInstanceAs (Decidable (_ ∨ _ ∨ _))

/-- A character of a string stands for itself when it is no quote, no backslash and no control
character. -/
def isPlain (character : Char) : Bool :=
  character != '"' && character != '\\' && decide (' ' ≤ character)

/-- The characters between the quotes of a string are plain ones and escapes. -/
inductive IsContent : List Char → Prop where
  | nil : IsContent []
  | plain {character : Char} {rest : List Char} (plain : isPlain character = true)
      (content : IsContent rest) : IsContent (character :: rest)
  | letter {letter : Char} {rest : List Char}
      (short : letter ∈ ['"', '\\', '/', 'b', 'f', 'n', 'r', 't']) (content : IsContent rest) :
      IsContent ('\\' :: letter :: rest)
  | unit {first second third fourth : Char} {rest : List Char}
      (digits : ∀ digit ∈ [first, second, third, fourth], IsHex digit)
      (content : IsContent rest) :
      IsContent ('\\' :: 'u' :: first :: second :: third :: fourth :: rest)

/-- A string stands between quotes. -/
inductive IsString : List Char → Prop where
  | quoted {content : List Char} (inside : IsContent content) :
      IsString ('"' :: (content ++ ['"']))

/-- There is at least one digit, and all characters are digits. -/
structure IsDigits (text : List Char) : Prop where
  some : text ≠ []
  digits : ∀ character ∈ text, character.isDigit = true

/-- A fraction is a point with digits behind it, and it may be missing. -/
inductive IsFraction : List Char → Prop where
  | none : IsFraction []
  | point {digits : List Char} (fraction : IsDigits digits) : IsFraction ('.' :: digits)

/-- An exponent has a sign or none, and it may be missing. -/
inductive IsExponent : List Char → Prop where
  | none : IsExponent []
  | power {letter : Char} {sign digits : List Char} (letters : letter ∈ ['e', 'E'])
      (signs : sign ∈ [[], ['+'], ['-']]) (exponent : IsDigits digits) :
      IsExponent (letter :: (sign ++ digits))

/-- Only a number below ten may start with a zero. -/
inductive IsNumber : List Char → Prop where
  | parts {sign whole fraction exponent : List Char} (signs : sign ∈ [[], ['-']])
      (digits : IsDigits whole) (noZero : whole.head? = some '0' → whole = ['0'])
      (fractional : IsFraction fraction) (scaled : IsExponent exponent) :
      IsNumber (sign ++ whole ++ fraction ++ exponent)

/-- These phrases contain each other. -/
inductive Phrase where
  | value
  | object
  | element
  | elements
  | member
  | members

/-- A phrase is written in these ways. An element is a value between blanks, and a member is a
named element. Commas stand between the elements of an array and between the members of an
object. -/
inductive Writes : Phrase → List Char → Prop where
  | null : Writes .value ['n', 'u', 'l', 'l']
  | true : Writes .value ['t', 'r', 'u', 'e']
  | false : Writes .value ['f', 'a', 'l', 's', 'e']
  | number {text : List Char} (number : IsNumber text) : Writes .value text
  | string {text : List Char} (string : IsString text) : Writes .value text
  | emptyArray {blank : List Char} (blanks : IsBlank blank) :
      Writes .value ('[' :: (blank ++ [']']))
  | array {elements : List Char} (inside : Writes .elements elements) :
      Writes .value ('[' :: (elements ++ [']']))
  | nested {text : List Char} (object : Writes .object text) : Writes .value text
  | emptyObject {blank : List Char} (blanks : IsBlank blank) :
      Writes .object ('{' :: (blank ++ ['}']))
  | object {members : List Char} (inside : Writes .members members) :
      Writes .object ('{' :: (members ++ ['}']))
  | element {before value after : List Char} (front : IsBlank before)
      (inside : Writes .value value) (back : IsBlank after) :
      Writes .element (before ++ value ++ after)
  | lastElement {element : List Char} (last : Writes .element element) :
      Writes .elements element
  | moreElements {element rest : List Char} (first : Writes .element element)
      (more : Writes .elements rest) : Writes .elements (element ++ ',' :: rest)
  | member {before key after element : List Char} (front : IsBlank before)
      (name : IsString key) (back : IsBlank after) (inside : Writes .element element) :
      Writes .member (before ++ key ++ after ++ ':' :: element)
  | lastMember {member : List Char} (last : Writes .member member) : Writes .members member
  | moreMembers {member rest : List Char} (first : Writes .member member)
      (more : Writes .members rest) : Writes .members (member ++ ',' :: rest)

/-- A text is an object when all of its characters are. -/
def IsObject (text : List Char) : Prop := Writes .object text

theorem isBlank_nil : IsBlank [] := by
  intro character inside
  cases inside

/-- Characters that need no escape are the contents of a string. -/
theorem isContent_of_plain {text : List Char} (plain : text.all isPlain = true) :
    IsContent text := by
  induction text with
  | nil => exact .nil
  | cons character text inductionHypothesis =>
      rw [List.all_cons, Bool.and_eq_true] at plain
      exact .plain plain.1 (inductionHypothesis plain.2)

/-- A value is an element when no blanks are around it. -/
theorem writes_element {value : List Char} (inside : Writes .value value) :
    Writes .element value := by
  simpa using Writes.element isBlank_nil inside isBlank_nil

/-- An object with one member is written from the name and the value of that member. -/
theorem isObject_single {name value : List Char} (content : IsContent name)
    (inside : Writes .value value) :
    IsObject ('{' :: '"' :: (name ++ '"' :: ':' :: (value ++ ['}']))) := by
  have member := Writes.member isBlank_nil (.quoted content) isBlank_nil (writes_element inside)
  have object : Writes .object _ := .object (.lastMember member)
  simpa [IsObject] using object

end SemanticQuery.Json.Grammar
