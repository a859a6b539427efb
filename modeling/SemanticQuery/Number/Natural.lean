/-
This file reads natural numbers from text.
-/

import SemanticQuery.Text.Blank

namespace SemanticQuery

/-- One plus sign in front of the digits has no effect. -/
def dropPlus : List Char → List Char
  | '+' :: digits => digits
  | digits => digits

/-- The text of a natural number is one or more ASCII digits, after at most one plus sign. -/
def readNatural? (text : List Char) : Option Nat :=
  let digits := dropPlus text
  if digits.isEmpty || !digits.all Char.isDigit then none
  else some (Nat.ofDigitChars 10 digits 0)

/-- A natural number of more than 64 bits is refused, never wrapped. -/
def readUInt64? (text : List Char) : Option UInt64 :=
  match readNatural? text with
  | some value => if value < UInt64.size then some (UInt64.ofNat value) else none
  | none => none

end SemanticQuery
