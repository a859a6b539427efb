/-
This file says which characters are controls and flattens them to spaces.
-/

namespace SemanticQuery.Text

/-- A control character has the Unicode general category Cc. -/
def isControl (character : Char) : Bool :=
  let code := character.toNat
  code ≤ 0x1F || (0x7F ≤ code && code ≤ 0x9F)

/-- A control character gives way to one space, and every other character stays. -/
def flattenControl (character : Char) : Char :=
  if isControl character then ' ' else character

/-- A flattened text is one line, because every line break is a control character. -/
def flatten (text : String) : String :=
  String.ofList (text.toList.map flattenControl)

theorem isControl_flattenControl (character : Char) :
    isControl (flattenControl character) = false := by
  unfold flattenControl
  split
  · rfl
  · next plain => simpa using plain

end SemanticQuery.Text
