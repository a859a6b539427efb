/-
This file gives the upper-case forms that keywords can be made of.
-/

namespace SemanticQuery.Text

/-- The upper-case form of a character is given when it is ASCII. Any other character stands
for itself, which cannot complete a keyword, because keywords are ASCII. -/
def upperForm (character : Char) : List Char :=
  if 'a' ≤ character ∧ character ≤ 'z' then [character.toUpper]
  else match character with
    | 'ß' => ['S', 'S']
    | 'ı' => ['I']
    | 'ſ' => ['S']
    | 'ﬀ' => ['F', 'F']
    | 'ﬁ' => ['F', 'I']
    | 'ﬂ' => ['F', 'L']
    | 'ﬃ' => ['F', 'F', 'I']
    | 'ﬄ' => ['F', 'F', 'L']
    | 'ﬅ' => ['S', 'T']
    | 'ﬆ' => ['S', 'T']
    | other => [other]

/-- Every character of the text gives way to its upper-case form. -/
def upper (text : String) : String :=
  String.ofList (text.toList.flatMap upperForm)

end SemanticQuery.Text
