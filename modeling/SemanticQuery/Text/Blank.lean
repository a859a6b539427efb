/-
This file says which characters are blank and trims them.
-/

namespace SemanticQuery.Text

/-- A character is blank when it has the Unicode property White_Space. -/
def isBlank (character : Char) : Bool :=
  let code := character.toNat
  (0x9 ≤ code && code ≤ 0xD) || code == 0x20 || code == 0x85 || code == 0xA0 ||
    code == 0x1680 || (0x2000 ≤ code && code ≤ 0x200A) || code == 0x2028 ||
    code == 0x2029 || code == 0x202F || code == 0x205F || code == 0x3000

/-- The blanks at both ends of a character list do not survive. -/
def trimList (characters : List Char) : List Char :=
  ((characters.dropWhile isBlank).reverse.dropWhile isBlank).reverse

/-- The blanks at both ends of a text do not survive. -/
def trim (text : String) : String :=
  String.ofList (trimList text.toList)

end SemanticQuery.Text
