/-
This file writes a text between double quotes for the event log.
-/

import SemanticQuery.Text.Printable

namespace SemanticQuery.Text

/-- The quote and the backslash are escaped, the four common controls have a letter, every
other unprintable character is written by its number, and the rest stands for itself. -/
def escapeForm (character : Char) : List Char :=
  match character with
  | '"' => ['\\', '"']
  | '\\' => ['\\', '\\']
  | '\t' => ['\\', 't']
  | '\r' => ['\\', 'r']
  | '\n' => ['\\', 'n']
  | '\x00' => ['\\', '0']
  | other =>
      if isPrintable other then [other]
      else ['\\', 'u', '{'] ++ Nat.toDigits 16 other.toNat ++ ['}']

/-- The quoted form of a text is on one line and shows where the text ends. -/
def quoted (text : String) : String :=
  String.ofList ('"' :: text.toList.flatMap escapeForm ++ ['"'])

end SemanticQuery.Text
