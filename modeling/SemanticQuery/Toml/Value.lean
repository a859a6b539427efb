/-
This file defines the values of a TOML text.
-/

namespace SemanticQuery.Toml

/-- A double and a date are kept as written, and so is a number that has no value. -/
inductive Value where
  | string (value : String)
  | integer (value : Int)
  | float (text : String)
  | valueless (text : String)
  | boolean (value : Bool)
  | date (text : String)
  | array (items : List Value)
  | table (entries : List (String × Value))

/-- A scan takes something from the start of a text and gives back the rest. -/
abbrev Scan (α : Type) := List Char → Option (α × List Char)

/-- Arrays and inline tables nest at most this deep, and a path has at most as many keys. -/
def maximumDepth : Nat := 80

/-- Spaces and tabs have no meaning between the parts of a line. -/
def isBlank (character : Char) : Bool := character == ' ' || character == '\t'

/-- The blanks at the start of a text are passed over. -/
def skipBlank (text : List Char) : List Char := text.dropWhile isBlank

/-- A line breaks at a line feed, which may follow a carriage return. -/
def lineBreak? : List Char → Option (List Char)
  | '\n' :: rest => some rest
  | '\r' :: '\n' :: rest => some rest
  | _ => none

/-- The tab is the only control character within a line. -/
def isPlain (character : Char) : Bool :=
  character == '\t' || (' ' ≤ character && character != '\x7f')

/-- Line breaks and blanks are passed over together. -/
def skipSpace : List Char → List Char
  | [] => []
  | '\n' :: rest => skipSpace rest
  | '\r' :: '\n' :: rest => skipSpace rest
  | character :: rest => if isBlank character then skipSpace rest else character :: rest

/-- Comments, line breaks and blanks may stand between the parts of an array or of an inline
table. -/
def skipFiller (inComment : Bool) : List Char → Option (List Char)
  | [] => some []
  | '\n' :: rest => skipFiller false rest
  | '\r' :: '\n' :: rest => skipFiller false rest
  | character :: rest =>
      if inComment then if isPlain character then skipFiller true rest else none
      else if isBlank character then skipFiller false rest
      else if character = '#' then skipFiller true rest
      else some (character :: rest)

/-- A line ends with an optional comment. The last line needs no line break. -/
def endLine (text : List Char) : Option (List Char) :=
  let finish (text : List Char) : Option (List Char) :=
    if text.isEmpty then some [] else lineBreak? text
  match skipBlank text with
  | '#' :: rest => finish (rest.dropWhile isPlain)
  | rest => finish rest

end SemanticQuery.Toml
