/-
This file scans the four kinds of TOML strings.
-/

import SemanticQuery.Json.Quoted
import SemanticQuery.Toml.Value

namespace SemanticQuery.Toml

/-- Hexadecimal digits give the number of a character. -/
def character? (digits : List Char) : Option Char := do
  let values ← digits.mapM Json.Quoted.hexValue?
  let code := values.foldl (fun code value => code * 16 + value) 0
  if code.isValidChar then return Char.ofNat code else none

/-- These characters are escaped by one letter. -/
def shortForm? : Char → Option Char
  | 'b' => some '\x08'
  | 't' => some '\t'
  | 'n' => some '\n'
  | 'f' => some '\x0c'
  | 'r' => some '\r'
  | 'e' => some '\x1b'
  | '"' => some '"'
  | '\\' => some '\\'
  | _ => none

/-- The scan starts behind a backslash and takes one escaped character. -/
def scanEscape : Scan Char
  | 'x' :: rest => (character? (rest.take 2)).filter (fun _ => 2 ≤ rest.length)
      |>.map (·, rest.drop 2)
  | 'u' :: rest => (character? (rest.take 4)).filter (fun _ => 4 ≤ rest.length)
      |>.map (·, rest.drop 4)
  | 'U' :: rest => (character? (rest.take 8)).filter (fun _ => 8 ≤ rest.length)
      |>.map (·, rest.drop 8)
  | letter :: rest => (shortForm? letter).map (·, rest)
  | [] => none

/-- A basic string ends at a quote of its line. -/
def scanBasic : Nat → Scan (List Char)
  | 0, _ => none
  | _, [] => none
  | _, '"' :: rest => some ([], rest)
  | steps + 1, '\\' :: rest => do
      let (character, rest) ← scanEscape rest
      let (characters, rest) ← scanBasic steps rest
      return (character :: characters, rest)
  | steps + 1, character :: rest =>
      if isPlain character then do
        let (characters, rest) ← scanBasic steps rest
        return (character :: characters, rest)
      else none

/-- Three quotes end a string of many lines. Up to two more quotes in front of them belong to
the string. -/
def closing? (quote : Char) (text : List Char) : Option (List Char × List Char) :=
  let count := min 5 (text.takeWhile (· == quote)).length
  if count < 3 then none else some (List.replicate (count - 3) quote, text.drop count)

/-- A backslash at the end of a line takes all blanks and line breaks behind it. -/
def skipBreaks (text : List Char) : Option (List Char) :=
  (lineBreak? (skipBlank text)).map skipSpace

/-- A basic string of many lines keeps its line breaks. -/
def scanBasicLines : Nat → Scan (List Char)
  | 0, _ => none
  | _, [] => none
  | steps + 1, '\\' :: rest =>
      match skipBreaks rest with
      | some rest => scanBasicLines steps rest
      | none => do
          let (character, rest) ← scanEscape rest
          let (characters, rest) ← scanBasicLines steps rest
          return (character :: characters, rest)
  | steps + 1, character :: rest =>
      match closing? '"' (character :: rest) with
      | some result => some result
      | none =>
          match lineBreak? (character :: rest) with
          | some after => do
              let taken := (character :: rest).take (rest.length + 1 - after.length)
              let (characters, rest) ← scanBasicLines steps after
              return (taken ++ characters, rest)
          | none =>
              if isPlain character then do
                let (characters, rest) ← scanBasicLines steps rest
                return (character :: characters, rest)
              else none

/-- A literal string has no escapes and ends at an apostrophe of its line. -/
def scanLiteral : Scan (List Char)
  | [] => none
  | '\'' :: rest => some ([], rest)
  | character :: rest =>
      if isPlain character then do
        let (characters, rest) ← scanLiteral rest
        return (character :: characters, rest)
      else none

/-- A literal string of many lines keeps its line breaks. -/
def scanLiteralLines : Nat → Scan (List Char)
  | 0, _ => none
  | _, [] => none
  | steps + 1, character :: rest =>
      match closing? '\'' (character :: rest) with
      | some result => some result
      | none =>
          match lineBreak? (character :: rest) with
          | some after => do
              let taken := (character :: rest).take (rest.length + 1 - after.length)
              let (characters, rest) ← scanLiteralLines steps after
              return (taken ++ characters, rest)
          | none =>
              if isPlain character then do
                let (characters, rest) ← scanLiteralLines steps rest
                return (character :: characters, rest)
              else none

/-- A line break right behind the opening quotes does not belong to the string. -/
def skipFirstBreak (text : List Char) : List Char := (lineBreak? text).getD text

/-- The quotes at the start of a text say which kind of string it is. -/
def scanString (text : List Char) : Option (String × List Char) :=
  let steps := text.length + 1
  let scanned :=
    match text with
    | '"' :: '"' :: '"' :: rest => scanBasicLines steps (skipFirstBreak rest)
    | '"' :: rest => scanBasic steps rest
    | '\'' :: '\'' :: '\'' :: rest => scanLiteralLines steps (skipFirstBreak rest)
    | '\'' :: rest => scanLiteral rest
    | _ => none
  scanned.map fun result => (String.ofList result.1, result.2)

/-- A key is bare or a string of one line. -/
def scanKey : Scan String
  | '"' :: rest => (scanBasic (rest.length + 1) rest).map fun result =>
      (String.ofList result.1, result.2)
  | '\'' :: rest => (scanLiteral rest).map fun result => (String.ofList result.1, result.2)
  | text =>
      let isBare (character : Char) : Bool :=
        character.isAlphanum || character == '_' || character == '-'
      let bare := text.takeWhile isBare
      if bare.isEmpty then none else some (String.ofList bare, text.dropWhile isBare)

/-- Points stand between the keys of a path, and only so many keys have room. -/
def scanKeys : Nat → Scan (List String)
  | 0, _ => none
  | room + 1, text => do
      let (key, rest) ← scanKey (skipBlank text)
      match skipBlank rest with
      | '.' :: rest =>
          let (keys, rest) ← scanKeys room rest
          return (key :: keys, rest)
      | rest => return ([key], rest)

/-- A path is no deeper than a value. -/
def scanPath : Scan (List String) := scanKeys maximumDepth

end SemanticQuery.Toml
