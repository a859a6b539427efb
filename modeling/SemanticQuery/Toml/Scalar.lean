/-
This file reads the numbers, truth values and dates of a TOML text.
-/

import SemanticQuery.Toml.Value

namespace SemanticQuery.Toml

/-- Single underscores may stand between digits and have no meaning. -/
def digits? (isDigit : Char → Bool) : List Char → Option (List Char)
  | [] => none
  | [digit] => if isDigit digit then some [digit] else none
  | digit :: '_' :: rest =>
      if isDigit digit then (digits? isDigit rest).map (digit :: ·) else none
  | digit :: rest => if isDigit digit then (digits? isDigit rest).map (digit :: ·) else none

/-- These digits belong to the widest base. -/
def isHexadecimal (character : Char) : Bool :=
  character.isDigit || ('a' ≤ character.toLower && character.toLower ≤ 'f')

/-- The value of a digit does not depend on its case. -/
def digitValue (digit : Char) : Nat :=
  if digit.isDigit then digit.toNat - '0'.toNat else digit.toLower.toNat - 'a'.toNat + 10

/-- Digits are read from left to right. -/
def digitsValue (base : Nat) (digits : List Char) : Nat :=
  digits.foldl (fun value digit => value * base + digitValue digit) 0

/-- A number may have a sign. -/
def takeSign : List Char → Bool × List Char
  | '-' :: rest => (true, rest)
  | '+' :: rest => (false, rest)
  | rest => (false, rest)

/-- A decimal number has no leading zero. -/
def decimal? (text : List Char) : Option (List Char) := do
  let digits ← digits? Char.isDigit text
  if digits.head? = some '0' ∧ digits.length ≠ 1 then none else return digits

/-- An integer has a base of its own or is decimal with an optional sign. -/
def integer? (text : List Char) : Option Int :=
  match text with
  | '0' :: 'x' :: rest =>
      (digits? isHexadecimal rest).map fun digits => Int.ofNat (digitsValue 16 digits)
  | '0' :: 'o' :: rest =>
      (digits? (fun digit => '0' ≤ digit && digit ≤ '7') rest).map
        fun digits => Int.ofNat (digitsValue 8 digits)
  | '0' :: 'b' :: rest =>
      (digits? (fun digit => digit == '0' || digit == '1') rest).map
        fun digits => Int.ofNat (digitsValue 2 digits)
  | text =>
      let (negative, rest) := takeSign text
      (decimal? rest).map fun digits =>
        if negative then -Int.ofNat (digitsValue 10 digits) else digitsValue 10 digits

/-- A number with these digits is too large for a double. -/
def overflows (digits : List Char) (exponent : Int) : Bool :=
  let significant := digits.dropWhile (· == '0')
  let places := significant.length + exponent
  if significant.isEmpty || places < 300 then false
  else if 320 < places then true
  else
    let kept := significant.take 800
    let shift := exponent + (significant.length - kept.length)
    let number := digitsValue 10 kept
    let limit := 0x3FFFFFFFFFFFFF <<< 970
    limit * Nat.pow 10 (-shift).toNat ≤ number * Nat.pow 10 shift.toNat

/-- A double that is written with digits must be finite. -/
def float? (text : List Char) : Option Bool := do
  let (_, rest) := takeSign text
  if rest = ['i', 'n', 'f'] ∨ rest = ['n', 'a', 'n'] then return true
  let isMark (character : Char) : Bool := character == 'e' || character == 'E'
  let number := rest.takeWhile fun character => !isMark character
  let tail := rest.dropWhile fun character => !isMark character
  let exponent ←
    match tail with
    | [] => some 0
    | _ :: tail =>
        let (negative, digits) := takeSign tail
        (digits? Char.isDigit digits).map fun digits =>
          if negative then -Int.ofNat (digitsValue 10 digits) else digitsValue 10 digits
  let whole ← decimal? (number.takeWhile (· != '.'))
  match number.dropWhile (· != '.') with
  | [] => if tail.isEmpty then none else return !overflows whole exponent
  | _ :: fraction =>
      let fraction ← digits? Char.isDigit fraction
      return !overflows (whole ++ fraction) (exponent - fraction.length)

/-- A field of a date has a fixed number of digits and a range. -/
def field? (width low high : Nat) (text : List Char) : Option (Nat × List Char) :=
  let digits := text.take width
  let value := digitsValue 10 digits
  if digits.length = width ∧ digits.all Char.isDigit ∧ low ≤ value ∧ value ≤ high then
    some (value, text.drop width)
  else none

/-- A month has as many days as the calendar says. -/
def monthLength (year month : Nat) : Nat :=
  if month = 2 then
    if year % 4 = 0 ∧ (year % 100 ≠ 0 ∨ year % 400 = 0) then 29 else 28
  else if month = 4 ∨ month = 6 ∨ month = 9 ∨ month = 11 then 30 else 31

/-- This mark must come next. -/
def mark? (mark : Char) : List Char → Option (List Char)
  | [] => none
  | character :: rest => if character = mark then some rest else none

/-- A day is year, month and day of the month. -/
def day? (text : List Char) : Option (List Char) := do
  let (year, rest) ← field? 4 0 9999 text
  let (month, rest) ← field? 2 1 12 (← mark? '-' rest)
  let (_, rest) ← field? 2 1 (monthLength year month) (← mark? '-' rest)
  return rest

/-- A time is hour and minute, with optional seconds and fractions of a second. -/
def time? (text : List Char) : Option (List Char) := do
  let (_, rest) ← field? 2 0 23 text
  let (_, rest) ← field? 2 0 59 (← mark? ':' rest)
  match rest with
  | ':' :: rest =>
      let (_, rest) ← field? 2 0 60 rest
      match rest with
      | '.' :: rest =>
          if (rest.takeWhile Char.isDigit).isEmpty then none
          else return rest.dropWhile Char.isDigit
      | rest => return rest
  | rest => return rest

/-- An offset is zero or a number of hours and minutes. -/
def isOffset (text : List Char) : Bool :=
  match text with
  | [] => true
  | ['Z'] => true
  | ['z'] => true
  | sign :: rest =>
      (sign == '+' || sign == '-') &&
        (do
          let (_, rest) ← field? 2 0 23 rest
          let (_, rest) ← field? 2 0 59 (← mark? ':' rest)
          return rest.isEmpty).getD false

/-- A date is a day, a time, or both with an optional offset. -/
def isDate (text : List Char) : Bool :=
  match day? text with
  | some [] => true
  | some (separator :: rest) =>
      (separator == 'T' || separator == 't' || separator == ' ') &&
        ((time? rest).map isOffset).getD false
  | none => (time? text).map List.isEmpty |>.getD false

/-- Every underscore stands between digits of the widest base. -/
def joinsDigits : List Char → Bool
  | first :: '_' :: next :: rest =>
      isHexadecimal first && isHexadecimal next && joinsDigits (next :: rest)
  | [_, '_'] => false
  | _ :: rest => joinsDigits rest
  | [] => true

/-- A base without digits is a number, and so is a decimal number that goes on with an underscore,
whatever stands behind it. -/
def isNumber (text : List Char) : Bool :=
  match text with
  | ['0', 'x'] => true
  | ['0', 'o'] => true
  | ['0', 'b'] => true
  | text =>
      let (_, rest) := takeSign text
      let digits := rest.takeWhile Char.isDigit
      let tail := rest.dropWhile Char.isDigit
      (digits.head?.any (· != '0') && tail.head? = some '_') &&
        (joinsDigits rest && tail.all fun character =>
          character != '.' && character != 'e' && character != 'E')

/-- A scalar goes on to a mark, a blank or a line break. -/
def isScalarCharacter (character : Char) : Bool :=
  !(isBlank character || character ∈
    ['=', ',', '[', ']', '\x7b', '\x7d', '#', '\r', '\n'])

/-- A day and a time may be separated by a space. -/
def scalarText (text : List Char) : List Char × List Char :=
  let first := text.takeWhile isScalarCharacter
  let rest := text.dropWhile isScalarCharacter
  match rest with
  | ' ' :: digit :: more =>
      if digit.isDigit ∧ day? first = some [] then
        (first ++ ' ' :: (digit :: more).takeWhile isScalarCharacter,
          (digit :: more).dropWhile isScalarCharacter)
      else (first, rest)
  | _ => (first, rest)

/-- A scalar that is not a string is a truth value, a number or a date. -/
def scanScalar (text : List Char) : Option (Value × List Char) :=
  let (scalar, rest) := scalarText text
  let written := String.ofList scalar
  if written = "true" then some (.boolean true, rest)
  else if written = "false" then some (.boolean false, rest)
  else
    match integer? scalar with
    | some value => some (.integer value, rest)
    | none =>
        match float? scalar with
        | some _ => some (.float written, rest)
        | none =>
            if isDate scalar then some (.date written, rest)
            else if isNumber scalar then some (.valueless written, rest)
            else none

mutual

/-- A number must fit the widest type that a reader knows, also when its value has no use. -/
def isRepresentable : Value → Bool
  | .integer value =>
      -0x80000000000000000000000000000000 ≤ value && value < 0x100000000000000000000000000000000
  | .float text => (float? text.toList).getD false
  | .valueless _ => false
  | .array items => areRepresentable items
  | .table entries => haveRepresentable entries
  | _ => true

/-- All items of an array must be representable. -/
def areRepresentable : List Value → Bool
  | [] => true
  | item :: rest => isRepresentable item && areRepresentable rest

/-- All values of a table must be representable. -/
def haveRepresentable : List (String × Value) → Bool
  | [] => true
  | (_, value) :: rest => isRepresentable value && haveRepresentable rest

end

end SemanticQuery.Toml
