/-
This file writes doubles. The digits are the same in every layout, except for ties.
-/

import SemanticQuery.Number.Shortest

namespace SemanticQuery

/-- A layout fixes all that the shortest digits leave open. -/
structure Layout where
  tie : Tie
  /-- The position of the decimal point says whether no exponent is written. -/
  positional : Int → Bool
  /-- A whole number may end in a point and a zero. -/
  keepFraction : Bool
  /-- The sign of a positive exponent. -/
  plus : String

namespace Layout

/-- Zeros fill the places between the digits and the decimal point. -/
def positionalText (keepFraction : Bool) (digits : List Char) (point : Int) : List Char :=
  if point ≤ 0 then
    ['0', '.'] ++ List.replicate (-point).toNat '0' ++ digits
  else if digits.length ≤ point.toNat then
    digits ++ List.replicate (point.toNat - digits.length) '0' ++
      (if keepFraction then ['.', '0'] else [])
  else digits.take point.toNat ++ ['.'] ++ digits.drop point.toNat

/-- One digit stands before the decimal point. -/
def exponentText (plus : String) (digits : List Char) (point : Int) : List Char :=
  let fraction := digits.drop 1
  digits.take 1 ++ (if fraction.isEmpty then [] else '.' :: fraction) ++ ['e'] ++
    (if 1 ≤ point then plus.toList else []) ++ (toString (point - 1)).toList

/-- The text of a dyadic number has its sign, which zero keeps. -/
def text (layout : Layout) (number : Dyadic) : String :=
  let decimal := Decimal.shortest layout.tie number.significand number.exponent
  let digits := Nat.toDigits 10 decimal.digits
  let point := digits.length + decimal.exponent
  let sign := if number.negative then ['-'] else []
  String.ofList <| sign ++
    if layout.positional point then positionalText layout.keepFraction digits point
    else exponentText layout.plus digits point

/-- A literal of a statement is positional from 0.00001 up to 16 places. -/
def literal : Layout where
  tie := .even
  positional point := -5 < point && point ≤ 16
  keepFraction := true
  plus := ""

/-- A number of a JSON text is a literal whose positive exponent has a sign. -/
def json : Layout where
  tie := .even
  positional point := -5 < point && point ≤ 16
  keepFraction := true
  plus := "+"

/-- A displayed number never has an exponent. -/
def display : Layout where
  tie := .up
  positional _ := true
  keepFraction := false
  plus := ""

end Layout

/-- The displayed form of a double covers the values that are no number. -/
def displayFloat (number : Float) : String :=
  match magnitude number with
  | .finite value => Layout.display.text value
  | .infinite negative => if negative then "-inf" else "inf"
  | .undefined => "NaN"

end SemanticQuery
