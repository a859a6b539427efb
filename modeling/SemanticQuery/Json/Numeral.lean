/-
This file scans JSON numbers and gives their values.
-/

import SemanticQuery.Json.Fault
import SemanticQuery.Number.Integer

namespace SemanticQuery.Json

/-- A number of a JSON text is an exact integer or a finite double. -/
inductive Number where
  | integer (value : Integer)
  | real (value : Float) (finite : value.isFinite)
deriving DecidableEq

/-- A numeral keeps the digits as written. The fraction is empty when there is none. -/
structure Numeral where
  negative : Bool
  whole : List Char
  fraction : List Char
  exponent : Option Int
deriving DecidableEq

namespace Numeral

/-- Digits that should be there are missing. The text may go on with something else. -/
def missingDigits (text : List Char) : Fault :=
  if text.isEmpty then .truncated else .malformed

/-- The sign of an exponent is optional. -/
def exponentSign : List Char → Bool × List Char
  | '-' :: rest => (true, rest)
  | '+' :: rest => (false, rest)
  | rest => (false, rest)

/-- One or more digits make the exponent. -/
def scanExponent (numeral : Numeral) (text : List Char) :
    Except Fault (Numeral × List Char) :=
  let (negative, text) := exponentSign text
  let digits := text.takeWhile Char.isDigit
  if digits.isEmpty then .error (missingDigits text)
  else
    let value : Int := Nat.ofDigitChars 10 digits 0
    .ok ({ numeral with exponent := some (if negative then -value else value) },
      text.dropWhile Char.isDigit)

/-- An exponent may follow the digits. -/
def scanAfterDigits (numeral : Numeral) : List Char → Except Fault (Numeral × List Char)
  | 'e' :: rest => scanExponent numeral rest
  | 'E' :: rest => scanExponent numeral rest
  | rest => .ok (numeral, rest)

/-- A decimal point needs digits behind it. -/
def scanAfterWhole (numeral : Numeral) : List Char → Except Fault (Numeral × List Char)
  | '.' :: rest =>
      let digits := rest.takeWhile Char.isDigit
      if digits.isEmpty then .error (missingDigits rest)
      else scanAfterDigits { numeral with fraction := digits } (rest.dropWhile Char.isDigit)
  | rest => scanAfterDigits numeral rest

/-- No digit may follow a leading zero. -/
def scanWhole (negative : Bool) (text : List Char) : Except Fault (Numeral × List Char) :=
  let digits := text.takeWhile Char.isDigit
  if digits.isEmpty then .error (missingDigits text)
  else if digits.head? = some '0' ∧ digits.length ≠ 1 then .error .malformed
  else scanAfterWhole ⟨negative, digits, [], none⟩ (text.dropWhile Char.isDigit)

/-- The text starts with a minus sign or a digit. -/
def scan : List Char → Except Fault (Numeral × List Char)
  | '-' :: rest => scanWhole true rest
  | text => scanWhole false text

/-- Digits are taken as long as the value fits 64 bits. The rest is given back. -/
def absorb : Nat → List Char → Nat × List Char
  | value, [] => (value, [])
  | value, digit :: rest =>
      let next := value * 10 + (digit.toNat - '0'.toNat)
      if next < UInt64.size then absorb next rest else (value, digit :: rest)

/-- The power of ten is the double nearest to it. -/
def powerOfTen (exponent : Nat) : Float := Float.ofScientific 1 false exponent

/-- One floating-point operation scales the significand when the power of ten is a double.
Smaller powers are split into two factors, and nothing is left below 10 to the -616. No double
is given when the result would be infinite. -/
def scale? (significand : UInt64) (exponent : Int) : Option Float :=
  let number := significand.toFloat
  if significand = 0 then some number
  else if 308 < exponent then none
  else if 0 ≤ exponent then
    let result := number * powerOfTen exponent.toNat
    if result.isFinite then some result else none
  else if -308 ≤ exponent then some (number / powerOfTen (-exponent).toNat)
  else if -616 ≤ exponent then
    some (number / powerOfTen 308 / powerOfTen (-(exponent + 308)).toNat)
  else some 0.0

/-- Only a finite double is a number of a JSON text. -/
def finite? (number : Float) : Except Fault Number :=
  if finite : number.isFinite then .ok (.real number finite) else .error .malformed

/-- A numeral without fraction and exponent is an integer if 64 bits hold it, except for minus
zero. Every other numeral is a double: whole digits that do not fit the significand raise the
exponent, and fraction digits that do not fit have no effect. -/
def value (numeral : Numeral) : Except Fault Number :=
  let (whole, dropped) := absorb 0 numeral.whole
  let (significand, ignored) := absorb whole numeral.fraction
  let places := numeral.fraction.length - ignored.length
  let exponent : Int := dropped.length - places + numeral.exponent.getD 0
  let double : Except Fault Number :=
    match scale? (UInt64.ofNat significand) exponent with
    | none => .error .malformed
    | some number => finite? (if numeral.negative then -number else number)
  if numeral.fraction.isEmpty && numeral.exponent.isNone && dropped.isEmpty then
    if numeral.negative && whole = 0 then double
    else match Integer.ofInt? (if numeral.negative then -whole else whole) with
      | some integer => .ok (.integer integer)
      | none => double
  else double

theorem length_dropWhile_le (test : Char → Bool) (text : List Char) :
    (text.dropWhile test).length ≤ text.length :=
  (List.dropWhile_sublist test).length_le

theorem length_exponentSign_le (text : List Char) :
    (exponentSign text).2.length ≤ text.length := by
  unfold exponentSign
  split <;> simp

theorem length_scanExponent_le {numeral result : Numeral} {text rest : List Char}
    (scanned : scanExponent numeral text = .ok (result, rest)) : rest.length ≤ text.length := by
  simp only [scanExponent] at scanned
  split at scanned
  · cases scanned
  · cases scanned
    exact Nat.le_trans (length_dropWhile_le _ _) (length_exponentSign_le text)

theorem length_scanAfterDigits_le {numeral result : Numeral} {text rest : List Char}
    (scanned : scanAfterDigits numeral text = .ok (result, rest)) :
    rest.length ≤ text.length := by
  unfold scanAfterDigits at scanned
  split at scanned
  · exact Nat.le_succ_of_le (length_scanExponent_le scanned)
  · exact Nat.le_succ_of_le (length_scanExponent_le scanned)
  · cases scanned
    exact Nat.le_refl _

theorem length_scanAfterWhole_le {numeral result : Numeral} {text rest : List Char}
    (scanned : scanAfterWhole numeral text = .ok (result, rest)) :
    rest.length ≤ text.length := by
  unfold scanAfterWhole at scanned
  split at scanned
  · simp only at scanned
    split at scanned
    · cases scanned
    · exact Nat.le_succ_of_le
        (Nat.le_trans (length_scanAfterDigits_le scanned) (length_dropWhile_le _ _))
  · exact length_scanAfterDigits_le scanned

theorem length_scanWhole_lt {negative : Bool} {result : Numeral} {text rest : List Char}
    (scanned : scanWhole negative text = .ok (result, rest)) : rest.length < text.length := by
  simp only [scanWhole] at scanned
  split at scanned
  · cases scanned
  · next digits =>
    split at scanned
    · cases scanned
    · have split : (text.takeWhile Char.isDigit).length +
          (text.dropWhile Char.isDigit).length = text.length := by
        rw [← List.length_append, List.takeWhile_append_dropWhile]
      have bound := length_scanAfterWhole_le scanned
      have positive : 0 < (text.takeWhile Char.isDigit).length := by
        simpa [List.length_pos_iff] using digits
      omega

theorem length_scan_lt {result : Numeral} {text rest : List Char}
    (scanned : scan text = .ok (result, rest)) : rest.length < text.length := by
  unfold scan at scanned
  split at scanned
  · exact Nat.lt_succ_of_lt (length_scanWhole_lt scanned)
  · exact length_scanWhole_lt scanned

end Numeral

end SemanticQuery.Json
