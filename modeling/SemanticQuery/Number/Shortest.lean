/-
This file finds the shortest decimal that reads back as a given double.
-/

import SemanticQuery.Number.Dyadic

namespace SemanticQuery

/-- A decimal is a natural number times a power of ten. -/
structure Decimal where
  digits : Nat
  exponent : Int
deriving DecidableEq

/-- When two decimals of equal length are equally near, the even one or the larger one wins. -/
inductive Tie where
  | even
  | up
deriving DecidableEq

namespace Decimal

/-- This value has as many decimal places as the dyadic number needs. -/
def exact (significand : Nat) (exponent : Int) : Decimal :=
  match exponent with
  | .ofNat shift => ⟨significand * Nat.pow 2 shift, 0⟩
  | .negSucc shift => ⟨significand * Nat.pow 5 (shift + 1), exponent⟩

/-- The doubles next to a power of two are half as far below it as above it. -/
def halfGapBelow (significand : Nat) (exponent : Int) : Nat :=
  if significand = Dyadic.leadingBit ∧ exponent ≠ -1074 then 1 else 2

/-- Of the two neighbours of the value among the multiples of a power of ten, the nearer one
that rounds to the double is chosen. All numbers are scaled by four so that the ends of the
rounding interval are natural; the ends belong to it when the significand is even. -/
def nearest? (tie : Tie) (significand : Nat) (exponent power : Int) : Option Nat :=
  let scale := Nat.pow 2 (exponent - 2).toNat * Nat.pow 10 (-power).toNat
  let unit := Nat.pow 2 (2 - exponent).toNat * Nat.pow 10 power.toNat
  let value := 4 * significand * scale
  let low := (4 * significand - halfGapBelow significand exponent) * scale
  let high := (4 * significand + 2) * scale
  let within (multiple : Nat) : Bool :=
    if significand % 2 = 0 then low ≤ multiple * unit && multiple * unit ≤ high
    else low < multiple * unit && multiple * unit < high
  let below := value / unit
  let above := below + 1
  match within below, within above with
  | false, false => none
  | true, false => some below
  | false, true => some above
  | true, true =>
      match compare (2 * value) ((below + above) * unit) with
      | .lt => some below
      | .gt => some above
      | .eq => if tie = .even ∧ below % 2 = 0 then some below else some above

/-- The powers of ten are tried from the largest down, so the first hit has the fewest
digits. -/
def search (tie : Tie) (significand : Nat) (exponent : Int) : Nat → Int → Decimal
  | 0, _ => exact significand exponent
  | steps + 1, power =>
      match nearest? tie significand exponent power with
      | some digits => ⟨digits, power⟩
      | none => search tie significand exponent steps (power - 1)

/-- The search starts above the number, and 17 digits always suffice. -/
def shortest (tie : Tie) (significand : Nat) (exponent : Int) : Decimal :=
  if significand = 0 then ⟨0, 0⟩
  else
    let bits : Int := significand.log2 + exponent + 2
    search tie significand exponent 22 (bits * 30103 / 100000 + 2)

end Decimal

end SemanticQuery
