/-
This file gives the exact value of a double.
-/

namespace SemanticQuery

/-- A dyadic number is an integer times a power of two, with a sign that zero has too. -/
structure Dyadic where
  negative : Bool
  significand : Nat
  exponent : Int
deriving DecidableEq

/-- A double is finite, infinite, or not a number. -/
inductive Magnitude where
  | finite (value : Dyadic)
  | infinite (negative : Bool)
  | undefined
deriving DecidableEq

/-- The significand of a double has 53 bits unless the double is very small. This is the weight
of the highest one, which is not stored. -/
def Dyadic.leadingBit : Nat := 0x10000000000000

/-- The 64 bits of a double are its sign, eleven bits of exponent, and 52 bits of fraction. -/
def magnitude (number : Float) : Magnitude :=
  let bits := number.toBits.toNat
  let negative := decide (0x8000000000000000 ≤ bits)
  let scale : Nat := bits / Dyadic.leadingBit % 0x800
  let fraction : Nat := bits % Dyadic.leadingBit
  if scale = 0x7FF then
    if fraction = 0 then .infinite negative else .undefined
  else if scale = 0 then .finite ⟨negative, fraction, -1074⟩
  else .finite ⟨negative, Dyadic.leadingBit + fraction, (scale : Int) - 1075⟩

namespace Dyadic

/-- The value is given back as a natural number exactly when it is one. -/
def toNat? (number : Dyadic) : Option Nat :=
  if number.negative && number.significand != 0 then none
  else match number.exponent with
    | .ofNat shift => some (number.significand * Nat.pow 2 shift)
    | .negSucc shift =>
        let unit := Nat.pow 2 (shift + 1)
        if number.significand % unit = 0 then some (number.significand / unit) else none

end Dyadic

/-- A double is read as an integer of 64 bits only when its exact value is one. -/
def wholeUInt64? (number : Float) : Option UInt64 :=
  match magnitude number with
  | .finite value =>
      match value.toNat? with
      | some whole => if whole < UInt64.size then some (UInt64.ofNat whole) else none
      | none => none
  | _ => none

end SemanticQuery
