/-
This file defines the integers that a query can hold.
-/

namespace SemanticQuery

/-- An integer of a query fits 64 bits, with or without a sign. -/
structure Integer where
  value : Int
  lower : -0x8000000000000000 ≤ value := by omega
  upper : value < 0x10000000000000000 := by omega
deriving DecidableEq

namespace Integer

/-- Only an integer outside both 64-bit ranges is refused. -/
def ofInt? (value : Int) : Option Integer :=
  if within : -0x8000000000000000 ≤ value ∧ value < 0x10000000000000000 then
    some { value, lower := within.1, upper := within.2 }
  else none

/-- Every natural number of 64 bits is such an integer. -/
def ofUInt64 (value : UInt64) : Integer where
  value := value.toNat
  lower := by omega
  upper := by have := value.toNat_lt; omega

/-- The text has a sign only when the integer is negative, and no leading zero. -/
def text (integer : Integer) : String := toString integer.value

/-- A natural number is given back only when the integer is not negative. -/
def toUInt64? (integer : Integer) : Option UInt64 :=
  match integer.value with
  | .ofNat value => some (UInt64.ofNat value)
  | .negSucc _ => none

theorem toUInt64?_ofUInt64 (value : UInt64) : (ofUInt64 value).toUInt64? = some value :=
  congrArg some UInt64.ofNat_toNat

end Integer

end SemanticQuery
