/-
This file defines the levels of events.
-/

import SemanticQuery.Number.Natural

namespace SemanticQuery

/-- A level says which events are written. -/
inductive LogLevel where
  | error
  | warn
  | info
  | debug
  | trace
deriving DecidableEq

namespace LogLevel

/-- A lower level writes less. -/
def all : List LogLevel := [.error, .warn, .info, .debug, .trace]

/-- The name of a level is in upper case. -/
def name : LogLevel → String
  | .error => "ERROR"
  | .warn => "WARN"
  | .info => "INFO"
  | .debug => "DEBUG"
  | .trace => "TRACE"

/-- The number of a level grows with what it writes. -/
def toNat : LogLevel → Nat
  | .error => 1
  | .warn => 2
  | .info => 3
  | .debug => 4
  | .trace => 5

/-- A level is given by its number or by its name in any case. Blanks around
it do not matter. -/
def ofText? (text : String) : Option LogLevel :=
  let trimmed := Text.trimList text.toList
  match readUInt64? trimmed with
  | some number => all.find? fun level => level.toNat = number.toNat
  | none => all.find? fun level => level.name.toList = trimmed.map Char.toUpper

/-- A level includes all lower ones. -/
def includes (level other : LogLevel) : Bool := other.toNat ≤ level.toNat

end LogLevel

end SemanticQuery
