/-
This file defines the settings of the program and reads them from TOML.
-/

import SemanticQuery.Json.Printer
import SemanticQuery.Settings.Level
import SemanticQuery.Sql.Dialect
import SemanticQuery.Toml.Statement

namespace SemanticQuery

/-- The settings of the program have two groups in their file. -/
structure Settings where
  dialect : Dialect
  strict : Bool
  level : String
deriving DecidableEq

namespace Settings

/-- These settings hold without a file. -/
def default : Settings where
  dialect := .mysql
  strict := false
  level := "warn"

/-- Settings cannot be used for one of these reasons. -/
inductive Error where
  | notFound (path : String)
  | unreadable (reason : String)
  | unparsable
  | unknownLevel (level : String)
deriving DecidableEq

/-- The message of an error names its reason. -/
def Error.message : Error → String
  | .notFound path => "Config file not found: " ++ path
  | .unreadable reason => "Failed to read config file: " ++ reason
  | .unparsable => "Failed to parse config file: the settings are not valid TOML"
  | .unknownLevel level => "Invalid configuration: unknown log level '" ++ level ++ "'"

open Toml (Value)

/-- The fields of a group come from a table or from an array in their order. Other entries of a
table have no meaning, but their numbers must have values. Other items of an array are not looked
at. A date is a group without these fields. -/
def fields? (keys : List String) : Value → Option (List (Option Value))
  | .table entries =>
      if entries.all fun entry => entry.1 ∈ keys || Toml.isRepresentable entry.2 then
        some (keys.map fun key => entries.lookup key)
      else none
  | .array items => some ((items.map some ++ keys.map fun _ => none).take keys.length)
  | .date _ => some (keys.map fun _ => none)
  | _ => none

/-- A missing field has its default. -/
def orDefault (default : α) (read : Value → Option α) : Option Value → Option α
  | none => some default
  | some value => read value

/-- A dialect is named by a string, or by the only key of a table that holds nothing more. -/
def dialect? : Value → Option Dialect
  | .string name => Dialect.ofName? name
  | .table [(name, .table [])] => Dialect.ofName? name
  | .table [(name, .array [])] => Dialect.ofName? name
  | _ => none

/-- Only a truth value says whether to be strict. -/
def strict? : Value → Option Bool
  | .boolean value => some value
  | _ => none

/-- The level is kept as written. -/
def level? : Value → Option String
  | .string value => some value
  | _ => none

/-- The first group says how to compile. -/
def compiler? (value : Value) : Option (Dialect × Bool) := do
  match ← fields? ["dialect", "strict"] value with
  | [dialect, strict] =>
      return (← orDefault default.dialect dialect? dialect,
        ← orDefault default.strict strict? strict)
  | _ => none

/-- The second group says what to log. -/
def logging? (value : Value) : Option String := do
  match ← fields? ["level"] value with
  | [level] => orDefault default.level level? level
  | _ => none

/-- Both groups may be missing. -/
def ofValue? (value : Value) : Option Settings := do
  match ← fields? ["compiler", "logging"] value with
  | [compiler, logging] =>
      let (dialect, strict) ← orDefault (default.dialect, default.strict) compiler? compiler
      let level ← orDefault default.level logging? logging
      return ⟨dialect, strict, level⟩
  | _ => none

/-- A text that is not TOML or has a setting of the wrong type is refused. -/
def ofText (text : String) : Except Error Settings :=
  match Value.ofText text >>= ofValue? with
  | some settings => .ok settings
  | none => .error .unparsable

/-- The level is looked at only when it is needed. -/
def logLevel (settings : Settings) : Except Error LogLevel :=
  match LogLevel.ofText? settings.level with
  | some level => .ok level
  | none => .error (.unknownLevel settings.level)

/-- Settings are written with their groups. -/
def toJson (settings : Settings) : Json.Value :=
  .object [
    ("compiler", .object [
      ("dialect", .string settings.dialect.name),
      ("strict", .boolean settings.strict)]),
    ("logging", .object [("level", .string settings.level)])]

end Settings

end SemanticQuery
