/-
This file reads the command line.
-/

import SemanticQuery.Command.Arguments
import SemanticQuery.Sql.Dialect

namespace SemanticQuery

/-- A statement is printed alone, with a narration, or with its outcome as JSON. -/
inductive OutputFormat where
  | sql
  | verbose
  | json
deriving DecidableEq

/-- Only the exact name is the name of a format. -/
def OutputFormat.ofName? : String → Option OutputFormat
  | "sql" => some .sql
  | "verbose" => some .verbose
  | "json" => some .json
  | _ => none

/-- A command has its own options. A missing file means the standard input. -/
inductive Command where
  | compile (file : Option String) (dialect : Option Dialect) (output : OutputFormat)
      (strict raw : Bool)
  | validate (file : Option String) (dialect : Option Dialect) (raw : Bool)
  | extract (file : Option String)
deriving DecidableEq

/-- An invocation is a command with the options that all commands share. -/
structure Invocation where
  config : Option String
  verbose : Bool
  command : Command
deriving DecidableEq

/-- The arguments ask for one of these. -/
inductive Request where
  | invoke (invocation : Invocation)
  | version
  | help
  | misuse
deriving DecidableEq

namespace Request

/-- The settings file and the verbosity may be given before and after the command. -/
def sharedSwitches : List Switch := [
  ⟨"config", some 'c', true⟩,
  ⟨"verbose", some 'v', false⟩,
  ⟨"help", some 'h', false⟩]

/-- The version is known only in front of a command. -/
def topSwitches : List Switch := ⟨"version", some 'V', false⟩ :: sharedSwitches

/-- The commands of the program have names. -/
def commandNames : List String := ["compile", "validate", "extract", "help"]

/-- The switches of a command come in addition to the shared ones. -/
def switchesOf : String → List Switch
  | "compile" => [
      ⟨"dialect", some 'd', true⟩,
      ⟨"output", some 'o', true⟩,
      ⟨"strict", none, false⟩,
      ⟨"raw", none, false⟩] ++ sharedSwitches
  | "validate" => [⟨"dialect", some 'd', true⟩, ⟨"raw", none, false⟩] ++ sharedSwitches
  | _ => sharedSwitches

/-- What was given so far is collected in one place. -/
structure Given where
  config : Option String
  verbose : Bool
  file : Option String
  dialect : Option Dialect
  output : Option OutputFormat
  strict : Bool
  raw : Bool

/-- Nothing is given at first. -/
def Given.nothing : Given := ⟨none, false, none, none, none, false, false⟩

/-- A part is taken at most once. A request for help or for the version ends the reading. -/
def take (given : Given) : Part → Except Request Given
  | .flag "help" => .error .help
  | .flag "version" => .error .version
  | .flag "verbose" => if given.verbose then .error .misuse else .ok { given with verbose := true }
  | .flag "strict" => if given.strict then .error .misuse else .ok { given with strict := true }
  | .flag "raw" => if given.raw then .error .misuse else .ok { given with raw := true }
  | .value "config" path =>
      if given.config.isSome || path = "" then .error .misuse
      else .ok { given with config := some path }
  | .value "dialect" name =>
      match given.dialect, Dialect.ofName? name with
      | none, some dialect => .ok { given with dialect := some dialect }
      | _, _ => .error .misuse
  | .value "output" name =>
      match given.output, OutputFormat.ofName? name with
      | none, some output => .ok { given with output := some output }
      | _, _ => .error .misuse
  | .operand path =>
      if given.file.isSome || path = "" then .error .misuse
      else .ok { given with file := some path }
  | _ => .error .misuse

/-- The parts are taken from left to right. -/
def takeAll (given : Given) (parts : List Part) : Except Request Given :=
  parts.foldlM take given

/-- The help of a command is asked for by its name, and there is nothing below a command. -/
def helpOn : List String → Request
  | [] => .help
  | [name] => if name ∈ commandNames then .help else .misuse
  | _ => .misuse

/-- What was given behind the name of a command makes the command. -/
def command? (name : String) (given : Given) : Option Command :=
  match name with
  | "compile" =>
      some (.compile given.file given.dialect (given.output.getD .sql) given.strict given.raw)
  | "validate" => some (.validate given.file given.dialect given.raw)
  | "extract" => some (.extract given.file)
  | _ => none

/-- A settings file that is given behind the command counts more than one in front of it. -/
def combine (outer inner : Given) (name : String) : Request :=
  match command? name inner with
  | none => .misuse
  | some command =>
      .invoke ⟨inner.config <|> outer.config, outer.verbose || inner.verbose, command⟩

/-- A file may stand only behind a command. The value that is pending in front of a command is taken
last, so a fault of it does not keep the help from being printed. -/
def ofArguments (arguments : List String) : Request :=
  let scanned := Switch.scan topSwitches commandNames none arguments
  match takeAll .nothing (scanned.parts.map fun
    | .operand _ => .misuse
    | part => part) with
  | .error request => request
  | .ok front =>
      match scanned.command with
      | none => .misuse
      | some ("help", names) => helpOn names
      | some (name, arguments) =>
          match takeAll .nothing (Switch.scan (switchesOf name) [] none arguments).parts with
          | .error request => request
          | .ok inner =>
              match takeAll front scanned.pending.toList with
              | .error request => request
              | .ok outer => combine outer inner name

example : ofArguments ["--config", "", "compile", "--help"] = .help ∧
    ofArguments ["--config=", "compile", "--help"] = .misuse := by decide

end Request

end SemanticQuery
