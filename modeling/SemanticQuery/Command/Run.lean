/-
This file runs commands. A run depends only on the arguments and the environment.
-/

import SemanticQuery.Command.Environment
import SemanticQuery.Command.Invocation
import SemanticQuery.Command.Path
import SemanticQuery.Document.Reader
import SemanticQuery.Report
import SemanticQuery.Statement.Compilation
import SemanticQuery.Summary

namespace SemanticQuery

/-- A run ends with an exit code, the text that it printed, and the messages for people. -/
structure Finish where
  code : UInt8
  output : String
  messages : List String
deriving DecidableEq

namespace Finish

/-- A run that fails prints nothing but messages. -/
def failure (messages : List String) : Finish := ⟨1, "", messages⟩

/-- Misuse of the program has a code of its own, which it shares with a degraded statement. -/
def misuse : Finish := ⟨2, "", ["Usage: semsql [OPTIONS] <compile|validate|extract> [FILE]"]⟩

end Finish

namespace Command

/-- A file that is a dash is the standard input, like a file that is not given. -/
def inputFile? (file : Option String) : Option String := file.filter fun path => !Path.isDash path

/-- The input is the file or the standard input. -/
def readInput (environment : Environment) (file : Option String) : Except String String :=
  match inputFile? file with
  | none => (decodeText environment.input).mapError ("Error reading stdin: " ++ ·)
  | some path =>
      (environment.file path).text.mapError fun reason =>
        "Error reading file '" ++ path ++ "': " ++ reason

/-- A raw input without a document counts as the empty document. -/
def loadDocument (environment : Environment) (file : Option String) (raw : Bool) :
    Except String (Logged Document) := do
  let text ← readInput environment file
  if raw then return Document.orEmpty (Document.ofResponse text)
  else ((Document.ofJson text).mapError Document.Error.message).map pure

/-- Only the events of the level and of lower ones are written. -/
def logLines (level : LogLevel) (events : List Event) : List String :=
  (events.filter fun event => level.includes event.level).map Event.line

/-- A warning is marked as one. -/
def warningLine (warning : Report.Warning) : String := "warning: " ++ warning.message

/-- A failed validation is marked as one. -/
def failureLine (failure : Report.Failure) : String := "Validation error: " ++ failure.message

/-- The text of an outcome ends with a line break in every format. -/
def printed (output : OutputFormat) (dialect : Dialect) (document : Document)
    (outcome : Outcome) : String :=
  let text :=
    match output with
    | .sql => outcome.sql
    | .verbose => (Summary.ofDocument dialect document outcome).text
    | .json =>
        (Json.Value.object [
          ("degraded", .boolean outcome.isDegraded),
          ("dialect", .string dialect.name),
          ("reason", .ofOption (fun reason => .string reason.message) outcome.reason?),
          ("sql", .string outcome.sql)]).prettyText
  text ++ "\n"

/-- A degraded statement is printed like any other one, but the exit code tells. -/
def runCompile (environment : Environment) (level : LogLevel) (file : Option String)
    (dialect : Dialect) (output : OutputFormat) (strict raw : Bool) : Finish :=
  match loadDocument environment file raw with
  | .error message => .failure [message]
  | .ok ⟨document, events⟩ =>
      let outcome := document.compile dialect
      let finish (messages : List String) : Finish :=
        { code := if outcome.value.isDegraded then 2 else 0
          output := printed output dialect document outcome.value
          messages := logLines level events ++ messages ++ logLines level outcome.events }
      if strict then
        match Report.ofDocument dialect document with
        | .error failure => .failure (logLines level events ++ [failureLine failure])
        | .ok report => finish (report.warnings.map warningLine)
      else finish []

/-- The last line counts the warnings. -/
def verdict (count : Nat) : String :=
  "OK: document is valid (" ++ toString count ++ " warning" ++ (if count = 1 then "" else "s") ++ ")"

/-- The warnings are printed one to a line. -/
def runValidate (environment : Environment) (level : LogLevel) (file : Option String)
    (dialect : Dialect) (raw : Bool) : Finish :=
  match loadDocument environment file raw with
  | .error message => .failure [message]
  | .ok ⟨document, events⟩ =>
      match Report.ofDocument dialect document with
      | .error failure => .failure (logLines level events ++ [failureLine failure])
      | .ok report =>
          let lines := report.warnings.map warningLine ++ [verdict report.warnings.length]
          ⟨0, String.join (lines.map (· ++ "\n")), logLines level events⟩

/-- The document is printed with all its fields. -/
def runExtract (environment : Environment) (file : Option String) : Finish :=
  match readInput environment file with
  | .error message => .failure [message]
  | .ok text =>
      match Document.ofResponse text with
      | .error error => .failure ["Extraction error: " ++ error.message]
      | .ok document => ⟨0, document.toJson.prettyText ++ "\n", []⟩

/-- The options of a command count more than the settings. -/
def run (environment : Environment) (settings : Settings) (level : LogLevel) :
    Command → Finish
  | .compile file dialect output strict raw =>
      runCompile environment level file (dialect.getD settings.dialect) output
        (strict || settings.strict) raw
  | .validate file dialect raw =>
      runValidate environment level file (dialect.getD settings.dialect) raw
  | .extract file => runExtract environment file

end Command

namespace Invocation

/-- The level of the settings has no use in a verbose run. -/
def settings (environment : Environment) (invocation : Invocation) :
    Except Settings.Error (Settings × LogLevel) := do
  let settings ← Settings.load environment invocation.config
  let level ← if invocation.verbose then .ok .debug else settings.logLevel
  return (settings, level)

/-- The settings are loaded before the input is read. -/
def run (environment : Environment) (invocation : Invocation) : Finish :=
  match invocation.settings environment with
  | .error error => .failure ["Error loading config: " ++ error.message]
  | .ok (settings, level) => invocation.command.run environment settings level

end Invocation

/-- The version of the program is printed on one line. -/
def versionLine : String := "semsql 0.1.0\n"

/-- The help lists the commands and their options. -/
def helpText : String := "\n".intercalate [
  "semsql - Compile semantic query documents to SQL",
  "",
  "Usage: semsql [OPTIONS] <COMMAND>",
  "",
  "Commands:",
  "  compile   Compile a semantic query document to SQL",
  "  validate  Validate a semantic query document without generating SQL",
  "  extract   Extract the document from a free-text response and print it as JSON",
  "  help      Print this message",
  "",
  "Options:",
  "  -c, --config <CONFIG>  Path to a semsql.toml config file",
  "  -v, --verbose          Log debug output to stderr",
  "  -h, --help             Print help",
  "  -V, --version          Print version",
  ""]

/-- The arguments decide what is run. -/
def Request.run (environment : Environment) : Request → Finish
  | .invoke invocation => invocation.run environment
  | .version => ⟨0, versionLine, []⟩
  | .help => ⟨0, helpText, []⟩
  | .misuse => .misuse

/-- A command is given at most one file besides the settings. -/
def Command.file? : Command → Option String
  | .compile file .. => file
  | .validate file .. => file
  | .extract file => file

/-- The standard input is read by every command that reads no file. -/
def Request.needsInput : Request → Bool
  | .invoke invocation => (Command.inputFile? invocation.command.file?).isNone
  | _ => false

/-- A run looks at no other files than these. -/
def Request.paths (configured directory : Option String) : Request → List String
  | .invoke invocation =>
      (invocation.config.toList ++ configured.toList ++
          (Command.inputFile? invocation.command.file?).toList) ++
        Settings.localPath :: (directory.map Settings.userPath).toList
  | _ => []

/-- A run of the program depends on nothing else. -/
def runProgram (environment : Environment) (arguments : List String) : Finish :=
  (Request.ofArguments arguments).run environment

end SemanticQuery
