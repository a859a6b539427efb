/-
This file is the command line program.
-/

import SemanticQuery.Command.Run

namespace SemanticQuery.Main

/-- The system numbers its errors, and some of its libraries negate the number. -/
def errorNumber (code : UInt32) : Nat := (if code < 0x80000000 then code else 0 - code).toNat

/-- The reasons why a path leads to no content have texts. -/
def errorText (number : Nat) : String :=
  let text :=
    match number with
    | 2 => "No such file or directory"
    | 13 => "Permission denied"
    | 20 => "Not a directory"
    | 21 => "Is a directory"
    | 36 => "File name too long"
    | 40 => "Too many levels of symbolic links"
    | _ => "Input/output error"
  text ++ " (os error " ++ toString number ++ ")"

/-- A path that leads nowhere is absent, and any other path cannot be read. -/
def failedState (code : UInt32) : FileState :=
  let number := errorNumber code
  if number = 13 ∨ number = 21 then .unreadable (errorText number)
  else .absent (errorText number)

/-- The system says why a file has no content. -/
def fileState (error : IO.Error) : FileState :=
  match error with
  | .noFileOrDirectory _ code _ => failedState code
  | .inappropriateType _ code _ => failedState code
  | .permissionDenied _ code _ => failedState code
  | .invalidArgument _ code _ => failedState code
  | .resourceExhausted _ code _ => failedState code
  | error => .unreadable (toString error)

/-- A file is read at most once. -/
def readFile (path : String) : IO (String × FileState) := do
  try return (path, .content (← IO.FS.readBinFile path))
  catch error => return (path, fileState error)

/-- The standard input is read to its end. -/
partial def readInput (input : IO.FS.Stream) (before : ByteArray) : IO ByteArray := do
  let bytes ← input.read 65536
  if bytes.isEmpty then return before else readInput input (before ++ bytes)

/-- The directory for settings of the user follows from the environment. -/
def configDirectory : IO (Option String) := do
  match ← IO.getEnv "XDG_CONFIG_HOME" with
  | some path => if path.startsWith "/" then return some path
  | none => pure ()
  return (← IO.getEnv "HOME").map (· ++ "/.config")

/-- All that a run may look at is gathered before it. -/
def gather (request : Request) : IO Environment := do
  let configured ← IO.getEnv "SEMSQL_CONFIG"
  let directory ← configDirectory
  let files ← (request.paths configured directory).mapM readFile
  let input ←
    if request.needsInput then readInput (← IO.getStdin) ByteArray.empty
    else pure ByteArray.empty
  return {
    file := fun path =>
      (files.lookup path).getD (.absent "No such file or directory (os error 2)")
    input
    configVariable := configured
    configDirectory := directory }

end SemanticQuery.Main

open SemanticQuery in
/-- The program prints the output and the messages of a run and ends with its code. -/
def main (arguments : List String) : IO UInt32 := do
  let request := Request.ofArguments arguments
  let finish := request.run (← Main.gather request)
  IO.print finish.output
  for message in finish.messages do IO.eprintln message
  return finish.code.toUInt32
