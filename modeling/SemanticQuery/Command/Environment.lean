/-
This file defines what the program sees of the outside world, and finds the settings there.
-/

import SemanticQuery.Settings.Basic

namespace SemanticQuery

/-- A file is absent, cannot be read, or has content. The system gives the reason. -/
inductive FileState where
  | absent (reason : String)
  | unreadable (reason : String)
  | content (bytes : ByteArray)

/-- Bytes are a text only when they are UTF-8. -/
def decodeText (bytes : ByteArray) : Except String String :=
  match String.fromUTF8? bytes with
  | some text => .ok text
  | none => .error "stream did not contain valid UTF-8"

namespace FileState

/-- Only an absent file does not exist. -/
def isPresent : FileState → Bool
  | .absent _ => false
  | _ => true

/-- The text of a file is all of its content. -/
def text : FileState → Except String String
  | .absent reason => .error reason
  | .unreadable reason => .error reason
  | .content bytes => decodeText bytes

end FileState

/-- The environment is fixed while the program runs. -/
structure Environment where
  file : String → FileState
  input : ByteArray
  configVariable : Option String
  configDirectory : Option String

namespace Settings

/-- A file that does not exist is told apart from one that cannot be read. -/
def ofFile (path : String) (file : FileState) : Except Error Settings :=
  if file.isPresent then
    match file.text with
    | .error reason => .error (.unreadable reason)
    | .ok text => ofText text
  else .error (.notFound path)

/-- This file is looked for in the current directory. -/
def localPath : String := "semsql.toml"

/-- This file is looked for in the directory of the user. -/
def userPath (directory : String) : String := directory ++ "/semsql/semsql.toml"

/-- These files are used only if they exist. The first one counts. -/
def searchPaths (environment : Environment) : List String :=
  localPath :: (environment.configDirectory.map userPath).toList

/-- A path that is given must lead to settings. Otherwise the first file that exists has them, and
the default settings hold if there is none. -/
def load (environment : Environment) (given : Option String) : Except Error Settings :=
  match given <|> environment.configVariable with
  | some path => ofFile path (environment.file path)
  | none =>
      match (searchPaths environment).find? fun path => (environment.file path).isPresent with
      | some path => ofFile path (environment.file path)
      | none => .ok default

end Settings

end SemanticQuery
