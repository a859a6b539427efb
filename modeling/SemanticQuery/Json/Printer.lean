/-
This file writes JSON values.
-/

import SemanticQuery.Json.Value
import SemanticQuery.Number.Layout

namespace SemanticQuery.Json

/-- A finite double has its sign and its shortest digits. -/
def Number.write : Number → List Char
  | .integer value => value.text.toList
  | .real value _ =>
      match magnitude value with
      | .finite number => (Layout.json.text number).toList
      | _ => ['n', 'u', 'l', 'l']

namespace Value

/-- A truth value is written as its name. -/
def writeBoolean (value : Bool) : List Char :=
  if value then ['t', 'r', 'u', 'e'] else ['f', 'a', 'l', 's', 'e']

mutual

/-- The compact form has no space between tokens. -/
def compact : Value → List Char
  | .null => ['n', 'u', 'l', 'l']
  | .boolean value => writeBoolean value
  | .number value => value.write
  | .string value => Quoted.write value.toList
  | .array items => '[' :: compactItems items ++ [']']
  | .object members => '{' :: compactMembers members ++ ['}']

/-- Commas stand between items. -/
def compactItems : List Value → List Char
  | [] => []
  | [item] => compact item
  | item :: next :: rest => compact item ++ ',' :: compactItems (next :: rest)

/-- Commas stand between members. -/
def compactMembers : List (String × Value) → List Char
  | [] => []
  | [(key, item)] => Quoted.write key.toList ++ ':' :: compact item
  | (key, item) :: next :: rest =>
      Quoted.write key.toList ++ ':' :: compact item ++ ',' :: compactMembers (next :: rest)

end

/-- A new line is indented by two spaces for each level. -/
def newLine (level : Nat) : List Char := '\n' :: List.replicate (2 * level) ' '

mutual

/-- The pretty form gives every item and every member a line of its own. -/
def pretty (level : Nat) : Value → List Char
  | .null => ['n', 'u', 'l', 'l']
  | .boolean value => writeBoolean value
  | .number value => value.write
  | .string value => Quoted.write value.toList
  | .array [] => ['[', ']']
  | .array (item :: rest) => '[' :: prettyItems (level + 1) (item :: rest) ++ newLine level ++ [']']
  | .object [] => ['{', '}']
  | .object (member :: rest) =>
      '{' :: prettyMembers (level + 1) (member :: rest) ++ newLine level ++ ['}']

/-- Every item starts on a new line. -/
def prettyItems (level : Nat) : List Value → List Char
  | [] => []
  | [item] => newLine level ++ pretty level item
  | item :: next :: rest =>
      newLine level ++ pretty level item ++ ',' :: prettyItems level (next :: rest)

/-- Every member starts on a new line. -/
def prettyMembers (level : Nat) : List (String × Value) → List Char
  | [] => []
  | [(key, item)] => newLine level ++ Quoted.write key.toList ++ ':' :: ' ' :: pretty level item
  | (key, item) :: next :: rest =>
      newLine level ++ Quoted.write key.toList ++ ':' :: ' ' :: pretty level item ++
        ',' :: prettyMembers level (next :: rest)

end

/-- The compact text is what is hashed and what a limit is reported by. -/
def compactText (value : Value) : String := String.ofList value.compact

/-- The pretty text is meant to be read by people. -/
def prettyText (value : Value) : String := String.ofList (value.pretty 0)

end Value

end SemanticQuery.Json
