/-
This file scans the statements of a TOML text.
-/

import SemanticQuery.Toml.Scalar
import SemanticQuery.Toml.Table
import SemanticQuery.Toml.Text

namespace SemanticQuery.Toml

/-- A statement names a table or gives a value to a key. -/
inductive Statement where
  | table (path : List String)
  | element (path : List String)
  | assign (path : List String) (value : Value)

mutual

/-- Each step takes at least one character, so the length of the text bounds the steps. -/
def scanValue : Nat → Nat → Scan Value
  | 0, _, _ => none
  | steps + 1, room, text =>
      match text, room with
      | '"' :: _, _ => (scanString text).map fun result => (.string result.1, result.2)
      | '\'' :: _, _ => (scanString text).map fun result => (.string result.1, result.2)
      | '[' :: _, 0 => none
      | '[' :: rest, room + 1 => do
          let (items, rest) ← scanItems steps room (← skipFiller false rest)
          return (.array items, rest)
      | '\x7b' :: _, 0 => none
      | '\x7b' :: rest, room + 1 => do
          let (entries, rest) ← scanEntries steps room [] (← skipFiller false rest)
          return (.table (closeEntries entries), rest)
      | _, _ => scanScalar text

/-- A comma may follow the last item. -/
def scanItems : Nat → Nat → Scan (List Value)
  | 0, _, _ => none
  | _ + 1, _, ']' :: rest => some ([], rest)
  | steps + 1, room, text => do
      let (item, rest) ← scanValue steps room text
      match ← skipFiller false rest with
      | ',' :: rest =>
          let (items, rest) ← scanItems steps room (← skipFiller false rest)
          return (item :: items, rest)
      | ']' :: rest => return ([item], rest)
      | _ => none

/-- A comma may follow the last entry. -/
def scanEntries : Nat → Nat → Entries → Scan Entries
  | 0, _, _, _ => none
  | _ + 1, _, entries, '\x7d' :: rest => some (entries, rest)
  | steps + 1, room, entries, text => do
      let (path, rest) ← scanPath text
      match ← skipFiller false rest with
      | '=' :: rest =>
          let (value, rest) ← scanValue steps room (← skipFiller false rest)
          let entries ← assign true value path entries
          match ← skipFiller false rest with
          | ',' :: rest => scanEntries steps room entries (← skipFiller false rest)
          | '\x7d' :: rest => return (entries, rest)
          | _ => none
      | _ => none

end

/-- A statement starts with a bracket or with a key. -/
def scanStatement (steps : Nat) : Scan Statement
  | '[' :: '[' :: rest => do
      let (path, rest) ← scanPath rest
      match rest with
      | ']' :: ']' :: rest => return (.element path, rest)
      | _ => none
  | '[' :: rest => do
      let (path, rest) ← scanPath rest
      match rest with
      | ']' :: rest => return (.table path, rest)
      | _ => none
  | text => do
      let (path, rest) ← scanPath text
      match rest with
      | '=' :: rest =>
          let (value, rest) ← scanValue steps maximumDepth (skipBlank rest)
          return (.assign path value, rest)
      | _ => none

/-- A line break ends a statement. -/
def scanStatements : Nat → List Char → Option (List Statement)
  | 0, _ => none
  | steps + 1, text =>
      match skipFiller false text with
      | none => none
      | some [] => some []
      | some text => do
          let (statement, rest) ← scanStatement steps text
          let statements ← scanStatements steps (← endLine rest)
          return statement :: statements

/-- The statements are carried out in their order. A table is current until the next one is
named. -/
def execute : List Statement → List String → Entries → Option Entries
  | [], _, entries => some entries
  | .table path :: rest, _, entries => do
      execute rest path (← openTable path entries)
  | .element path :: rest, _, entries => do
      execute rest path (← openElement path entries)
  | .assign path value :: rest, current, entries => do
      execute rest current (← assignWithin current path value entries)

/-- A mark at the start of a text says that it is Unicode, and has no other meaning. -/
def skipMark : List Char → List Char
  | '\ufeff' :: rest => rest
  | text => text

/-- A text is a table, or it is no TOML. -/
def Value.ofText (text : String) : Option Value := do
  let characters := skipMark text.toList
  let statements ← scanStatements (characters.length + 2) characters
  let entries ← execute statements [] []
  return .table (closeEntries entries)

end SemanticQuery.Toml
