/-
This file builds tables from statements. A table may be defined only once.
-/

import SemanticQuery.Toml.Value

namespace SemanticQuery.Toml

/-- A table is defined by its name in brackets, implied by a longer name in brackets, or made by
a key with points. -/
inductive Origin where
  | named
  | implied
  | dotted
deriving DecidableEq

/-- An item of a growing table is a finished value, a table, or a list of tables. -/
inductive Item where
  | value (value : Value)
  | table (origin : Origin) (entries : List (String × Item))
  | elements (tables : List (List (String × Item)))

/-- The entries of a table keep their order. -/
abbrev Entries := List (String × Item)

mutual

/-- A finished table does not remember how it was made. -/
def closeItem : Item → Value
  | .value value => value
  | .table _ entries => .table (closeEntries entries)
  | .elements tables => .array (closeTables tables)

/-- All entries are finished. -/
def closeEntries : List (String × Item) → List (String × Value)
  | [] => []
  | (key, item) :: rest => (key, closeItem item) :: closeEntries rest

/-- All tables of a list are finished. -/
def closeTables : List (List (String × Item)) → List Value
  | [] => []
  | entries :: rest => .table (closeEntries entries) :: closeTables rest

end

/-- The item of a key is changed, or one is put at the end. -/
def modify (key : String) (change : Option Item → Option Item) : Entries → Option Entries
  | [] => (change none).map fun item => [(key, item)]
  | (first, item) :: rest =>
      if first = key then (change (some item)).map fun item => (first, item) :: rest
      else (modify key change rest).map ((first, item) :: ·)

/-- Only the last table of a list is open. -/
def modifyLast (change : Entries → Option Entries) : List Entries → Option (List Entries)
  | [] => none
  | [last] => (change last).map ([·])
  | first :: rest => (modifyLast change rest).map (first :: ·)

/-- A name in brackets goes through tables of every origin and through the last tables of lists.
Tables that do not exist yet are implied. -/
def within (change : Entries → Option Entries) : List String → Entries → Option Entries
  | [], entries => change entries
  | key :: path, entries =>
      modify key (fun
        | none => (within change path []).map (.table .implied)
        | some (.value _) => none
        | some (.table origin inner) => (within change path inner).map (.table origin)
        | some (.elements tables) =>
            (modifyLast (within change path) tables).map .elements) entries

/-- A table may be named once, also when it was implied before. -/
def nameTable : Option Item → Option Item
  | none => some (.table .named [])
  | some (.table .implied entries) => some (.table .named entries)
  | some _ => none

/-- A list of tables grows by one empty table. -/
def addElement : Option Item → Option Item
  | none => some (.elements [[]])
  | some (.elements tables) => some (.elements (tables ++ [[]]))
  | some _ => none

/-- The last key of a path is apart from the others. -/
def splitLast : List String → Option (List String × String)
  | [] => none
  | [last] => some ([], last)
  | first :: rest => (splitLast rest).map fun result => (first :: result.1, result.2)

/-- The table of a name in brackets becomes current. -/
def openTable (path : List String) (entries : Entries) : Option Entries := do
  let (path, last) ← splitLast path
  within (modify last nameTable) path entries

/-- A new table at the end of a list becomes current. -/
def openElement (path : List String) (entries : Entries) : Option Entries := do
  let (path, last) ← splitLast path
  within (modify last addElement) path entries

/-- A key may get a value once. A key with points goes through tables that no name in brackets
defines, and the table of its last part must have been made by such a key. -/
def assign (allowed : Bool) (value : Value) : List String → Entries → Option Entries
  | [], _ => none
  | [key], entries =>
      if allowed then
        modify key (fun
          | none => some (.value value)
          | some _ => none) entries
      else none
  | key :: next :: path, entries =>
      modify key (fun
        | none => (assign true value (next :: path) []).map (.table .dotted)
        | some (.value _) => none
        | some (.table .named _) => none
        | some (.table .implied inner) =>
            (assign false value (next :: path) inner).map (.table .implied)
        | some (.table .dotted inner) =>
            (assign true value (next :: path) inner).map (.table .dotted)
        | some (.elements tables) =>
            (modifyLast (assign false value (next :: path)) tables).map .elements) entries

/-- A key belongs to the current table. -/
def assignWithin (current path : List String) (value : Value) (entries : Entries) :
    Option Entries :=
  within (assign true value path) current entries

end SemanticQuery.Toml
