/-
This file reads trees as plain JSON values.
-/

import SemanticQuery.Json.Tree

namespace SemanticQuery.Json

/-- A JSON value keeps the members of an object in the order in which they are written. -/
inductive Value where
  | null
  | boolean (value : Bool)
  | number (value : Number)
  | string (value : String)
  | array (items : List Value)
  | object (members : List (String × Value))

/-- The ending of an array or object is read after what stands in it. -/
def requireEnd : Option Fault → Except Fault Unit
  | none => .ok ()
  | some fault => .error fault

/-- Members are kept in the order of their keys, and a repeated key takes the last value. -/
def insertMember (key : String) (value : Value) :
    List (String × Value) → List (String × Value)
  | [] => [(key, value)]
  | (first, old) :: rest =>
      if key < first then (key, value) :: (first, old) :: rest
      else if key = first then (key, value) :: rest
      else (first, old) :: insertMember key value rest

namespace Tree

/-- Arrays and objects nest at most this deep, the outermost one included. -/
def maximumDepth : Nat := 127

mutual

/-- The room says how many more levels of arrays and objects may be opened. -/
def value (room : Nat) : Tree → Except Fault Value
  | .null => .ok .null
  | .boolean value => .ok (.boolean value)
  | .number numeral => numeral.value.map .number
  | .brokenNumber fault => .error fault
  | .string quoted => quoted.text.map .string
  | .stray fault => .error fault
  | .array items ending =>
      match room with
      | 0 => .error .malformed
      | room + 1 => do
          let items ← valueItems room items
          requireEnd ending
          return .array items
  | .object members ending =>
      match room with
      | 0 => .error .malformed
      | room + 1 => do
          let members ← valueMembers room members []
          requireEnd ending
          return .object members

/-- Items are read from left to right. -/
def valueItems (room : Nat) : List Tree → Except Fault (List Value)
  | [] => .ok []
  | item :: rest => do
      let item ← value room item
      let rest ← valueItems room rest
      return item :: rest

/-- A key is read before its value. -/
def valueMembers (room : Nat) :
    List (Quoted × Tree) → List (String × Value) → Except Fault (List (String × Value))
  | [], members => .ok members
  | (key, item) :: rest, members => do
      let key ← key.text
      let item ← value room item
      valueMembers room rest (insertMember key item members)

end

mutual

/-- A skipped value only has to look like JSON. Its nesting, its numbers and the pairs of its
units do not matter. -/
def skim : Tree → Except Fault Unit
  | .brokenNumber _ => .error .malformed
  | .string quoted => requireEnd quoted.ending
  | .stray fault => .error fault
  | .array items ending => do
      skimItems items
      requireEnd ending
  | .object members ending => do
      skimMembers members
      requireEnd ending
  | _ => .ok ()

/-- Items are skipped from left to right. -/
def skimItems : List Tree → Except Fault Unit
  | [] => .ok ()
  | item :: rest => do
      skim item
      skimItems rest

/-- A key is skipped before its value. -/
def skimMembers : List (Quoted × Tree) → Except Fault Unit
  | [] => .ok ()
  | (key, item) :: rest => do
      requireEnd key.ending
      skim item
      skimMembers rest

end

/-- A scalar of the wrong type is read completely before its type is looked at. -/
def wrongType (tree : Tree) : Fault :=
  match tree with
  | .number numeral =>
      match numeral.value with
      | .error fault => fault
      | .ok _ => .mistyped
  | .brokenNumber fault => fault
  | .string quoted =>
      match quoted.text with
      | .error fault => fault
      | .ok _ => .mistyped
  | .stray fault => fault
  | _ => .mistyped

end Tree

/-- Nothing but space may follow a value. -/
def requireNothing (trailing : Bool) : Except Fault Unit :=
  if trailing then .error .malformed else .ok ()

/-- A text is read from its start to its end. -/
def readText (reader : Tree → Except Fault α) (text : String) : Except Fault α := do
  let result ← reader (Tree.ofText text).1
  requireNothing (Tree.ofText text).2
  return result

/-- Any JSON value is accepted. -/
def Value.ofText (text : String) : Except Fault Value :=
  readText (Tree.value Tree.maximumDepth) text

end SemanticQuery.Json
