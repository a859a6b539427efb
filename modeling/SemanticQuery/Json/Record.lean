/-
This file reads trees as texts, lists and records.
-/

import SemanticQuery.Json.Value

namespace SemanticQuery.Json

/-- A reader takes the tree of one value. -/
abbrev Reader (α : Type) := Tree → Except Fault α

namespace Reader

/-- Only a string is a text. -/
def text : Reader String
  | .string quoted => quoted.text
  | tree => .error tree.wrongType

/-- Nothing is read where the value is null. -/
def optional (reader : Reader α) : Reader (Option α)
  | .null => .ok none
  | tree => (reader tree).map some

/-- All items are read by the same reader, from left to right. -/
def items (reader : Reader α) : List Tree → Except Fault (List α)
  | [] => .ok []
  | item :: rest => do
      let item ← reader item
      let rest ← items reader rest
      return item :: rest

/-- Only an array is a list. -/
def list (reader : Reader α) : Reader (List α)
  | .array trees ending => do
      let result ← items reader trees
      requireEnd ending
      return result
  | tree => .error tree.wrongType

/-- A list that is null has no items. -/
def listOrNull (reader : Reader α) : Reader (List α) :=
  fun tree => ((list reader).optional tree).map (·.getD [])

end Reader

/-- A field of a record has a key, and its value changes the record. -/
structure FieldReader (ρ : Type) where
  key : String
  read : Tree → ρ → Except Fault ρ

namespace FieldReader

/-- A field of this kind replaces one part of the record. -/
def of (key : String) (reader : Reader α) (replace : α → ρ → ρ) : FieldReader ρ where
  key := key
  read tree record := (reader tree).map (replace · record)

end FieldReader

namespace Reader

/-- A member with an unknown key is skipped. A known key may come only once, which is seen
before its value is. -/
def members (fields : List (FieldReader ρ)) :
    List (Quoted × Tree) → List String → ρ → Except Fault ρ
  | [], _, record => .ok record
  | (key, tree) :: rest, seen, record => do
      let key ← key.text
      match fields.find? (·.key = key) with
      | none =>
          tree.skim
          members fields rest seen record
      | some field =>
          if key ∈ seen then .error .mistyped
          else
            let record ← field.read tree record
            members fields rest (key :: seen) record

/-- Items stand for the fields in their order. Fields may be missing at the end, and no item
may be left over. -/
def positions : List (FieldReader ρ) → List Tree → Option Fault → ρ → Except Fault ρ
  | _, [], ending, record => do
      requireEnd ending
      return record
  | [], _ :: _, _, _ => .error .malformed
  | field :: fields, item :: rest, ending, record => do
      let record ← field.read item record
      positions fields rest ending record

/-- A record is an object or an array of its fields. A field that does not occur keeps the
value that it has in the given record. -/
def record (fields : List (FieldReader ρ)) (empty : ρ) : Reader ρ
  | .object trees ending => do
      let result ← members fields trees [] empty
      requireEnd ending
      return result
  | .array trees ending => positions fields trees ending empty
  | tree => .error tree.wrongType

end Reader

end SemanticQuery.Json
