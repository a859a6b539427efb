/-
This file finds the object that is embedded in a text.
-/

namespace SemanticQuery.Document

/-- A character is outside of every string, inside of one, or escaped there. -/
inductive Place where
  | outside
  | inside
  | escaped
deriving DecidableEq

/-- Only braces outside of strings count. The characters up to the brace that closes the
outermost one are given back. -/
def balanced : Nat → Place → List Char → Option (List Char)
  | _, _, [] => none
  | depth, .escaped, character :: rest =>
      (balanced depth .inside rest).map (character :: ·)
  | depth, .inside, character :: rest =>
      let place : Place :=
        if character = '\\' then .escaped else if character = '"' then .outside else .inside
      (balanced depth place rest).map (character :: ·)
  | depth, .outside, character :: rest =>
      if character = '"' then (balanced depth .inside rest).map (character :: ·)
      else if character = '{' then (balanced (depth + 1) .outside rest).map (character :: ·)
      else if character = '}' then
        match depth with
        | 0 => none
        | 1 => some [character]
        | depth + 2 => (balanced (depth + 1) .outside rest).map (character :: ·)
      else (balanced depth .outside rest).map (character :: ·)

/-- An opening brace that is never closed is passed over. -/
def firstObject : List Char → Option (List Char)
  | [] => none
  | character :: rest =>
      if character = '{' then
        match balanced 1 .outside rest with
        | some span => some (character :: span)
        | none => firstObject rest
      else firstObject rest

/-- The first span of balanced braces is taken for the document. -/
def embedded? (text : String) : Option String :=
  (firstObject text.toList).map String.ofList

end SemanticQuery.Document
