/-
This file shows that the tokens of a written value build its tree, in the compact and in the pretty
form.
-/

import SemanticQuery.Json.Value
import SemanticQuery.Proofs.Json.Building
import SemanticQuery.Proofs.Json.Layout

namespace SemanticQuery.Json

namespace Value

mutual

/-- The tree of a written value has no faults. -/
def tree : Value → Tree
  | .null => .null
  | .boolean value => .boolean value
  | .number value => .number value.numeral
  | .string value => .string (.ofText value)
  | .array items => .array (itemTrees items) none
  | .object members => .object (memberTrees members) none

/-- The trees of items come in their order. -/
def itemTrees : List Value → List Tree
  | [] => []
  | item :: rest => tree item :: itemTrees rest

/-- Every key comes with the tree of its value. -/
def memberTrees : List (String × Value) → List (Quoted × Tree)
  | [] => []
  | (key, item) :: rest => (.ofText key, tree item) :: memberTrees rest

end

mutual

/-- The tokens of a value build its tree. -/
theorem builds (value : Value) : Builds value.tokens value.tree := by
  match value with
  | .null => exact .single fun _ => rfl
  | .boolean _ => exact .single fun _ => rfl
  | .number _ => exact .single fun _ => rfl
  | .string _ => exact .single fun _ => rfl
  | .array [] => exact .emptyArray
  | .array (item :: items) => exact .array (buildsItems (item :: items) (List.cons_ne_nil _ _))
  | .object [] => exact .emptyObject
  | .object (member :: members) =>
      exact .object (buildsMembers (member :: members) (List.cons_ne_nil _ _))

theorem buildsItems (items : List Value) (some : items ≠ []) :
    BuildsItems (itemTokens items) (itemTrees items) := by
  match items with
  | [item] => exact .last item.builds
  | item :: next :: items =>
      exact .more item.builds (buildsItems (next :: items) (List.cons_ne_nil _ _))

theorem buildsMembers (members : List (String × Value)) (some : members ≠ []) :
    BuildsMembers (memberTokens members) (memberTrees members) := by
  match members with
  | [(_, item)] => exact .last item.builds
  | (_, item) :: next :: members =>
      exact .more item.builds (buildsMembers (next :: members) (List.cons_ne_nil _ _))

end

/-- Such a text has the tokens of the value. -/
def IsWrittenAs (value : Value) (text : String) : Prop := Token.scan text.toList = value.tokens

theorem isWrittenAs_of_spells {value : Value} {text : List Char}
    (spells : Token.Spells text value.tokens) : value.IsWrittenAs (String.ofList text) := by
  have scanned := spells [] endsNumber_nil
  rw [List.append_nil, Token.scan, List.append_nil] at scanned
  rw [IsWrittenAs, String.toList_ofList, scanned]

/-- The compact text and the pretty text have the tokens of the value. -/
theorem writes_compactText (value : Value) : value.IsWrittenAs value.compactText :=
  isWrittenAs_of_spells value.spells_compact

theorem writes_prettyText (value : Value) : value.IsWrittenAs value.prettyText :=
  isWrittenAs_of_spells (value.spells_pretty 0)

/-- A line break may follow a value. -/
theorem writes_line (value : Value) : value.IsWrittenAs (value.prettyText ++ "\n") := by
  have ends : EndsNumber ['\n'] := endsNumber_cons _ (by decide) (by decide)
  have scanned := value.spells_pretty 0 ['\n'] ends
  have blank : Token.scan ['\n'] = [] := by rw [Token.scan, if_pos (by decide), Token.scan]
  rw [blank, List.append_nil] at scanned
  rw [IsWrittenAs, String.toList_append, prettyText, String.toList_ofList]
  exact scanned

theorem isWrittenAs_compactText {value : Value} (_ : value.isExact = true) :
    value.IsWrittenAs value.compactText :=
  value.writes_compactText

theorem isWrittenAs_prettyText {value : Value} (_ : value.isExact = true) :
    value.IsWrittenAs value.prettyText :=
  value.writes_prettyText

theorem isWrittenAs_line {value : Value} (_ : value.isExact = true) :
    value.IsWrittenAs (value.prettyText ++ "\n") :=
  value.writes_line

/-- A text is read like the tree of the value that it is written as. -/
theorem IsWrittenAs.readText {value : Value} {text : String} (written : value.IsWrittenAs text)
    {α : Type} (reader : Tree → Except Fault α) :
    Json.readText reader text = reader value.tree := by
  rw [Json.readText, Tree.ofText, written, value.builds.ofTokens]
  exact bind_pure (reader value.tree)

end Value

end SemanticQuery.Json
