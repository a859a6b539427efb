/-
This file shows that every text of the grammar has a tree, and that the tree of such a text can be
skipped.
-/

import SemanticQuery.Json.Value
import SemanticQuery.Proofs.Json.Building
import SemanticQuery.Proofs.Json.Scanning

namespace SemanticQuery.Json

open Grammar (IsBlank Phrase Writes)
open Token (Spells)

/-- A text has a tree when its tokens build that tree. -/
def Parses (text : List Char) (tree : Tree) : Prop :=
  ∃ tokens, Spells text tokens ∧ Builds tokens tree

/-- A text has these trees as its items, one or more. -/
def ParsesItems (text : List Char) (trees : List Tree) : Prop :=
  ∃ tokens, Spells text tokens ∧ BuildsItems tokens trees

/-- A text has this key and the tree of its value. -/
def ParsesMember (text : List Char) (member : Quoted × Tree) : Prop :=
  ∃ tokens, Spells text (.string member.1 :: .colon :: tokens) ∧ Builds tokens member.2

/-- A text has these keys with the trees of their values, one or more. -/
def ParsesMembers (text : List Char) (members : List (Quoted × Tree)) : Prop :=
  ∃ tokens, Spells text tokens ∧ BuildsMembers tokens members

section Parts

variable {text before after rest blank key : List Char} {tree : Tree} {trees : List Tree}
  {quoted : Quoted} {member : Quoted × Tree} {members : List (Quoted × Tree)}

namespace Parses

/-- A text with a single token has the tree of this token. -/
theorem single {token : Token} (spells : Spells text [token])
    (taken : ∀ frames, Tree.State.takeValue frames token = Tree.complete tree frames) :
    Parses text tree :=
  ⟨_, spells, .single taken⟩

theorem emptyArray (blanks : IsBlank blank) :
    Parses ('[' :: (blank ++ [']'])) (.array [] none) := by
  have blank : Spells blank [] := by simpa using Spells.nil.blank blanks
  exact ⟨_, blank.brackets, .emptyArray⟩

theorem emptyObject (blanks : IsBlank blank) :
    Parses ('{' :: (blank ++ ['}'])) (.object [] none) := by
  have blank : Spells blank [] := by simpa using Spells.nil.blank blanks
  exact ⟨_, blank.braces, .emptyObject⟩

theorem array (items : ParsesItems text trees) :
    Parses ('[' :: (text ++ [']'])) (.array trees none) := by
  obtain ⟨tokens, spells, builds⟩ := items
  exact ⟨_, spells.brackets, .array builds⟩

theorem object (inside : ParsesMembers text members) :
    Parses ('{' :: (text ++ ['}'])) (.object members none) := by
  obtain ⟨tokens, spells, builds⟩ := inside
  exact ⟨_, spells.braces, .object builds⟩

theorem element (front : IsBlank before) (value : Parses text tree) (back : IsBlank after) :
    Parses (before ++ text ++ after) tree := by
  obtain ⟨tokens, spells, builds⟩ := value
  exact ⟨tokens, (spells.blank front).append_blank back, builds⟩

/-- The tree of a text is the only one, and nothing follows it. -/
theorem ofText (parses : Parses text tree) :
    Tree.ofText (String.ofList text) = (tree, false) := by
  obtain ⟨tokens, spells, builds⟩ := parses
  have scanned := spells [] endsNumber_nil
  rw [List.append_nil, Token.scan, List.append_nil] at scanned
  rw [Tree.ofText, String.toList_ofList, scanned, builds.ofTokens]

/-- A text with one tree is read from this tree. -/
theorem readText {α : Type} {reader : Tree → Except Fault α} (parses : Parses text tree) :
    Json.readText reader (String.ofList text) = reader tree := by
  rw [Json.readText, parses.ofText]
  exact bind_pure (reader tree)

end Parses

namespace ParsesItems

theorem last (item : Parses text tree) : ParsesItems text [tree] := by
  obtain ⟨tokens, spells, builds⟩ := item
  exact ⟨tokens, spells, .last builds⟩

theorem more (item : Parses text tree) (items : ParsesItems rest trees) :
    ParsesItems (text ++ ',' :: rest) (tree :: trees) := by
  obtain ⟨_, spells, builds⟩ := item
  obtain ⟨_, spellsRest, buildsRest⟩ := items
  exact ⟨_, spells.comma spellsRest, .more builds buildsRest⟩

end ParsesItems

theorem ParsesMember.colon (front : IsBlank before) (name : Spells key [.string quoted])
    (back : IsBlank after) (value : Parses text tree) :
    ParsesMember (before ++ key ++ after ++ ':' :: text) (quoted, tree) := by
  obtain ⟨tokens, spells, builds⟩ := value
  exact ⟨tokens, ((name.blank front).append_blank back).colon spells, builds⟩

namespace ParsesMembers

theorem last (parses : ParsesMember text member) : ParsesMembers text [member] := by
  obtain ⟨_, spells, builds⟩ := parses
  exact ⟨_, spells, .last builds⟩

theorem more (parses : ParsesMember text member) (inside : ParsesMembers rest members) :
    ParsesMembers (text ++ ',' :: rest) (member :: members) := by
  obtain ⟨_, spells, builds⟩ := parses
  obtain ⟨_, spellsRest, buildsRest⟩ := inside
  exact ⟨_, spells.comma spellsRest, .more builds buildsRest⟩

end ParsesMembers

end Parts

/-- Each phrase of the grammar has its trees, and they can be skipped. -/
def IsParsed : Phrase → List Char → Prop
  | .value, text => ∃ tree, Parses text tree ∧ tree.skim = .ok ()
  | .object, text => ∃ tree, Parses text tree ∧ tree.skim = .ok ()
  | .element, text => ∃ tree, Parses text tree ∧ tree.skim = .ok ()
  | .elements, text => ∃ trees, ParsesItems text trees ∧ Tree.skimItems trees = .ok ()
  | .member, text => ∃ member, ParsesMember text member ∧
      requireEnd member.1.ending = .ok () ∧ member.2.skim = .ok ()
  | .members, text => ∃ members, ParsesMembers text members ∧ Tree.skimMembers members = .ok ()

/-- Whatever the grammar writes is parsed, by induction on how it is written. -/
theorem isParsed {phrase : Phrase} {text : List Char} (writes : Writes phrase text) :
    IsParsed phrase text := by
  induction writes with
  | null => exact ⟨.null, .single .null fun _ => rfl, rfl⟩
  | true => exact ⟨.boolean true, .single (.boolean true) fun _ => rfl, rfl⟩
  | false => exact ⟨.boolean false, .single (.boolean false) fun _ => rfl, rfl⟩
  | number number =>
      obtain ⟨numeral, spells⟩ := Spells.isNumber number
      exact ⟨.number numeral, .single spells fun _ => rfl, rfl⟩
  | string string =>
      obtain ⟨pieces, spells⟩ := Spells.isString string
      exact ⟨.string ⟨pieces, none⟩, .single spells fun _ => rfl, rfl⟩
  | emptyArray blanks => exact ⟨_, .emptyArray blanks, rfl⟩
  | array _ inductionHypothesis =>
      obtain ⟨trees, items, skipped⟩ := inductionHypothesis
      exact ⟨_, .array items, by rw [Tree.skim, skipped]; rfl⟩
  | nested _ inductionHypothesis => exact inductionHypothesis
  | emptyObject blanks => exact ⟨_, .emptyObject blanks, rfl⟩
  | object _ inductionHypothesis =>
      obtain ⟨members, inside, skipped⟩ := inductionHypothesis
      exact ⟨_, .object inside, by rw [Tree.skim, skipped]; rfl⟩
  | element front _ back inductionHypothesis =>
      obtain ⟨tree, value, skipped⟩ := inductionHypothesis
      exact ⟨tree, value.element front back, skipped⟩
  | lastElement _ inductionHypothesis =>
      obtain ⟨tree, item, skipped⟩ := inductionHypothesis
      exact ⟨_, .last item, by rw [Tree.skimItems, skipped]; rfl⟩
  | moreElements _ _ first later =>
      obtain ⟨tree, item, skipped⟩ := first
      obtain ⟨trees, items, skippedLater⟩ := later
      exact ⟨_, .more item items, by rw [Tree.skimItems, skipped, skippedLater]; rfl⟩
  | member front name back _ inductionHypothesis =>
      obtain ⟨tree, value, skipped⟩ := inductionHypothesis
      obtain ⟨pieces, key⟩ := Spells.isString name
      exact ⟨_, .colon front key back value, rfl, skipped⟩
  | lastMember _ inductionHypothesis =>
      obtain ⟨member, parses, named, skipped⟩ := inductionHypothesis
      exact ⟨_, .last parses, by rw [Tree.skimMembers, named, skipped]; rfl⟩
  | moreMembers _ _ first later =>
      obtain ⟨member, parses, named, skipped⟩ := first
      obtain ⟨members, inside, skippedLater⟩ := later
      exact ⟨_, .more parses inside, by rw [Tree.skimMembers, named, skipped, skippedLater]; rfl⟩

end SemanticQuery.Json
