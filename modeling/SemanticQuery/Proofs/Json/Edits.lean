/-
This file says how the members of an object may be edited as text, and shows that a loose record is
read from the edited object as well.
-/

import SemanticQuery.Proofs.Json.Members
import SemanticQuery.Proofs.Json.Parsing

namespace SemanticQuery.Json

namespace Grammar

/-- A key and a value may have blanks around them. -/
def memberText (before content after value : List Char) : List Char :=
  before ++ '"' :: (content ++ ['"']) ++ after ++ ':' :: value

/-- The contents of the key of a member denote its name. -/
structure Member where
  before : List Char
  content : List Char
  after : List Char
  value : List Char
  name : String
  front : IsBlank before
  denotes : Denotes content name.toList
  back : IsBlank after
  written : Writes .element value

namespace Member

def text (member : Member) : List Char :=
  memberText member.before member.content member.after member.value

/-- The key of such a member needs no escapes, and there are no blanks around it. -/
def plain (name : String) (plain : name.toList.all isPlain = true) (value : List Char)
    (written : Writes .element value) : Member where
  before := []
  content := name.toList
  after := []
  value := value
  name := name
  front := isBlank_nil
  denotes := .of_plain plain
  back := isBlank_nil
  written := written

theorem writes (member : Member) : Writes .member member.text :=
  .member member.front (.quoted member.denotes.isContent) member.back member.written

/-- The value null may have blanks around it, too. -/
def IsNull (member : Member) : Prop :=
  ∃ before after, IsBlank before ∧ IsBlank after ∧
    member.value = before ++ ['n', 'u', 'l', 'l'] ++ after

end Member

/-- Commas stand between the members of an object. An object without members has blanks only. -/
def objectText (blank : List Char) : List Member → List Char
  | [] => '{' :: (blank ++ ['}'])
  | member :: members =>
      '{' :: (List.intercalate [','] ((member :: members).map Member.text) ++ ['}'])

/-- Commas stand between the items of an array, of which there is at least one. -/
def arrayText (items : List (List Char)) : List Char :=
  '[' :: (List.intercalate [','] items ++ [']'])

/-- An object is an object of the grammar whatever members it has. -/
theorem isObject_objectText {blank : List Char} (blanks : IsBlank blank) (members : List Member) :
    IsObject (objectText blank members) := by
  have inside (member : Member) (members : List Member) : Writes .members
      (List.intercalate [','] ((member :: members).map Member.text)) := by
    induction members generalizing member with
    | nil => simpa using Writes.lastMember member.writes
    | cons next members inductionHypothesis =>
        have more := Writes.moreMembers member.writes (inductionHypothesis next)
        simpa [List.intercalate_cons_cons] using more
  cases members with
  | nil => exact .emptyObject blanks
  | cons member members => exact .object (inside member members)

/-- An array is an array of the grammar if its items are elements. -/
theorem writes_arrayText {items : List (List Char)} (some : items ≠ [])
    (written : ∀ item ∈ items, Writes .element item) : Writes .value (arrayText items) := by
  have inside : Writes .elements (List.intercalate [','] items) := by
    induction items with
    | nil => exact absurd rfl some
    | cons item items inductionHypothesis =>
        obtain ⟨first, later⟩ := List.forall_mem_cons.1 written
        cases items with
        | nil => simpa using Writes.lastElement first
        | cons next items =>
            have inside := inductionHypothesis (List.cons_ne_nil _ _) later
            have more := Writes.moreElements first inside
            simpa [List.intercalate_cons_cons] using more
  exact .array inside

/-- A text in quotes is an element. -/
theorem writes_quoted (content : List Char) (plain : content.all isPlain = true) :
    Writes .element ('"' :: (content ++ ['"'])) :=
  writes_element (.string (.quoted (isContent_of_plain plain)))

/-- These are the edits of an object for which some keys are known. Members with other keys may have
any value, and one with a known key may be null. New members are put in front of the others, but
from there they may go anywhere. -/
inductive Edits (known : List String) : List Member → List Member → Prop where
  | permute {members others : List Member} (permuted : members.Perm others) :
      Edits known members others
  | addUnknown {member : Member} {members : List Member} (unknown : member.name ∉ known) :
      Edits known members (member :: members)
  | removeUnknown {member : Member} {members : List Member} (unknown : member.name ∉ known) :
      Edits known (member :: members) members
  | addNull {member : Member} {members : List Member} (isKnown : member.name ∈ known)
      (absent : ∀ other ∈ members, other.name ≠ member.name) (null : member.IsNull) :
      Edits known members (member :: members)
  | removeNull {member : Member} {members : List Member} (isKnown : member.name ∈ known)
      (null : member.IsNull) : Edits known (member :: members) members

end Grammar

open Grammar

namespace Grammar.Member

/-- A member has the key that its contents are scanned as, and the tree of its value. -/
def tree (member : Member) : Quoted × Tree :=
  ((Quoted.scan (member.content ++ ['"'])).1, (Tree.ofText (String.ofList member.value)).1)

variable (member : Member)

/-- The key of a member is read as its name. -/
theorem text_key : member.tree.1.text = .ok member.name :=
  (Denotes.iff_text member.denotes.isContent).1 member.denotes

theorem parses_value : Parses member.value member.tree.2 ∧ member.tree.2.skim = .ok () := by
  obtain ⟨tree, parses, skipped⟩ := isParsed member.written
  have same : member.tree.2 = tree := congrArg Prod.fst parses.ofText
  rw [same]
  exact ⟨parses, skipped⟩

theorem tree_eq {member : Member} {tree : Tree} (parses : Parses member.value tree) :
    member.tree = (member.tree.1, tree) :=
  congrArg (Prod.mk member.tree.1) (congrArg Prod.fst parses.ofText)

theorem tree_eq_null {member : Member} (null : member.IsNull) :
    member.tree = (member.tree.1, .null) := by
  obtain ⟨before, after, front, back, same⟩ := null
  have parses : Parses ['n', 'u', 'l', 'l'] .null := .single .null fun _ => rfl
  exact tree_eq (same ▸ parses.element front back)

theorem parses : ParsesMember member.text member.tree :=
  .colon member.front (.key member.denotes.isContent) member.back member.parses_value.1

end Grammar.Member

/-- The members of an object have their trees, one after the other. -/
theorem parses_members {texts : List (List Char)} {trees : List (Quoted × Tree)}
    (some : texts ≠ []) (parses : List.Forall₂ ParsesMember texts trees) :
    ParsesMembers (List.intercalate [','] texts) trees := by
  induction parses with
  | nil => exact absurd rfl some
  | @cons text tree texts trees first later inductionHypothesis =>
      cases later with
      | nil => simpa using ParsesMembers.last first
      | cons next later =>
          have more := ParsesMembers.more first (inductionHypothesis (List.cons_ne_nil _ _))
          simpa [List.intercalate_cons_cons] using more

theorem forall₂_parses (members : List Member) :
    List.Forall₂ ParsesMember (members.map Member.text) (members.map Member.tree) :=
  List.forall₂_map_left_iff.2 (List.forall₂_map_right_iff.2
    (List.forall₂_same.2 fun member _ => member.parses))

theorem parses_objectText {blank : List Char} (blanks : IsBlank blank) (members : List Member) :
    Parses (objectText blank members) (.object (members.map Member.tree) none) := by
  cases members with
  | nil => exact .emptyObject blanks
  | cons member members =>
      exact .object (parses_members (List.cons_ne_nil _ _) (forall₂_parses (member :: members)))

/-- So do the items of an array. -/
theorem parses_items {items : List (List Char)} {trees : List Tree} (some : items ≠ [])
    (parses : List.Forall₂ Parses items trees) :
    ParsesItems (List.intercalate [','] items) trees := by
  induction parses with
  | nil => exact absurd rfl some
  | @cons item tree items trees first later inductionHypothesis =>
      cases later with
      | nil => simpa using ParsesItems.last first
      | cons next later =>
          have more := ParsesItems.more first (inductionHypothesis (List.cons_ne_nil _ _))
          simpa [List.intercalate_cons_cons] using more

theorem parses_arrayText {items : List (List Char)} {trees : List Tree} (some : items ≠ [])
    (parses : List.Forall₂ Parses items trees) : Parses (arrayText items) (.array trees none) :=
  .array (parses_items some parses)

theorem exists_parses_items {items : List (List Char)}
    (written : ∀ item ∈ items, Writes .element item) :
    ∃ trees, List.Forall₂ Parses items trees := by
  induction items with
  | nil => exact ⟨[], .nil⟩
  | cons item items inductionHypothesis =>
      obtain ⟨first, later⟩ := List.forall_mem_cons.1 written
      obtain ⟨tree, parses, _⟩ := isParsed first
      obtain ⟨trees, rest⟩ := inductionHypothesis later
      exact ⟨tree :: trees, .cons parses rest⟩

/-- An object in an array may be any other object while the other items have the same trees. -/
theorem exists_parses_list {before after space otherSpace : List Char}
    {front back : List (List Char)}
    (blanks : ∀ text ∈ [before, after, space, otherSpace], IsBlank text)
    (items : ∀ item ∈ front ++ back, Writes .element item) :
    ∃ frontTrees backTrees, frontTrees.length = front.length ∧
      ∀ {blank}, IsBlank blank → ∀ members, Parses (before ++
        arrayText (front ++ (space ++ objectText blank members ++ otherSpace) :: back) ++ after)
        (.array (frontTrees ++ .object (members.map Member.tree) none :: backTrees) none) := by
  simp only [List.forall_mem_cons] at blanks
  obtain ⟨beforeBlank, afterBlank, spaceBlank, otherSpaceBlank, -⟩ := blanks
  obtain ⟨itemsFront, itemsBack⟩ := List.forall_mem_append.1 items
  obtain ⟨frontTrees, frontParses⟩ := exists_parses_items itemsFront
  obtain ⟨backTrees, backParses⟩ := exists_parses_items itemsBack
  refine ⟨frontTrees, backTrees, frontParses.length_eq.symm, fun blank members => ?_⟩
  have item := (parses_objectText blank members).element spaceBlank otherSpaceBlank
  have items := List.rel_append frontParses (List.Forall₂.cons item backParses)
  exact (parses_arrayText (by simp) items).element beforeBlank afterBlank

/-- A record changes when one of its members does, wherever the member stands. -/
theorem Grammar.Member.changes_record {ρ : Type} {fields : List (FieldReader ρ)} {empty : ρ}
    {field : FieldReader ρ} {set : ρ → ρ} {name : String} {member other : Member}
    (commutes : fields.Pairwise FieldReader.Commutes)
    (named : member.name = name) (otherNamed : other.name = name)
    (found : fields.find? (·.key = name) = some field)
    (changes : ∀ record, Reader.Changes (field.read · record) set member.tree.2 other.tree.2)
    (ignores : ∀ field ∈ fields, field.key ≠ name → field.Ignores set)
    (front back : List Member) :
    Reader.Changes (Reader.record fields empty) set
      (.object ((front ++ member :: back).map Member.tree) none)
      (.object ((front ++ other :: back).map Member.tree) none) := by
  refine Reader.changes_record fun result read => ?_
  have first := Reader.members_perm commutes (List.perm_middle.map _) read
  have changed := Reader.members_cons_changes (named ▸ member.text_key)
    (otherNamed ▸ other.text_key) found changes ignores first
  exact Reader.members_perm commutes (List.perm_middle.symm.map _) changed

/-- An edited object is read as the same record. -/
theorem Grammar.Edits.follows {ρ : Type} {fields : List (FieldReader ρ)} {empty : ρ}
    (loose : IsLoose fields empty) {members others : List Member}
    (edits : Edits (fields.map (·.key)) members others) :
    Reader.Follows (Reader.record fields empty) (.object (members.map Member.tree) none)
      (.object (others.map Member.tree) none) := by
  refine Reader.changes_record fun result read => ?_
  cases edits with
  | permute permuted => exact Reader.members_perm loose.commutes (permuted.map _) read
  | @addUnknown member _ unknown =>
      exact (Reader.members_cons_unknown_iff member.text_key unknown member.parses_value.2).2 read
  | @removeUnknown member _ unknown =>
      exact (Reader.members_cons_unknown_iff member.text_key unknown member.parses_value.2).1 read
  | @addNull member _ isKnown absent null =>
      rw [List.map_cons, Member.tree_eq_null null]
      refine Reader.members_cons_null loose member.text_key isKnown ?_ read
      refine List.forall_mem_map.2 fun other inside same => ?_
      rw [other.text_key] at same
      exact absent other inside (Except.ok.inj same)
  | @removeNull member _ isKnown null =>
      rw [List.map_cons, Member.tree_eq_null null] at read
      exact Reader.members_of_cons_null loose member.text_key isKnown read

end SemanticQuery.Json
