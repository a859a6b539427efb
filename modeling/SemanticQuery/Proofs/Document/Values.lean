/-
This file says what a document has where a text is written as the value of one of its conditions.
-/

import SemanticQuery.Proofs.Document.Edits
import SemanticQuery.Proofs.Json.Integer
import SemanticQuery.Proofs.Json.Record

namespace SemanticQuery.Document

open Json (FieldReader Parses Reader Tree)
open Json.Grammar (IsBlank Member Writes arrayText isBlank_nil objectText)

/-- One more condition stands at a place among the others. -/
def filterAt (document : Document) (place : Nat) (given : Condition) : Document :=
  { document with
    conditions := document.conditions.take place ++ given :: document.conditions.drop place }

/-- The condition has this value instead of its own. -/
def Condition.comparing (given : Condition) (value : Json.Value) : Condition :=
  { given with value := some value }

/-- The document has this value in the condition at a place. -/
def comparingAt (document : Document) (place : Nat) (value : Json.Value) : Document :=
  { document with conditions := document.conditions.modify place (·.comparing value) }

theorem comparingAt_filterAt {document : Document} {place : Nat}
    (inside : place ≤ document.conditions.length) (given : Condition) (value : Json.Value) :
    (document.filterAt place given).comparingAt place value =
      document.filterAt place (given.comparing value) := by
  have front : (document.conditions.take place).length = place := by
    rw [List.length_take, Nat.min_eq_left inside]
  rw [comparingAt, filterAt, filterAt, List.modify_eq_take_drop, List.take_left' front,
    List.drop_left' front]
  rfl

/-- The second text has this value in the condition at a place, where the first one has another
value. Everything else is the same. -/
inductive Revalues (place : Nat) (value : List Char) : String → String → Prop where
  | condition {conditions otherConditions given otherGiven : Member}
      {members others inside behind : List Member} {front back : List (List Char)}
      {start finish before after space otherSpace gap otherGap : List Char}
      (outer : IsBlank start ∧ IsBlank finish) (inner : IsBlank gap ∧ IsBlank otherGap)
      (blanks : ∀ text ∈ [before, after, space, otherSpace], IsBlank text)
      (items : ∀ item ∈ front ++ back, Writes .element item) (position : front.length = place)
      (listed : conditions.name = "conditions") (otherListed : otherConditions.name = "conditions")
      (named : given.name = "value") (otherNamed : otherGiven.name = "value")
      (list : conditions.value = before ++ arrayText (front ++
        (space ++ objectText [] (inside ++ given :: behind) ++ otherSpace) :: back) ++ after)
      (otherList : otherConditions.value = before ++ arrayText (front ++
        (space ++ objectText [] (inside ++ otherGiven :: behind) ++ otherSpace) :: back) ++ after)
      (written : otherGiven.value = gap ++ value ++ otherGap) :
      Revalues place value
        (String.ofList (start ++ objectText [] (members ++ conditions :: others) ++ finish))
        (String.ofList (start ++ objectText [] (members ++ otherConditions :: others) ++ finish))

/-- Wherever this text is written as the value of a condition, the document has this value there. -/
def IsConditionValue (written : List Char) (value : Json.Value) : Prop :=
  ∀ (place : Nat) (text other : String) (document : Document) (given : Condition),
    Revalues place written text other → place ≤ document.conditions.length →
      ofJson text = .ok (document.filterAt place given) →
        ofJson other = .ok (document.filterAt place (given.comparing value))

/-- A condition has the value that is read. -/
theorem Condition.changes_comparing {given other : Member} {tree : Tree} {value : Json.Value}
    (named : given.name = "value") (otherNamed : other.name = "value")
    (parses : Parses other.value tree) (present : tree ≠ .null) (read : rawValue 3 tree = .ok value)
    (inside behind : List Member) :
    Reader.Changes (Reader.record fields ⟨none, none, none, none⟩) (·.comparing value)
      (.object ((inside ++ given :: behind).map Member.tree) none)
      (.object ((inside ++ other :: behind).map Member.tree) none) := by
  refine Member.changes_record isLoose.commutes named otherNamed rfl (fun record => ?_) ?_ inside
    behind
  · intro next readNext
    obtain ⟨_, _, rfl⟩ := map_eq_ok_iff.1 readNext
    rw [Member.tree_eq parses]
    exact map_eq_ok_iff.2 ⟨some value, Reader.optional_of_ok present read, rfl⟩
  · simp [fields, FieldReader.ignores_of, FieldReader.key_of, comparing]

/-- A document has the value in the condition at the place of its object. -/
theorem changes_comparingAt {conditions other : Member} {tree changed : Tree} {value : Json.Value}
    {front back : List Tree} (named : conditions.name = "conditions")
    (otherNamed : other.name = "conditions")
    (changes : Reader.Changes (Reader.record Condition.fields ⟨none, none, none, none⟩)
      (·.comparing value) tree changed)
    (parses : Parses conditions.value (.array (front ++ tree :: back) none))
    (otherParses : Parses other.value (.array (front ++ changed :: back) none))
    (members others : List Member) :
    Reader.Changes reader (·.comparingAt front.length value)
      (.object ((members ++ conditions :: others).map Member.tree) none)
      (.object ((members ++ other :: others).map Member.tree) none) := by
  refine Member.changes_record isLoose.commutes named otherNamed rfl (fun record => ?_) ?_ members
    others
  · rw [Member.tree_eq parses, Member.tree_eq otherParses]
    refine Reader.changes_of (Reader.changes_listOrNull (Reader.changes_list changes front back))
      (fun conditions record => ?_) record
    rfl
  · simp [fields, FieldReader.ignores_of, FieldReader.key_of, comparingAt]

theorem isConditionValue {written : List Char} {value : Json.Value}
    (element : Writes .value written)
    (read : Json.readText (rawValue 3) (String.ofList written) = .ok value)
    (some : value ≠ .null) : IsConditionValue written value := by
  intro place text other document given revalues within accepted
  obtain @⟨conditions, otherConditions, given, otherGiven, members, others, inside, behind, front,
    back, start, finish, before, after, space, otherSpace, gap, otherGap, outer, inner, blanks,
    items, rfl, listed, otherListed, named, otherNamed, list, otherList, same⟩ := revalues
  obtain ⟨tree, parses, -⟩ := Json.isParsed element
  rw [parses.readText] at read
  have present : tree ≠ .null := by
    rintro rfl
    exact some (Except.ok.inj read).symm
  have valueParses : Parses otherGiven.value tree := same ▸ parses.element inner.1 inner.2
  have condition :=
    Condition.changes_comparing named otherNamed valueParses present read inside behind
  obtain ⟨frontTrees, backTrees, length, parsesList⟩ := Json.exists_parses_list blanks items
  have whole := changes_comparingAt listed otherListed condition
    (list ▸ parsesList isBlank_nil _) (otherList ▸ parsesList isBlank_nil _) members others
  have parsesText (members : List Member) :=
    (Json.parses_objectText isBlank_nil members).element outer.1 outer.2
  rw [ofJson_of_parses (parsesText _), mapError_eq_ok_iff] at accepted ⊢
  rw [← comparingAt_filterAt within, ← length]
  exact whole _ (length ▸ accepted)

/-- An element of an array that is the value of a condition is read as this value. -/
def IsItem (element : List Char) (item : Json.Value) : Prop :=
  Writes .element element ∧ Json.readText (rawValue 4) (String.ofList element) = .ok item

/-- Wherever this text is written in an array that is the value of a condition, the document has
this value there. -/
def IsItemValue (written : List Char) (item : Json.Value) : Prop :=
  ∀ (space otherSpace : List Char) (before after : List (List Char))
    (items otherItems : List Json.Value), IsBlank space → IsBlank otherSpace →
      List.Forall₂ IsItem before items → List.Forall₂ IsItem after otherItems →
        IsConditionValue (arrayText (before ++ (space ++ written ++ otherSpace) :: after))
          (.array (items ++ item :: otherItems))

theorem IsItem.exists_parses {elements : List (List Char)} {items : List Json.Value}
    (reads : List.Forall₂ IsItem elements items) :
    ∃ trees, List.Forall₂ Parses elements trees ∧ Tree.valueItems 123 trees = .ok items := by
  induction reads with
  | nil => exact ⟨[], .nil, rfl⟩
  | cons read _ inductionHypothesis =>
      obtain ⟨tree, parses, -⟩ := Json.isParsed read.1
      obtain ⟨trees, parsesRest, later⟩ := inductionHypothesis
      have first : Tree.value 123 tree = _ := parses.readText.symm.trans read.2
      refine ⟨tree :: trees, .cons parses parsesRest, ?_⟩
      rw [Tree.valueItems, first, later]
      rfl

/-- An array has the values of its elements. -/
theorem isConditionValue_array {elements : List (List Char)} {items : List Json.Value}
    (some : elements ≠ []) (reads : List.Forall₂ IsItem elements items) :
    IsConditionValue (arrayText elements) (.array items) := by
  obtain ⟨trees, parses, read⟩ := IsItem.exists_parses reads
  unfold IsItem at reads
  have written := ((List.forall₂_and_left _ _).1 reads).1
  have present : Json.Value.array items ≠ .null := nofun
  refine isConditionValue (Json.Grammar.writes_arrayText some written) ?_ present
  rw [(Json.parses_arrayText some parses).readText]
  change Tree.value 124 _ = _
  rw [Tree.value, read]
  rfl

theorem isItemValue {written : List Char} {item : Json.Value} (value : Writes .value written)
    (read : Json.readText (rawValue 4) (String.ofList written) = .ok item) :
    IsItemValue written item := by
  intro space otherSpace before after items otherItems front back reads otherReads
  obtain ⟨tree, parses, -⟩ := Json.isParsed value
  have element : IsItem (space ++ written ++ otherSpace) item := by
    refine ⟨.element front value back, ?_⟩
    rw [(parses.element front back).readText, ← read, parses.readText]
  exact isConditionValue_array (by simp) (List.rel_append reads (.cons element otherReads))

end SemanticQuery.Document
