/-
This file shows which edits of a text leave its document as it is. The order of the fields does not
matter, nor does it matter whether a field is null or missing, or which unknown fields there are.
Only a key that denotes no text is refused.
-/

import Mathlib.Data.List.Forall2
import Mathlib.Logic.Relation
import SemanticQuery.Document.Reader
import SemanticQuery.Proofs.Json.Edits

namespace SemanticQuery.Document

open Json (FieldReader IsLoose Parses Reader Tree)
open Json.Grammar (Denotes Edits IsBlank IsContent Member Writes arrayText memberText objectText)

/-- These lists of a document hold records, whose keys are known. -/
def recordKeys : List (String × List String) := [
  ("conditions", Condition.fields.map (·.key)),
  ("aggregations", Aggregation.fields.map (·.key)),
  ("joins", Join.fields.map (·.key)),
  ("order_by", OrderTerm.fields.map (·.key))]

/-- An edit of the members of a document is one of these members themselves or one of the members of
a record in a list. The list may have any other items. -/
inductive EditsMembers : List Member → List Member → Prop where
  | fields {members others : List Member} (edits : Edits (fields.map (·.key)) members others) :
      EditsMembers members others
  | record {member other : Member} {members inside changed : List Member} {keys : List String}
      {before after space otherSpace blank otherBlank : List Char} {front back : List (List Char)}
      (listed : (member.name, keys) ∈ recordKeys) (name : other.name = member.name)
      (blanks : ∀ text ∈ [before, after, space, otherSpace, blank, otherBlank], IsBlank text)
      (items : ∀ item ∈ front ++ back, Writes .element item)
      (value : member.value = before ++
        arrayText (front ++ (space ++ objectText blank inside ++ otherSpace) :: back) ++ after)
      (otherValue : other.value = before ++
        arrayText (front ++ (space ++ objectText otherBlank changed ++ otherSpace) :: back) ++
          after)
      (edits : Edits keys inside changed) : EditsMembers (member :: members) (other :: members)

/-- One edit changes the members of the document. Blanks may stand around it. -/
inductive IsEdit : String → String → Prop where
  | object {before after blank otherBlank : List Char} {members others : List Member}
      (blanks : ∀ text ∈ [before, after, blank, otherBlank], IsBlank text)
      (edits : EditsMembers members others) :
      IsEdit (String.ofList (before ++ objectText blank members ++ after))
        (String.ofList (before ++ objectText otherBlank others ++ after))

section Fields

theorem Condition.isLoose : IsLoose Condition.fields ⟨none, none, none, none⟩ where
  commutes := by simp [Condition.fields, FieldReader.commutes_of]
  null := by simp [Condition.fields, FieldReader.of, Reader.optional, Except.map]

theorem Aggregation.isLoose : IsLoose Aggregation.fields ⟨none, none, none⟩ where
  commutes := by simp [Aggregation.fields, FieldReader.commutes_of]
  null := by simp [Aggregation.fields, FieldReader.of, Reader.optional, Except.map]

theorem Join.isLoose : IsLoose Join.fields ⟨none, none, none, none⟩ where
  commutes := by simp [Join.fields, FieldReader.commutes_of]
  null := by simp [Join.fields, FieldReader.of, Reader.optional, Except.map]

theorem OrderTerm.isLoose : IsLoose OrderTerm.fields ⟨none, none⟩ where
  commutes := by simp [OrderTerm.fields, FieldReader.commutes_of]
  null := by simp [OrderTerm.fields, FieldReader.of, Reader.optional, Except.map]

theorem isLoose : IsLoose fields empty where
  commutes := by simp [fields, FieldReader.commutes_of]
  null := by simp [fields, FieldReader.of, Reader.optional, Reader.listOrNull, Except.map, empty]

end Fields

/-- A list of records is read from the edited list as well. -/
theorem exists_follows {name : String} {keys : List String}
    (listed : (name, keys) ∈ recordKeys) {inside changed : List Member}
    (edits : Edits keys inside changed) (front back : List Tree) :
    ∃ field, fields.find? (·.key = name) = some field ∧ ∀ record,
      Reader.Follows (field.read · record)
        (.array (front ++ .object (inside.map Member.tree) none :: back) none)
        (.array (front ++ .object (changed.map Member.tree) none :: back) none) := by
  simp only [recordKeys, List.mem_cons, Prod.mk.injEq, List.not_mem_nil, or_false] at listed
  rcases listed with ⟨rfl, rfl⟩ | ⟨rfl, rfl⟩ | ⟨rfl, rfl⟩ | ⟨rfl, rfl⟩
  · exact ⟨_, rfl, Reader.follows_of (Reader.changes_listOrNull
      (Reader.follows_list (edits.follows Condition.isLoose) front back))⟩
  · exact ⟨_, rfl, Reader.follows_of (Reader.changes_listOrNull
      (Reader.follows_list (edits.follows Aggregation.isLoose) front back))⟩
  · exact ⟨_, rfl, Reader.follows_of (Reader.changes_listOrNull
      (Reader.follows_list (edits.follows Join.isLoose) front back))⟩
  · exact ⟨_, rfl, Reader.follows_of (Reader.follows_optional
      (Reader.follows_list (edits.follows OrderTerm.isLoose) front back))⟩

/-- An edited document is read as the same document. -/
theorem EditsMembers.follows {members others : List Member} (edits : EditsMembers members others) :
    Reader.Follows reader (.object (members.map Member.tree) none)
      (.object (others.map Member.tree) none) := by
  cases edits with
  | fields edits => exact edits.follows isLoose
  | @record member other members inside changed keys before after space otherSpace blank otherBlank
      front back listed name blanks items value otherValue edits =>
      simp only [List.forall_mem_cons] at blanks
      obtain ⟨beforeBlank, afterBlank, spaceBlank, otherSpaceBlank, blank, otherBlank, -⟩ := blanks
      have around : ∀ text ∈ [before, after, space, otherSpace], IsBlank text := by
        simp [beforeBlank, afterBlank, spaceBlank, otherSpaceBlank]
      obtain ⟨frontTrees, backTrees, -, parses⟩ := Json.exists_parses_list around items
      obtain ⟨field, found, follows⟩ := exists_follows listed edits frontTrees backTrees
      have tree := Member.tree_eq (value ▸ parses blank inside)
      have otherTree := Member.tree_eq (otherValue ▸ parses otherBlank changed)
      rw [List.map_cons, List.map_cons, tree, otherTree]
      exact Reader.changes_record fun result read =>
        Reader.members_cons_follows member.text_key (name ▸ other.text_key) found follows read

theorem ofJson_of_parses {text : List Char} {tree : Tree} (parses : Parses text tree) :
    ofJson (String.ofList text) = (reader tree).mapError .invalid := by
  rw [ofJson, parses.readText]

/-- A text is refused if one of its members has a key that denotes nothing, whichever it is. -/
theorem ofJson_ne_ok {before content after value : List Char} (front : IsBlank before)
    (inside : IsContent content) (silent : ∀ name, ¬Denotes content name) (back : IsBlank after)
    (written : Writes .element value) (members others : List Member) (document : Document) :
    ofJson (String.ofList ('{' :: (List.intercalate [','] (members.map Member.text ++
      memberText before content after value :: others.map Member.text) ++ ['}']))) ≠
        .ok document := by
  obtain ⟨tree, parses, -⟩ := Json.isParsed written
  have member : Json.ParsesMember (memberText before content after value)
      ((Json.Quoted.scan (content ++ ['"'])).1, tree) := .colon front (.key inside) back parses
  have whole := Parses.object (Json.parses_members (by simp)
    (List.rel_append (Json.forall₂_parses members) (.cons member (Json.forall₂_parses others))))
  intro accepted
  rw [ofJson_of_parses whole, mapError_eq_ok_iff] at accepted
  obtain ⟨result, read, -⟩ := bind_eq_ok_iff.1 accepted
  have unread (name : String) : (Json.Quoted.scan (content ++ ['"'])).1.text ≠ .ok name :=
    fun named => silent _ ((Denotes.iff_text inside).2 named)
  exact Reader.members_ne_ok (List.mem_append_right _ List.mem_cons_self) unread read

theorem ofJson_of_isEdit {text other : String} {document : Document}
    (accepted : ofJson text = .ok document) (edit : IsEdit text other) :
    ofJson other = .ok document := by
  obtain ⟨blanks, edits⟩ := edit
  simp only [List.forall_mem_cons] at blanks
  obtain ⟨front, back, blank, otherBlank, -⟩ := blanks
  rw [ofJson_of_parses ((Json.parses_objectText blank _).element front back)] at accepted
  rw [ofJson_of_parses ((Json.parses_objectText otherBlank _).element front back)]
  rw [mapError_eq_ok_iff] at accepted ⊢
  exact edits.follows document accepted

/-- A text with any number of edits is accepted and has the same document. -/
theorem ofJson_of_edits {text other : String} {document : Document}
    (accepted : ofJson text = .ok document) (edits : Relation.ReflTransGen IsEdit text other) :
    ofJson other = .ok document := by
  induction edits with
  | refl => exact accepted
  | tail _ edit inductionHypothesis => exact ofJson_of_isEdit inductionHypothesis edit

def tablesMember : Member :=
  .plain "tables" (by decide) (arrayText [['"', 't', '"']])
    (Json.Grammar.writes_element (Json.Grammar.writes_arrayText (List.cons_ne_nil _ _)
      (List.forall_mem_singleton.2 (Json.Grammar.writes_quoted ['t'] (by decide)))))

def columnMember : Member :=
  .plain "column" (by decide) ['"', 'a', '"'] (Json.Grammar.writes_quoted ['a'] (by decide))

/-- The key of this member is escaped, and its value is null. -/
def nullMember : Member where
  before := []
  content := ['\\', 'u', '0', '0', '7', '6', 'a', 'l', 'u', 'e']
  after := [' ']
  value := ['n', 'u', 'l', 'l']
  name := "value"
  front := by decide
  denotes := by
    have first : Json.Quoted.unit? '0' '0' '7' '6' = some 'v'.toNat := by decide
    exact .unit first (by decide) (by decide) (.of_plain (by decide))
  back := by decide
  written := Json.Grammar.writes_element .null

/-- The conditions of this member are a single one. -/
def conditionsMember (inside : List Member) : Member :=
  .plain "conditions" (by decide) (arrayText [objectText [] inside])
    (Json.Grammar.writes_element (Json.Grammar.writes_arrayText (List.cons_ne_nil _ _)
      (List.forall_mem_singleton.2 (Json.Grammar.writes_element
        (.nested (Json.Grammar.isObject_objectText (by decide) inside))))))

/-- The value of this member is skipped. -/
def unknownMember : Member :=
  .plain "note" (by decide) (objectText [' '] [])
    (Json.Grammar.writes_element (.nested (Json.Grammar.isObject_objectText (by decide) [])))

/-- This document names a table and has one condition. -/
def small : Document :=
  { empty with
    tables := ["t"]
    conditions := [⟨some "a", none, none, none⟩] }

def smallText : String :=
  "\x7b\"tables\":[\"t\"],\"conditions\":[\x7b\"column\":\"a\"\x7d]\x7d"

/-- The members are exchanged, the condition has a value that is null, and a note is added. -/
def editedText : String :=
  "\x7b\"note\":\x7b \x7d,\"conditions\":[\x7b\"\\u0076alue\" :null,\"column\":\"a\"\x7d]," ++
    "\"tables\":[\"t\"]\x7d"

/-- Both texts are accepted and have the same document. -/
theorem ofJson_of_edits_small :
    ofJson smallText = .ok small ∧ ofJson editedText = .ok small := by
  have accepted : ofJson smallText = .ok small := by decide +kernel
  have exchanged : EditsMembers [tablesMember, conditionsMember [columnMember]]
      [conditionsMember [columnMember], tablesMember] := .fields (.permute (.swap ..))
  have value (inside : List Member) : (conditionsMember inside).value =
      [] ++ arrayText ([] ++ ([] ++ objectText [] inside ++ []) :: []) ++ [] := by
    simp [conditionsMember, Member.plain]
  have given : Edits (Condition.fields.map (·.key)) [columnMember] [nullMember, columnMember] :=
    .addNull (by decide) (by decide) ⟨[], [], by decide, by decide, rfl⟩
  have filled : EditsMembers [conditionsMember [columnMember], tablesMember]
      [conditionsMember [nullMember, columnMember], tablesMember] :=
    .record List.mem_cons_self rfl (by decide) (List.forall_mem_nil _) (value _) (value _) given
  have noted : EditsMembers [conditionsMember [nullMember, columnMember], tablesMember]
      [unknownMember, conditionsMember [nullMember, columnMember], tablesMember] :=
    .fields (.addUnknown (by decide))
  have edit {members others : List Member} (edits : EditsMembers members others) :
      IsEdit (String.ofList ([] ++ objectText [] members ++ []))
        (String.ofList ([] ++ objectText [] others ++ [])) := .object (by decide) edits
  have start : smallText = String.ofList ([] ++
      objectText [] [tablesMember, conditionsMember [columnMember]] ++ []) := by decide +kernel
  have final : editedText = String.ofList ([] ++ objectText []
      [unknownMember, conditionsMember [nullMember, columnMember], tablesMember] ++ []) := by
    decide +kernel
  have edits : Relation.ReflTransGen IsEdit smallText editedText := by
    rw [start, final]
    exact .head (edit exchanged) (.head (edit filled) (.single (edit noted)))
  exact ⟨accepted, ofJson_of_edits accepted edits⟩

/-- The key of this member is one half of a pair. -/
def unpairedMember : List Char :=
  memberText [] ['\\', 'u', 'd', '8', '0', '0'] [] ['n', 'u', 'l', 'l']

def tablesText : String := "\x7b\"tables\":[\"t\"]\x7d"

def unpairedText : String := "\x7b\"\\ud800\":null,\"tables\":[\"t\"]\x7d"

/-- A field whose key is well formed and unknown is refused if its key denotes nothing. -/
theorem ofJson_unpaired :
    Writes .member unpairedMember ∧
      (∀ name, ¬Denotes ['\\', 'u', 'd', '8', '0', '0'] name) ∧
      tablesText.toList = '{' :: (tablesMember.text ++ ['}']) ∧
      unpairedText.toList = '{' :: (unpairedMember ++ ',' :: tablesMember.text ++ ['}']) ∧
      ofJson tablesText = .ok { empty with tables := ["t"] } ∧
      ofJson unpairedText = .error (.invalid .malformed) := by
  have unit : Json.Quoted.unit? 'd' '8' '0' '0' = some 0xd800 := by decide
  have inside : IsContent ['\\', 'u', 'd', '8', '0', '0'] :=
    .unit (Json.Grammar.isHex_of_unit? unit) .nil
  have silent : ∀ name, ¬Denotes ['\\', 'u', 'd', '8', '0', '0'] name := by
    intro name denotes
    rw [← String.toList_ofList (l := name), Denotes.iff_text inside] at denotes
    cases denotes
  have written : Writes .member unpairedMember :=
    .member (by decide) (.quoted inside) (by decide) (Json.Grammar.writes_element .null)
  exact ⟨written, silent, by decide +kernel, by decide +kernel, by decide +kernel,
    by decide +kernel⟩

end SemanticQuery.Document
