/-
This file shows that an integer of a document is written into the statement with its own digits,
wherever a literal can stand.
-/

import SemanticQuery.Proofs.Document.Values
import SemanticQuery.Proofs.Interpretation.Degraded
import SemanticQuery.Proofs.Json.Fits
import SemanticQuery.Proofs.Literal.Scanner
import SemanticQuery.Proofs.Statement.Wording

namespace SemanticQuery

/-- Arrays and objects are no scalars. -/
def Json.Value.isScalar : Json.Value → Bool
  | .array _ => false
  | .object _ => false
  | _ => true

namespace Dialect

/-- These characters are doubled in a string literal. -/
def doubles (dialect : Dialect) (character : Char) : Bool :=
  character == '\'' || dialect.hasEscapes && character == '\\'

/-- The text between the quotes of a string literal. -/
def content (dialect : Dialect) (text : String) : String :=
  String.ofList (text.toList.flatMap fun character =>
    if dialect.doubles character then [character, character] else [character])

variable (dialect : Dialect)

theorem literal_eq_content (text : String) :
    dialect.literal text = "'" ++ dialect.content text ++ "'" := by
  apply String.toList_inj.1
  cases dialect <;>
    simp [literal, quote, quoteBackslash, quoteStandard, quoteWith, content, doubles, hasEscapes]

theorem content_append (first second : String) :
    dialect.content (first ++ second) = dialect.content first ++ dialect.content second := by
  simp [content]

/-- A text without such characters stays as it is. -/
theorem content_eq_self {text : String}
    (plain : ∀ character ∈ text.toList, dialect.doubles character = false) :
    dialect.content text = text := by
  have same : text.toList.flatMap (fun character =>
      if dialect.doubles character then [character, character] else [character]) =
        text.toList.flatMap ([·]) := by
    refine List.flatMap_congr fun character inside => ?_
    rw [plain character inside]
    rfl
  rw [content, same, List.flatMap_singleton', String.ofList_toList]

theorem content_intercalate (texts : List String) :
    dialect.content (", ".intercalate texts) = ", ".intercalate (texts.map dialect.content) := by
  have separator : dialect.content ", " = ", " := by cases dialect <;> rfl
  induction texts with
  | nil => rfl
  | cons text rest inductionHypothesis =>
      cases rest with
      | nil => simp
      | cons next rest =>
          rw [String.intercalate_cons_cons, content_append, content_append, inductionHypothesis,
            separator]
          simp only [List.map_cons, String.intercalate_cons_cons]

/-- Digits and signs are never doubled. -/
theorem content_integer (integer : Integer) : dialect.content integer.text = integer.text := by
  refine dialect.content_eq_self fun character inside => ?_
  have other : character = '-' ∨ character.isDigit = true := by
    rw [integer.toList_text, List.mem_append] at inside
    rcases inside with sign | digit
    · split at sign
      · exact .inl (List.mem_singleton.1 sign)
      · cases sign
    · exact .inr (isDigit_of_mem_toDigits digit)
  have plain : character ≠ '\'' ∧ character ≠ '\\' := by
    constructor <;> rintro rfl <;> rcases other with same | digit <;> contradiction
  simp [doubles, plain]

end Dialect

namespace Operator

/-- The texts of the items of a list are put together like this. A list that has no form of its own
is one string literal. -/
def arrange : Operator → List String → String
  | .oneOf, texts => "(" ++ ", ".intercalate texts ++ ")"
  | .between, [low, high] => low ++ " AND " ++ high
  | _, texts => "'[" ++ ", ".intercalate texts ++ "]'"

/-- The items are literals in a list to choose from and in a range. Otherwise they are displayed
inside of a string literal. -/
def itemTexts (dialect : Dialect) (operator : Operator) (items : List Scalar) : List String :=
  items.map fun item =>
    if operator = .oneOf ∨ operator = .between ∧ items.length = 2 then item.wording dialect
    else dialect.content item.display

variable {dialect : Dialect} {operator : Operator} {items : List Scalar}

theorem wording_list :
    (Operand.list items).wording dialect operator =
      operator.arrange (operator.itemTexts dialect items) := by
  have bracketed : dialect.literal ("[" ++ ", ".intercalate (items.map Scalar.display) ++ "]") =
      "'[" ++ ", ".intercalate (items.map fun item => dialect.content item.display) ++ "]'" := by
    have opening : dialect.content "[" = "[" := by cases dialect <;> rfl
    have closing : dialect.content "]" = "]" := by cases dialect <;> rfl
    rw [Dialect.literal_eq_content, Dialect.content_append, Dialect.content_append,
      Dialect.content_intercalate, List.map_map, opening, closing]
    apply String.toList_inj.1
    simp [Function.comp_def]
  cases operator with
  | oneOf => simp [Operand.wording, arrange, itemTexts]
  | between =>
      rcases items with _ | ⟨low, _ | ⟨high, _ | ⟨next, rest⟩⟩⟩
      case cons.cons.nil => simp [Operand.wording, arrange, itemTexts]
      all_goals simpa [Operand.wording, arrange, itemTexts] using bracketed
  | _ => simpa [Operand.wording, arrange, itemTexts] using bracketed

/-- Every item has a text. -/
theorem length_itemTexts : (operator.itemTexts dialect items).length = items.length :=
  List.length_map _

/-- An integer is written with its digits at its place in the list. -/
theorem getElem?_itemTexts {integer : Integer} {position : Nat}
    (found : items[position]? = some (.integer integer)) :
    (operator.itemTexts dialect items)[position]? = some integer.text := by
  rw [itemTexts, List.getElem?_map, found, Option.map_some, Scalar.display,
    Dialect.content_integer, Scalar.wording, ite_self]

end Operator

/-- One more condition stands at a place among the others. -/
def Query.filterAt (query : Query) (place : Nat) (condition : Condition) : Query :=
  { query with
    conditions := query.conditions.take place ++ condition :: query.conditions.drop place }

namespace Document

/-- An integer is read as itself, however deep it is nested. -/
theorem readText_integer (levels : Nat) {token : String} {integer : Integer}
    (written : Json.Grammar.IsInteger token.toList integer.value) (noMinusZero : token ≠ "-0") :
    Json.readText (rawValue levels) token = .ok (.number (.integer integer)) := by
  have spelled : (Json.Value.number (.integer integer)).compactText = token :=
    String.ofList_toList.trans (written.text_eq noMinusZero)
  rw [← spelled]
  exact ((Json.Value.isWrittenAs_compactText rfl).readText _).trans
    (Json.Value.value_tree (.number _) rfl)

theorem Interprets.filterAt {mode : Mode} {document : Document} {query : Query}
    (interprets : Interprets mode document query) (place : Nat) {given : Condition}
    {condition : SemanticQuery.Condition} (interpreted : given.interpret mode = .ok condition) :
    Interprets mode (document.filterAt place given) (query.filterAt place condition) := by
  have before := List.forall₂_take place interprets.conditions
  have after := List.forall₂_drop place interprets.conditions
  exact { interprets with conditions := List.rel_append before (.cons interpreted after) }

/-- The items of a list are interpreted if they are scalars. -/
theorem exists_interpretScalar (column : String) {items : List Json.Value}
    (scalars : ∀ item ∈ items, item.isScalar) :
    ∃ values, interpretAll (interpretScalar column) items = .ok values := by
  induction items with
  | nil => exact ⟨[], rfl⟩
  | cons item rest inductionHypothesis =>
      obtain ⟨first, others⟩ := List.forall_mem_cons.1 scalars
      obtain ⟨values, later⟩ := inductionHypothesis others
      have read : ∃ value, interpretScalar column item = .ok value := by
        cases item with
        | array => cases first
        | object => cases first
        | number value => cases value <;> exact ⟨_, rfl⟩
        | _ => exact ⟨_, rfl⟩
      obtain ⟨value, found⟩ := read
      exact ⟨value :: values, by rw [interpretAll, found, later]; rfl⟩

/-- One more condition at a place compares its column with this text. Everything else in the
statement is that of the query without it. -/
def Compares (dialect : Dialect) (document : Document) (query : Query) (place : Nat)
    (given : Condition) (operator : Operator) (text : String) : Prop :=
  ∃ condition : SemanticQuery.Condition, condition.isRenderable ∧
    condition.wording dialect =
      given.columnText ++ " " ++ Keyword.spelling operator ++ " " ++ text ∧
    ((document.filterAt place given).compile dialect).value =
      .compiled ((query.filterAt place condition).wording dialect)

section Compares

variable (dialect : Dialect) {document : Document} {query : Query} (place : Nat)
  {given : Condition} {operator : Operator} (tables : document.tables ≠ [])
  (interpreted : (document.interpret .lenient).value = .ok query)
  (named : given.columnText ≠ "") (read : given.operator? .lenient = some operator)

include tables interpreted named read

/-- An operand that is not an empty list is compared with. -/
theorem compares_of_operand {operand : Operand} (found : given.operand = .ok (some operand))
    (filled : operand ≠ .list []) :
    Compares dialect document query place given operator (operand.wording dialect operator) := by
  let condition : SemanticQuery.Condition :=
    ⟨given.columnText, operator, some operand, given.table⟩
  have compared : given.interpret .lenient = .ok condition :=
    Condition.interpret_eq_ok_iff.2 ⟨read, found, rfl, rfl⟩
  have whole := interpret_eq_ok_iff.2 ((interpret_eq_ok_iff.1 interpreted).filterAt place compared)
  have kept : (document.filterAt place given).tables ≠ [] := tables
  obtain ⟨tokens, rendered, compiled⟩ := compile_of_ok dialect kept whole
  rw [Query.text_of_statement rendered] at compiled
  refine ⟨condition, ?_, rfl, compiled⟩
  cases operand with
  | scalar => simp [condition, SemanticQuery.Condition.isRenderable, named]
  | list items =>
      have nonempty : items ≠ [] := fun empty => filled (congrArg _ empty)
      simp [condition, SemanticQuery.Condition.isRenderable, named, nonempty]

/-- An integer is compared with as its own text, which is the only item if one has to be chosen. -/
theorem compares_integer {integer : Integer}
    (single : given.value = some (.number (.integer integer))) :
    Compares dialect document query place given operator
      (if operator = .oneOf then "(" ++ integer.text ++ ")" else integer.text) := by
  have found : given.operand = .ok (some (.scalar (.integer integer))) := by
    rw [Condition.operand, single]
    rfl
  have wording : (Operand.scalar (.integer integer)).wording dialect operator =
      if operator = .oneOf then "(" ++ integer.text ++ ")" else integer.text := by
    cases operator <;> rfl
  rw [← wording]
  exact compares_of_operand dialect place tables interpreted named read found (by simp)

/-- A list of scalars is compared with, and an integer has its text wherever it is in the list. -/
theorem compares_list {items : List Json.Value} (listed : given.value = some (.array items))
    (nonempty : items ≠ []) (scalars : ∀ item ∈ items, item.isScalar) :
    ∃ texts : List String, texts.length = items.length ∧
      (∀ (position : Nat) (integer : Integer),
        items[position]? = some (.number (.integer integer)) →
          texts[position]? = some integer.text) ∧
      Compares dialect document query place given operator (operator.arrange texts) := by
  obtain ⟨values, valuesRead⟩ := exists_interpretScalar given.columnText scalars
  have related := interpretAll_eq_ok_iff.1 valuesRead
  have found : given.operand = .ok (some (.list values)) := by
    rw [Condition.operand, listed]
    change (interpretAll _ items).map _ = _
    rw [valuesRead]
    rfl
  have filled : Operand.list values ≠ .list [] := by
    rintro ⟨⟩
    exact nonempty (List.forall₂_nil_right_iff.1 related)
  refine ⟨operator.itemTexts dialect values, ?_, ?_, ?_⟩
  · rw [Operator.length_itemTexts, related.length_eq]
  · intro position integer inside
    have value := rel_getElem? related position
    rw [inside] at value
    generalize same : values[position]? = present at value
    cases value with
    | some scalar =>
        cases scalar
        exact Operator.getElem?_itemTexts same
  · rw [← Operator.wording_list]
    exact compares_of_operand dialect place tables interpreted named read found filled

/-- An integer of 64 bits, with or without a sign, reaches the statement digit by digit. It is read
as itself wherever it is the value of a condition or an element of such a value. It stands by
itself, as an item of a list to choose from or as a bound of a range, or inside of the string
literal of any other list. The rest of the document is any that compiles, and no other integer has
the same literal. -/
theorem compile_integer {token : String} {value : Int}
    (written : Json.Grammar.IsInteger token.toList value) (noMinusZero : token ≠ "-0")
    (lower : -0x8000000000000000 ≤ value) (upper : value < 0x10000000000000000) :
    (∀ levels, Json.readText (rawValue levels) token =
        .ok (.number (.integer ⟨value, lower, upper⟩))) ∧
      IsConditionValue token.toList (.number (.integer ⟨value, lower, upper⟩)) ∧
      IsItemValue token.toList (.number (.integer ⟨value, lower, upper⟩)) ∧
      (given.value = some (.number (.integer ⟨value, lower, upper⟩)) →
        Compares dialect document query place given operator
          (if operator = .oneOf then "(" ++ token ++ ")" else token)) ∧
      (∀ items, given.value = some (.array items) → (∀ item ∈ items, item.isScalar) →
        .number (.integer ⟨value, lower, upper⟩) ∈ items →
          ∃ texts : List String, texts.length = items.length ∧
            (∀ position : Nat,
              items[position]? = some (.number (.integer ⟨value, lower, upper⟩)) →
                texts[position]? = some token) ∧
            Compares dialect document query place given operator (operator.arrange texts)) ∧
      ∀ other : Integer, (Scalar.integer other).wording dialect = token ↔ other.value = value := by
  have spelled (integer : Integer) (same : integer.value = value) : integer.text = token := by
    subst same
    exact written.text_eq noMinusZero
  have text : (Integer.mk value lower upper).text = token := spelled _ rfl
  have reads (levels : Nat) : Json.readText (rawValue levels) (String.ofList token.toList) =
      .ok (.number (.integer ⟨value, lower, upper⟩)) :=
    String.ofList_toList ▸ readText_integer levels written noMinusZero
  have element : Json.Grammar.Writes .value token.toList := .number written.isNumber
  refine ⟨fun levels => readText_integer levels written noMinusZero,
    isConditionValue element (reads 3) nofun, isItemValue element (reads 4), ?_, ?_, ?_⟩
  · intro single
    rw [← text]
    exact compares_integer dialect place tables interpreted named read single
  · intro items listed scalars inside
    obtain ⟨texts, complete, digits, compares⟩ :=
      compares_list dialect place tables interpreted named read listed
        (List.ne_nil_of_mem inside) scalars
    refine ⟨texts, complete, fun position found => ?_, compares⟩
    rw [← text]
    exact digits position _ found
  · intro other
    constructor
    · intro same
      exact congrArg Integer.value (Json.Numeral.text_injective (same.trans text.symm))
    · exact spelled other

end Compares

/-- This document has one condition. -/
def account : Document where
  tables := ["t"]
  columns := []
  conditions := [⟨some "a", none, some (.boolean true), none⟩]
  aggregations := []
  joins := []
  orderBy := none
  groupBy := none
  limit := none

/-- A second condition has the least integer as a bound. -/
def least : Condition where
  column := some "id"
  operator := some " between "
  value := some (.array [.number (.integer { value := -9223372036854775808 }), .string "x"])
  table := none

theorem compile_integer_least :
    ∃ texts : List String, texts.length = 2 ∧ texts[0]? = some "-9223372036854775808" ∧
      Compares .mysql account
        { Query.ofTables ["t"] with
          conditions := [⟨"a", .equal, some (.scalar (.boolean true)), none⟩] }
        1 least .between (Operator.arrange .between texts) := by
  have value : Nat.ofDigitChars 10 "9223372036854775808".toList 0 = 9223372036854775808 := by
    decide +kernel
  have whole : Json.Grammar.IsDigits "9223372036854775808".toList :=
    ⟨by decide, List.all_eq_true.1 (by decide)⟩
  have written : Json.Grammar.IsInteger "-9223372036854775808".toList (-9223372036854775808) := by
    have negative := Json.Grammar.IsInteger.negative whole (by decide)
    rw [value] at negative
    exact negative
  obtain ⟨_, _, _, _, listed, _⟩ := compile_integer .mysql 1 (by decide)
    (rfl : (account.interpret .lenient).value = _) (by decide : least.columnText ≠ "")
    (rfl : least.operator? .lenient = some .between) written (by decide) (by decide) (by decide)
  obtain ⟨texts, complete, digits, compares⟩ := listed _ rfl (by decide) (by simp)
  exact ⟨texts, complete, digits 0 rfl, compares⟩

end Document

end SemanticQuery
