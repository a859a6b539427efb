/-
This file says with which problem of a document a report fails. It should be the first one when the
problems are sorted by kind, but the value of a condition comes in front of the keywords that are
read after it.
-/

import SemanticQuery.Proofs.Interpretation.Defects
import SemanticQuery.Report

namespace SemanticQuery

/-- Only a value that cannot become an operand is such a defect. -/
def Defect.isValue : Defect → Bool
  | .value .. => true
  | _ => false

namespace Document

section Kinds

variable (document : Document)

/-- The defects of the keywords outside of aggregations. -/
def keywordDefects : List Defect :=
  document.operatorDefects ++ (document.joinDefects ++ document.orderDefects)

/-- All defects sorted by their kinds. -/
def defectsByKind : List Defect :=
  document.aggregationDefects ++ (document.keywordDefects ++
    (document.operandDefects ++ limitDefects document.limit))

/-- The value of a condition hides a keyword when its defect is the first one of the conditions, the
aggregations have none, and some other keyword has one as well. -/
structure HidesKeyword : Prop where
  tables : document.tables ≠ []
  aggregations : document.aggregationDefects = []
  value : ∃ column reason, document.conditionDefects.head? = some (.value column reason)
  keyword : document.keywordDefects ≠ []

end Kinds

section Values

variable {defect : Defect}

theorem isValue_of_mem_spellingDefects {α : Type} [Keyword α] {given : Option String}
    {other : Defect} (keyword : other.isValue = false)
    (inside : defect ∈ spellingDefects α other given) : defect.isValue = false := by
  unfold spellingDefects at inside
  split at inside
  · cases inside
  · exact List.mem_singleton.1 inside ▸ keyword

theorem isValue_of_mem_elim {α : Type} {isValue : Bool} {given : Option α}
    {defects : α → List Defect}
    (each : ∀ value, ∀ other ∈ defects value, other.isValue = isValue)
    (inside : defect ∈ given.elim [] defects) : defect.isValue = isValue := by
  cases given with
  | none => cases inside
  | some value => exact each value defect inside

theorem Aggregation.isValue_of_mem_defects (aggregation : Aggregation)
    (inside : defect ∈ aggregation.defects) : defect.isValue = false :=
  isValue_of_mem_spellingDefects rfl inside

theorem Condition.isValue_of_mem_operatorDefects (condition : Condition)
    (inside : defect ∈ condition.operatorDefects) : defect.isValue = false :=
  isValue_of_mem_spellingDefects rfl inside

theorem Join.isValue_of_mem_defects (join : Join) (inside : defect ∈ join.defects) :
    defect.isValue = false :=
  isValue_of_mem_elim (fun _ _ => isValue_of_mem_spellingDefects rfl) inside

theorem OrderTerm.isValue_of_mem_defects (term : OrderTerm) (inside : defect ∈ term.defects) :
    defect.isValue = false :=
  isValue_of_mem_elim (fun _ _ => isValue_of_mem_spellingDefects rfl) inside

theorem isValue_of_mem_limitDefects {limit : Option Json.Value}
    (inside : defect ∈ limitDefects limit) : defect.isValue = false := by
  unfold limitDefects at inside
  split at inside
  · cases inside
  · cases inside
  · split at inside
    · cases inside
    · exact List.mem_singleton.1 inside ▸ rfl

theorem isValue_of_mem_scalarDefects {column : String} {value : Json.Value}
    (inside : defect ∈ scalarDefects column value) : defect.isValue = true := by
  unfold scalarDefects at inside
  split at inside
  · exact List.mem_singleton.1 inside ▸ rfl
  · exact List.mem_singleton.1 inside ▸ rfl
  · cases inside

theorem isValue_of_mem_valueDefects {column : String} {value : Json.Value}
    (inside : defect ∈ valueDefects column value) : defect.isValue = true := by
  unfold valueDefects at inside
  split at inside
  · obtain ⟨item, _, found⟩ := List.mem_flatMap.1 inside
    exact isValue_of_mem_scalarDefects found
  · exact isValue_of_mem_scalarDefects inside

theorem Condition.isValue_of_mem_valueDefects (condition : Condition)
    (inside : defect ∈ condition.valueDefects) : defect.isValue = true :=
  isValue_of_mem_elim (fun _ _ => Document.isValue_of_mem_valueDefects) inside

variable {document : Document}

theorem isValue_of_mem_aggregationDefects (inside : defect ∈ document.aggregationDefects) :
    defect.isValue = false := by
  obtain ⟨aggregation, _, found⟩ := List.mem_flatMap.1 inside
  exact aggregation.isValue_of_mem_defects found

theorem isValue_of_mem_keywordDefects (inside : defect ∈ document.keywordDefects) :
    defect.isValue = false := by
  rcases List.mem_append.1 inside with operator | other
  · obtain ⟨condition, _, found⟩ := List.mem_flatMap.1 operator
    exact condition.isValue_of_mem_operatorDefects found
  · rcases List.mem_append.1 other with type | direction
    · obtain ⟨join, _, found⟩ := List.mem_flatMap.1 type
      exact join.isValue_of_mem_defects found
    · obtain ⟨term, _, found⟩ := List.mem_flatMap.1 direction
      exact term.isValue_of_mem_defects found

theorem isValue_of_mem_operandDefects (inside : defect ∈ document.operandDefects) :
    defect.isValue = true := by
  obtain ⟨condition, _, found⟩ := List.mem_flatMap.1 inside
  exact condition.isValue_of_mem_valueDefects found

end Values

/-- When the elements of two sources alternate, the first one is the first one of its source. -/
theorem head?_flatMap_append {α β : Type} (first second : α → List β) {items : List α}
    {value : β} (head : (items.flatMap fun item => first item ++ second item).head? = some value) :
    (items.flatMap first).head? = some value ∨ (items.flatMap second).head? = some value := by
  induction items with
  | nil => cases head
  | cons item rest inductionHypothesis =>
      simp only [List.flatMap_cons] at head ⊢
      cases left : first item with
      | cons other _ =>
          rw [left] at head
          exact .inl head
      | nil =>
          cases right : second item with
          | cons other _ =>
              rw [left, right] at head
              exact .inr head
          | nil =>
              rw [left, right] at head
              exact inductionHypothesis head

section Heads

variable {document : Document}

theorem keyword_or_operand_of_head? {defect : Defect}
    (first : document.conditionDefects.head? = some defect) :
    document.keywordDefects.head? = some defect ∨
      document.operandDefects.head? = some defect := by
  rcases head?_flatMap_append _ _ first with operator | operand
  · refine .inl ?_
    rw [keywordDefects, operatorDefects, List.head?_append, operator, Option.some_or]
  · exact .inr operand

theorem conditionDefects_eq_nil_iff :
    document.conditionDefects = [] ↔
      document.operatorDefects = [] ∧ document.operandDefects = [] := by
  simp only [conditionDefects, operatorDefects, operandDefects, List.flatMap_eq_nil_iff,
    List.append_eq_nil_iff]
  exact forall₂_and

theorem keywordDefects_eq_nil_iff :
    document.keywordDefects = [] ↔
      document.operatorDefects = [] ∧ document.joinDefects = [] ∧ document.orderDefects = [] := by
  rw [keywordDefects, List.append_eq_nil_iff, List.append_eq_nil_iff]

/-- A value comes first when the aggregations have no defects and it comes first in the
conditions. -/
theorem head?_defects_eq_value_iff {column : String} {reason : ValueDefect} :
    document.defects.head? = some (.value column reason) ↔
      document.aggregationDefects = [] ∧
        document.conditionDefects.head? = some (.value column reason) := by
  constructor
  · intro first
    have inside := List.mem_of_mem_head? first
    cases aggregations : document.aggregationDefects with
    | cons defect rest =>
        rw [defects, aggregations, List.cons_append, List.head?_cons, Option.some.injEq] at first
        have noValue := isValue_of_mem_aggregationDefects (aggregations ▸ List.mem_cons_self)
        rw [first] at noValue
        cases noValue
    | nil =>
        refine ⟨rfl, ?_⟩
        rw [defects, aggregations, List.nil_append, List.head?_append] at first
        cases conditions : document.conditionDefects.head? with
        | some defect => rwa [conditions, Option.some_or] at first
        | none =>
            -- Everything behind the conditions is no value.
            rw [conditions, Option.none_or] at first
            have noValue : (Defect.value column reason).isValue = false := by
              rcases List.mem_append.1 (List.mem_of_mem_head? first) with join | rest
              · exact isValue_of_mem_keywordDefects
                  (List.mem_append_right _ (List.mem_append_left _ join))
              · rcases List.mem_append.1 rest with order | limit
                · exact isValue_of_mem_keywordDefects
                    (List.mem_append_right _ (List.mem_append_right _ order))
                · exact isValue_of_mem_limitDefects limit
            cases noValue
  · intro parts
    rw [defects, parts.1, List.nil_append, List.head?_append, parts.2, Option.some_or]

/-- Sorted by kind, the hidden keyword comes first. -/
theorem HidesKeyword.head?_ne (hides : document.HidesKeyword) :
    document.defects.head? ≠ document.defectsByKind.head? := by
  obtain ⟨_, aggregations, ⟨column, reason, value⟩, keyword⟩ := hides
  obtain ⟨defect, rest, found⟩ := List.exists_cons_of_ne_nil keyword
  rw [head?_defects_eq_value_iff.2 ⟨aggregations, value⟩, defectsByKind, aggregations, found]
  intro same
  have noValue := isValue_of_mem_keywordDefects (found ▸ List.mem_cons_self)
  rw [← Option.some.inj same] at noValue
  cases noValue

/-- In all other cases the same defect comes first in both orders. -/
theorem head?_defects_eq (tables : document.tables ≠ []) (shown : ¬document.HidesKeyword) :
    document.defects.head? = document.defectsByKind.head? := by
  rw [defects, defectsByKind]
  cases aggregations : document.aggregationDefects with
  | cons defect rest => rfl
  | nil =>
      rw [List.nil_append, List.nil_append]
      cases first : document.conditionDefects.head? with
      | none =>
          have none := List.head?_eq_none_iff.1 first
          obtain ⟨operators, operands⟩ := conditionDefects_eq_nil_iff.1 none
          simp [none, keywordDefects, operators, operands]
      | some defect =>
          rw [List.head?_append, first, Option.some_or, List.head?_append]
          rcases keyword_or_operand_of_head? first with keyword | operand
          · rw [keyword, Option.some_or]
          · have isValue := isValue_of_mem_operandDefects (List.mem_of_mem_head? operand)
            have keywords : document.keywordDefects = [] := by
              by_contra keyword
              cases defect with
              | value column reason =>
                  exact shown ⟨tables, aggregations, ⟨column, reason, first⟩, keyword⟩
              | _ => cases isValue
            rw [keywords, List.head?_nil, Option.none_or, List.head?_append, operand,
              Option.some_or]

end Heads

end Document

namespace Report

/-- A document without tables fails before anything else is looked at. -/
def tableFailures (document : Document) : List Failure :=
  if document.tables.isEmpty then [.noTables] else []

/-- The failures of a document in the order in which they are met. -/
def failures (document : Document) : List Failure :=
  tableFailures document ++ document.defects.map .uninterpretable

/-- The failures of a document sorted by their kinds: tables, functions, operators, types,
directions, values, limit. -/
def failuresByKind (document : Document) : List Failure :=
  tableFailures document ++ document.defectsByKind.map .uninterpretable

theorem failsFirst_ofDocument (dialect : Dialect) (document : Document) :
    FailsFirst (ofDocument dialect document) (failures document) := by
  unfold ofDocument failures tableFailures
  split
  · exact .error Failure.noTables _
  · have fails := Document.failsFirst_interpret document
    rw [List.nil_append]
    cases interpreted : (document.interpret .strict).value with
    | error defect =>
        intro failure
        rw [List.head?_map, (fails defect).1 interpreted]
        simp
    | ok query =>
        rw [interpreted] at fails
        rw [fails.eq_nil]
        exact .ok _

/-- A document without tables has the same failure in both orders. -/
theorem head?_of_noTables {document : Document} (noTables : document.tables = []) :
    (failures document).head? = some .noTables ∧
      (failuresByKind document).head? = some .noTables := by
  simp [failures, failuresByKind, tableFailures, noTables]

/-- The failures of a document with tables are its defects. -/
theorem head?_of_tables {document : Document} (tables : document.tables ≠ []) :
    (failures document).head? = document.defects.head?.map .uninterpretable ∧
      (failuresByKind document).head? = document.defectsByKind.head?.map .uninterpretable := by
  simp [failures, failuresByKind, tableFailures, tables]

/-- The failures of both orders begin with the same one, unless a value hides a keyword. -/
theorem head?_failures_eq_iff {document : Document} :
    (failures document).head? = (failuresByKind document).head? ↔ ¬document.HidesKeyword := by
  by_cases tables : document.tables = []
  · obtain ⟨met, sorted⟩ := head?_of_noTables tables
    rw [met, sorted]
    exact iff_of_true rfl fun hides => hides.tables tables
  · obtain ⟨met, sorted⟩ := head?_of_tables tables
    rw [met, sorted]
    constructor
    · intro same hides
      exact hides.head?_ne (Option.map_injective (fun _ _ => Failure.uninterpretable.inj) same)
    · intro shown
      rw [Document.head?_defects_eq tables shown]

section Value

variable {document : Document} {column : String} {reason : ValueDefect}

/-- A value fails a report when it comes first among the defects. -/
theorem head?_failures_eq_value_iff :
    (failures document).head? = some (.uninterpretable (.value column reason)) ↔
      document.tables ≠ [] ∧ document.aggregationDefects = [] ∧
        document.conditionDefects.head? = some (.value column reason) := by
  by_cases tables : document.tables = []
  · rw [(head?_of_noTables tables).1]
    exact iff_of_false nofun fun parts => parts.1 tables
  · rw [(head?_of_tables tables).1, Option.map_eq_some_iff, ← Document.head?_defects_eq_value_iff]
    constructor
    · rintro ⟨defect, first, same⟩
      exact ⟨tables, Failure.uninterpretable.inj same ▸ first⟩
    · exact fun parts => ⟨_, parts.2, rfl⟩

theorem head?_failures_of_hidesKeyword (hides : document.HidesKeyword) :
    ∃ column reason,
      (failures document).head? = some (.uninterpretable (.value column reason)) := by
  obtain ⟨column, reason, value⟩ := hides.value
  exact ⟨column, reason, head?_failures_eq_value_iff.2 ⟨hides.tables, hides.aggregations, value⟩⟩

end Value

/-- A report fails with the first failure that is met. This is also the first one sorted by kind
exactly when no value hides a keyword, and exactly then a failure about a value means that all
keywords are canonical. -/
theorem ofDocument_fails_first (document : Document) :
    (∀ dialect failure, ofDocument dialect document = .error failure ↔
      (failures document).head? = some failure) ∧
      ((∀ dialect failure, ofDocument dialect document = .error failure →
          (failuresByKind document).head? = some failure) ↔ ¬document.HidesKeyword) ∧
      ((∀ dialect column reason,
          ofDocument dialect document = .error (.uninterpretable (.value column reason)) →
            document.aggregationDefects = [] ∧ document.operatorDefects = [] ∧
              document.joinDefects = [] ∧ document.orderDefects = []) ↔
        ¬document.HidesKeyword) := by
  have fails (dialect : Dialect) := failsFirst_ofDocument dialect document
  refine ⟨fun dialect failure => fails dialect failure, ?sorted, ?values⟩
  case sorted =>
    constructor
    · intro sorted hides
      -- The hidden keyword has the same failure in front of it in one order only.
      obtain ⟨column, reason, first⟩ := head?_failures_of_hidesKeyword hides
      have byKind := sorted .mysql _ ((fails .mysql _).2 first)
      exact head?_failures_eq_iff.1 (first.trans byKind.symm) hides
    · intro shown dialect failure failed
      rw [← head?_failures_eq_iff.2 shown]
      exact (fails dialect failure).1 failed
  case values =>
    constructor
    · intro accepts hides
      obtain ⟨column, reason, first⟩ := head?_failures_of_hidesKeyword hides
      obtain ⟨_, operators, joins, order⟩ := accepts .mysql column reason ((fails .mysql _).2 first)
      exact hides.keyword (Document.keywordDefects_eq_nil_iff.2 ⟨operators, joins, order⟩)
    · intro shown dialect column reason failed
      obtain ⟨tables, aggregations, value⟩ :=
        head?_failures_eq_value_iff.1 ((fails dialect _).1 failed)
      have keywords : document.keywordDefects = [] := by
        by_contra keyword
        exact shown ⟨tables, aggregations, ⟨column, reason, value⟩, keyword⟩
      exact ⟨aggregations, Document.keywordDefects_eq_nil_iff.1 keywords⟩

/-- The first condition has an object as its value, and the operator of the second one does not
exist. -/
def objectBeforeOperator : Document :=
  { Document.empty with
    tables := ["t"]
    conditions :=
      [ { column := some "a", operator := some "=", value := some (.object []), table := none },
        { column := some "b", operator := some "~"
          value := some (.number (.integer (.ofUInt64 1))), table := none } ] }

/-- The report of this document fails about the value, although an operator is wrong. -/
theorem ofDocument_objectBeforeOperator :
    ofDocument .mysql objectBeforeOperator = .error (.uninterpretable (.value "a" .object)) ∧
      (failuresByKind objectBeforeOperator).head? =
        some (.uninterpretable (.operator "b" (some "~"))) ∧
      objectBeforeOperator.operatorDefects = [.operator "b" (some "~")] :=
  ⟨(failsFirst_ofDocument .mysql objectBeforeOperator _).2 (by decide), by decide, by decide⟩

end Report

end SemanticQuery
