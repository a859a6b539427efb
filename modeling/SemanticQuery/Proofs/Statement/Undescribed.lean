/-
This file shows that descriptions have no influence on a statement. Aggregations describe columns,
and the table of a condition describes the condition.
-/

import SemanticQuery.Proofs.Interpretation.Degraded

namespace SemanticQuery

/-- The table of a condition is a description. -/
def Condition.undescribed (condition : Condition) : Condition := { condition with table := none }

/-- The descriptions of a query are its aggregations and those of its conditions. -/
def Query.undescribed (query : Query) : Query :=
  { query with
    aggregations := []
    conditions := query.conditions.map Condition.undescribed }

/-- A condition of a document is described in the same way. -/
def Document.Condition.undescribed (condition : Condition) : Condition :=
  { condition with table := none }

/-- The aggregations of a document need not be readable to be descriptions. -/
def Document.undescribed (document : Document) : Document :=
  { document with
    aggregations := []
    conditions := document.conditions.map Condition.undescribed }

namespace Query

theorem predicates_undescribed (conditions : List Condition) :
    Clause.predicates (conditions.map Condition.undescribed) = Clause.predicates conditions := by
  induction conditions with
  | nil => rfl
  | cons condition rest inductionHypothesis =>
      have first : Clause.predicate? condition.undescribed = Clause.predicate? condition := rfl
      rw [List.map_cons, Clause.predicates, Clause.predicates, first, inductionHypothesis]

theorem statement_undescribed (query : Query) : query.undescribed.statement = query.statement := by
  have plan : Plan.ofQuery query.undescribed = Plan.ofQuery query := rfl
  have limit : query.undescribed.effectiveLimit? = query.effectiveLimit? := rfl
  simp only [statement, clauses, Clause.where, plan, limit]
  simp only [undescribed, predicates_undescribed]

/-- A query compiles like the query that is left without its descriptions. -/
theorem compile_undescribed (dialect : Dialect) (query : Query) :
    (query.undescribed.compile dialect).value = (query.compile dialect).value := by
  have tables : query.undescribed.tables = query.tables := rfl
  unfold compile
  rw [tables, statement_undescribed]
  split
  · rfl
  · -- The fingerprints in the events differ, so only the values are compared.
    rw [Logged.value_bind, Logged.value_bind]
    cases query.statement with
    | ok tokens => simp only [Logged.value_single]
    | error error => simp only [degrade, Logged.value_single]

end Query

namespace Document

/-- An unreadable aggregation is dropped, so the lenient reading of aggregations never fails. -/
theorem exists_interpretAggregations (aggregations : List Aggregation) :
    ∃ readable, (interpretAggregations .lenient aggregations).value = .ok readable := by
  induction aggregations with
  | nil => exact ⟨[], rfl⟩
  | cons aggregation rest inductionHypothesis =>
      obtain ⟨later, found⟩ := inductionHypothesis
      cases read : aggregation.read? .lenient with
      | none => exact ⟨later, by simp only [interpretAggregations, read, Logged.value_bind, found]⟩
      | some first =>
          refine ⟨first :: later, ?_⟩
          simp only [interpretAggregations, read, Logged.value_bind, Logged.value_pure, found]
          rfl

theorem Condition.interpret_undescribed (mode : Mode) (condition : Condition) :
    condition.undescribed.interpret mode =
      (condition.interpret mode).map SemanticQuery.Condition.undescribed := by
  have operator : condition.undescribed.operator? mode = condition.operator? mode := rfl
  have operand : condition.undescribed.operand = condition.operand := rfl
  have defect : Defect.operator condition.undescribed.columnText condition.undescribed.operator =
      .operator condition.columnText condition.operator := rfl
  rw [interpret, interpret, operator, operand, defect]
  cases orDefect _ (condition.operator? mode) with
  | error => rfl
  | ok operator =>
      cases condition.operand with
      | error => rfl
      | ok => rfl

theorem interpretAll_undescribed (mode : Mode) (conditions : List Condition) :
    interpretAll (Condition.interpret mode) (conditions.map Condition.undescribed) =
      (interpretAll (Condition.interpret mode) conditions).map
        (List.map SemanticQuery.Condition.undescribed) := by
  induction conditions with
  | nil => rfl
  | cons condition rest inductionHypothesis =>
      rw [List.map_cons, interpretAll, interpretAll, Condition.interpret_undescribed,
        inductionHypothesis]
      cases Condition.interpret mode condition with
      | error => rfl
      | ok first =>
          cases interpretAll (Condition.interpret mode) rest with
          | error => rfl
          | ok later => rfl

/-- Everything but the aggregations is interpreted in the same way, with the same defect first. -/
theorem interpretRest_undescribed (mode : Mode) (document : Document)
    (aggregations : List SemanticQuery.Aggregation) :
    interpretRest mode document.undescribed [] =
      (interpretRest mode document aggregations).map Query.undescribed := by
  simp only [interpretRest, undescribed, interpretAll_undescribed]
  cases interpretAll (Condition.interpret mode) document.conditions with
  | error => rfl
  | ok conditions =>
      cases interpretAll (Join.interpret mode) document.joins with
      | error => rfl
      | ok joins =>
          cases interpretOrder mode document.orderBy with
          | error => rfl
          | ok orderBy =>
              cases interpretLimit mode document.limit with
              | error => rfl
              | ok limit => rfl

/-- A lenient interpretation leaves no trace of the descriptions but in the query. -/
theorem interpret_undescribed (document : Document) :
    (document.undescribed.interpret .lenient).value =
      (document.interpret .lenient).value.map Query.undescribed := by
  obtain ⟨aggregations, read⟩ := exists_interpretAggregations document.aggregations
  have described : (document.interpret .lenient).value =
      interpretRest .lenient document aggregations := by
    simp only [interpret, Logged.value_bind, Logged.value_pure, read]
    rfl
  rw [described, ← interpretRest_undescribed .lenient document aggregations]
  rfl

/-- A document compiles like the document that is left without its descriptions. -/
theorem compile_undescribed (dialect : Dialect) (document : Document) :
    (document.undescribed.compile dialect).value = (document.compile dialect).value := by
  by_cases tables : document.tables = []
  · rw [compile_of_noTables dialect tables]
    exact compile_of_noTables dialect tables
  · have kept : document.undescribed.tables ≠ [] := tables
    rw [value_compile dialect tables, value_compile dialect kept, interpret_undescribed]
    cases (document.interpret .lenient).value with
    | error defect => rfl
    | ok query => exact query.compile_undescribed dialect

end Document

/-- Two documents that differ in their descriptions only have the same outcome, whether it is a
statement or a reason, and so have two queries. -/
theorem compile_eq_of_undescribed_eq (dialect : Dialect) :
    (∀ first second : Document, first.undescribed = second.undescribed →
      (first.compile dialect).value = (second.compile dialect).value) ∧
    ∀ first second : Query, first.undescribed = second.undescribed →
      (first.compile dialect).value = (second.compile dialect).value := by
  constructor
  · intro first second same
    rw [← first.compile_undescribed dialect, same, second.compile_undescribed dialect]
  · intro first second same
    rw [← first.compile_undescribed dialect, same, second.compile_undescribed dialect]

/-- The aggregations of this document cannot be read, and its condition has a table. -/
def Document.chatty : Document where
  tables := ["t"]
  columns := []
  conditions := [⟨some "a", some "<", some (.number (.integer { value := 3 })), some "u"⟩]
  aggregations := [⟨some "MEDIAN", some "a", some "m"⟩, ⟨none, none, none⟩]
  joins := []
  orderBy := none
  groupBy := none
  limit := none

/-- The same document has an aggregation that can be read here, and no table. -/
def Document.terse : Document where
  tables := ["t"]
  columns := []
  conditions := [⟨some "a", some "<", some (.number (.integer { value := 3 })), none⟩]
  aggregations := [⟨some "SUM", none, none⟩]
  joins := []
  orderBy := none
  groupBy := none
  limit := none

/-- The query of that document has its descriptions as well. -/
def Query.chatty : Query :=
  { Query.ofTables ["t"] with
    conditions := [⟨"a", .less, some (.scalar (.float (0.0 / 0.0))), some "u"⟩]
    aggregations := [⟨.sum, "a", none⟩] }

/-- Aggregations and tables make no difference to a statement, nor to a reason for having none. -/
theorem compile_eq_of_undescribed_eq_chatty :
    (Document.terse.compile .mysql).value = .compiled "SELECT * FROM t WHERE a < 3" ∧
      (Document.chatty.compile .mysql).value = (Document.terse.compile .mysql).value ∧
      (Query.chatty.undescribed.compile .duckdb).value =
        .degraded (.unquotable ⟨0.0 / 0.0⟩) ∧
      (Query.chatty.compile .duckdb).value = (Query.chatty.undescribed.compile .duckdb).value := by
  refine ⟨by decide +kernel, ?_, by decide +kernel, ?_⟩
  · exact (compile_eq_of_undescribed_eq .mysql).1 _ _ rfl
  · exact (compile_eq_of_undescribed_eq .duckdb).2 _ _ rfl

end SemanticQuery
