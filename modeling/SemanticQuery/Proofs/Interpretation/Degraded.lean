/-
This file says when a document degrades and for which reason. A double is never the reason, because
every number of a document is finite.
-/

import SemanticQuery.Proofs.Interpretation.Finite

namespace SemanticQuery.Document

/-- Nothing else of a document without tables is looked at. -/
theorem compile_of_noTables (dialect : Dialect) {document : Document}
    (noTables : document.tables = []) :
    (document.compile dialect).value = .degraded .noTables := by
  unfold compile
  rw [if_pos (List.isEmpty_iff.2 noTables)]
  rfl

/-- The lenient interpretation of a document with tables decides about its outcome. -/
theorem value_compile (dialect : Dialect) {document : Document} (tables : document.tables ≠ []) :
    (document.compile dialect).value =
      match (document.interpret .lenient).value with
      | .ok query => (query.compile dialect).value
      | .error defect => .degraded (.uninterpretable defect) := by
  unfold compile
  rw [if_neg (by simpa using tables), Logged.value_bind]
  cases (document.interpret .lenient).value with
  | ok query => rfl
  | error defect => rfl

theorem compile_of_error (dialect : Dialect) {document : Document} {defect : Defect}
    (tables : document.tables ≠ [])
    (failed : (document.interpret .lenient).value = .error defect) :
    (document.compile dialect).value = .degraded (.uninterpretable defect) := by
  rw [value_compile dialect tables, failed]

theorem compile_of_ok (dialect : Dialect) {document : Document} {query : Query}
    (tables : document.tables ≠ []) (read : (document.interpret .lenient).value = .ok query) :
    ∃ tokens, query.statement = .ok tokens ∧
      (document.compile dialect).value = .compiled (Sql.text dialect tokens) := by
  obtain ⟨tokens, rendered, compiled⟩ :=
    (interpret_eq_ok_iff.1 read).compiles tables dialect
  refine ⟨tokens, rendered, ?_⟩
  rw [value_compile dialect tables, read]
  exact compiled

/-- Whatever compiles has tables and a lenient interpretation. -/
theorem exists_interpret_of_compile {dialect : Dialect} {document : Document} {sql : String}
    (compiled : (document.compile dialect).value = .compiled sql) :
    document.tables ≠ [] ∧ ∃ query, (document.interpret .lenient).value = .ok query := by
  by_cases tables : document.tables = []
  · rw [compile_of_noTables dialect tables] at compiled
    cases compiled
  · cases read : (document.interpret .lenient).value with
    | error defect =>
        rw [compile_of_error dialect tables read] at compiled
        cases compiled
    | ok query => exact ⟨tables, query, rfl⟩

/-- A document degrades when it names no table, or else when its lenient interpretation fails, and
the defect is the reason then. In all other cases it compiles. No document degrades because of a
literal that cannot be rendered. -/
theorem degrades_iff (dialect : Dialect) (document : Document) :
    ((document.compile dialect).value = .degraded .noTables ↔ document.tables = []) ∧
      (∀ defect, (document.compile dialect).value = .degraded (.uninterpretable defect) ↔
        document.tables ≠ [] ∧ (document.interpret .lenient).value = .error defect) ∧
      (∀ sql, (document.compile dialect).value = .compiled sql ↔
        document.tables ≠ [] ∧ ∃ query tokens, (document.interpret .lenient).value = .ok query ∧
          query.statement = .ok tokens ∧ Sql.text dialect tokens = sql) ∧
      ((∃ sql, (document.compile dialect).value = .compiled sql) ↔
        document.tables ≠ [] ∧ ∃ query, (document.interpret .lenient).value = .ok query) ∧
      ∀ error, (document.compile dialect).value ≠ .degraded (.unquotable error) := by
  by_cases tables : document.tables = []
  · simp [compile_of_noTables dialect tables, tables]
  · cases read : (document.interpret .lenient).value with
    | error defect => simp [compile_of_error dialect tables read, tables]
    | ok query =>
        obtain ⟨tokens, rendered, compiled⟩ := compile_of_ok dialect tables read
        simp [compiled, tables, rendered]

end SemanticQuery.Document
