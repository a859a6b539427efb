/-
This file says when a query compiles, what its statement is, and why it degrades otherwise.
-/

import SemanticQuery.Proofs.Result
import SemanticQuery.Statement.Compilation

namespace SemanticQuery

theorem Outcome.isDegraded_eq_false_iff {outcome : Outcome} :
    outcome.isDegraded = false ↔ ∃ sql, outcome = .compiled sql := by
  cases outcome with
  | compiled sql => exact iff_of_true rfl ⟨sql, rfl⟩
  | degraded reason => exact iff_of_false (by simp [isDegraded, reason?]) (by simp)

namespace Query

/-- A query compiles when it has tables and its literals can be rendered. -/
theorem compile_eq_compiled_iff {dialect : Dialect} {query : Query} {sql : String} :
    (query.compile dialect).value = .compiled sql ↔
      query.tables ≠ [] ∧
        ∃ tokens, query.statement = .ok tokens ∧ Sql.text dialect tokens = sql := by
  unfold compile
  split
  · next empty =>
      have noTables := List.isEmpty_iff.1 empty
      exact iff_of_false (fun compiled => Outcome.noConfusion compiled)
        fun parts => parts.1 noTables
  · next tables =>
      have some : query.tables ≠ [] := fun none => tables (List.isEmpty_iff.2 none)
      cases rendered : query.statement with
      | error error => simp [degrade, Logged.single]
      | ok tokens => simp [some, Logged.single]

/-- A query that does not degrade has the text of its tokens as its statement. -/
theorem isDegraded_compile_eq_false_iff {dialect : Dialect} {query : Query} :
    (query.compile dialect).value.isDegraded = false ↔
      query.tables ≠ [] ∧
        ∃ tokens, query.statement = .ok tokens ∧
          (query.compile dialect).value.sql = Sql.text dialect tokens := by
  rw [Outcome.isDegraded_eq_false_iff]
  constructor
  · intro compiles
    obtain ⟨sql, compiled⟩ := compiles
    obtain ⟨tables, tokens, rendered, rfl⟩ := compile_eq_compiled_iff.1 compiled
    exact ⟨tables, tokens, rendered, congrArg Outcome.sql compiled⟩
  · intro parts
    obtain ⟨tables, tokens, rendered, _⟩ := parts
    exact ⟨_, compile_eq_compiled_iff.2 ⟨tables, tokens, rendered, rfl⟩⟩

/-- The dialect has no influence on whether a query degrades, and why. -/
theorem compile_eq_degraded_iff {dialect : Dialect} {query : Query} {reason : DegradeReason} :
    (query.compile dialect).value = .degraded reason ↔
      (query.tables = [] ∧ reason = .noTables) ∨
      (query.tables ≠ [] ∧
        ∃ error, query.statement = .error error ∧ reason = .unquotable error) := by
  unfold compile
  split
  · next empty => simp [List.isEmpty_iff.1 empty, degrade, Logged.single, eq_comm]
  · next tables =>
      have some : query.tables ≠ [] := fun none => tables (List.isEmpty_iff.2 none)
      cases rendered : query.statement with
      | error error => simp [some, degrade, Logged.single, eq_comm]
      | ok tokens => simp [some, Logged.single]

end Query

end SemanticQuery
