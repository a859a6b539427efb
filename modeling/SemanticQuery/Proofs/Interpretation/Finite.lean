/-
This file shows that documents hold finite doubles only, so that the statement of an interpreted
query is always rendered.
-/

import SemanticQuery.Proofs.Interpretation.Inversion
import SemanticQuery.Proofs.Statement.Compiled
import SemanticQuery.Proofs.Statement.Unquotable

namespace SemanticQuery.Document

/-- A double of a document is a number of JSON, and such a number is finite. -/
theorem isFinite_of_interpretScalar {column : String} {value : Json.Value} {number : Float}
    (read : interpretScalar column value = .ok (.float number)) : number.isFinite = true := by
  unfold interpretScalar at read
  split at read <;> cases read
  next finite => exact finite

theorem isFinite_of_interpretValue {column : String} {value : Json.Value} {operand : Operand}
    (read : interpretValue column value = .ok (some operand)) {number : Float}
    (inside : .float number ∈ operand.scalars) : number.isFinite = true := by
  unfold interpretValue at read
  split at read
  · cases read
  · obtain ⟨items, interpreted, same⟩ := map_eq_ok_iff.1 read
    cases same
    obtain ⟨item, _, found⟩ := exists_of_forall₂ (interpretAll_eq_ok_iff.1 interpreted) _ inside
    exact isFinite_of_interpretScalar found
  · obtain ⟨scalar, interpreted, same⟩ := map_eq_ok_iff.1 read
    cases same
    obtain rfl : .float number = scalar := List.mem_singleton.1 inside
    exact isFinite_of_interpretScalar interpreted

/-- Interpreted queries are finite in both modes. -/
theorem Interprets.isFinite {mode : Mode} {document : Document} {query : Query}
    (interprets : Interprets mode document query) : query.IsFinite := by
  intro number inside
  obtain ⟨condition, member, scalar⟩ := List.mem_flatMap.1 inside
  obtain ⟨given, _, interpreted⟩ := exists_of_forall₂ interprets.conditions condition member
  have read := (Condition.interpret_eq_ok_iff.1 interpreted).2.1
  cases present : condition.operand with
  | none =>
      rw [present] at scalar
      cases scalar
  | some operand =>
      rw [present] at read scalar
      unfold Condition.operand at read
      split at read
      · cases read
      · exact isFinite_of_interpretValue read scalar

/-- The query of a document compiles if the document names a table. -/
theorem Interprets.compiles {mode : Mode} {document : Document} {query : Query}
    (interprets : Interprets mode document query) (tables : document.tables ≠ [])
    (dialect : Dialect) :
    ∃ tokens, query.statement = .ok tokens ∧
      (query.compile dialect).value = .compiled (Sql.text dialect tokens) := by
  obtain ⟨tokens, rendered⟩ := interprets.isFinite.statement
  have named : query.tables ≠ [] := interprets.tables ▸ tables
  exact ⟨tokens, rendered, Query.compile_eq_compiled_iff.2 ⟨named, tokens, rendered, rfl⟩⟩

end SemanticQuery.Document
