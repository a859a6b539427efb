/-
This file shows that reports and compilations agree. The query of a report is the one that is
compiled, and it never degrades.
-/

import SemanticQuery.Proofs.Interpretation.Finite
import SemanticQuery.Proofs.Interpretation.Lenient
import SemanticQuery.Report

namespace SemanticQuery

/-- A compilation with a strict interpretation compiles the query of that interpretation. -/
theorem Document.compile_eq_compile {document : Document} {query : Query} (dialect : Dialect)
    (tables : document.tables ≠ []) (strict : (document.interpret .strict).value = .ok query) :
    document.compile dialect = query.compile dialect := by
  unfold Document.compile
  rw [if_neg (by simpa using tables), interpret_lenient_eq_pure strict]
  exact pure_bind _ _

namespace Report

/-- A report has the strict interpretation of a document with tables. -/
theorem ofDocument_eq_ok_iff {dialect : Dialect} {document : Document} {report : Report} :
    ofDocument dialect document = .ok report ↔
      document.tables ≠ [] ∧ (document.interpret .strict).value = .ok report.query ∧
        report.warnings = warningsFor dialect report.query := by
  obtain ⟨query, warnings⟩ := report
  unfold ofDocument
  split
  · next empty =>
      have none := List.isEmpty_iff.1 empty
      exact iff_of_false (by simp) fun parts => parts.1 none
  · next tables =>
      have some : document.tables ≠ [] := fun none => tables (List.isEmpty_iff.2 none)
      split
      · next defect failed => simp [failed]
      · next other interpreted =>
          simp only [interpreted, Except.ok.injEq, Report.mk.injEq]
          constructor
          · intro parts
            obtain ⟨rfl, rfl⟩ := parts
            exact ⟨some, rfl, rfl⟩
          · intro parts
            obtain ⟨_, rfl, rfl⟩ := parts
            exact ⟨rfl, rfl⟩

/-- The query of a report is also the lenient interpretation of its document. It is what the
document compiles to, and the outcome is never degraded. Whatever has a strict interpretation has
the same lenient one, report or not. -/
theorem agreement (dialect : Dialect) (document : Document) :
    (∀ report, ofDocument dialect document = .ok report →
      (document.interpret .lenient).value = .ok report.query ∧
        document.compile dialect = report.query.compile dialect ∧
        ∃ sql, (document.compile dialect).value = .compiled sql) ∧
      ∀ query, (document.interpret .strict).value = .ok query →
        (document.interpret .lenient).value = .ok query := by
  have lenient (query : Query) (strict : (document.interpret .strict).value = .ok query) :
      (document.interpret .lenient).value = .ok query :=
    congrArg Logged.value (Document.interpret_lenient_eq_pure strict)
  refine ⟨fun report accepted => ?_, lenient⟩
  obtain ⟨tables, strict, _⟩ := ofDocument_eq_ok_iff.1 accepted
  have same := Document.compile_eq_compile dialect tables strict
  obtain ⟨tokens, _, compiled⟩ :=
    (Document.interpret_eq_ok_iff.1 strict).compiles tables dialect
  exact ⟨lenient _ strict, same, _, same ▸ compiled⟩

/-- This document is spelled canonically throughout, and one of its joins is left out. -/
def canonical : Document where
  tables := ["users", "orders"]
  columns := ["name"]
  conditions := [
    ⟨some "age", some ">=", some (.number (.integer ⟨18, by decide, by decide⟩)), none⟩,
    ⟨some "city", some "IN", some (.array [.string "Oslo", .null]), none⟩]
  aggregations := [⟨some "COUNT", some "id", none⟩]
  joins := [⟨some "LEFT", some "users", some "orders", some "users.id = orders.user"⟩,
    ⟨none, some "users", none, none⟩]
  orderBy := some [⟨some "name", some "DESC"⟩]
  groupBy := none
  limit := some (.string " 10 ")

/-- A document with every kind of keyword has a report and compiles to the query of that report. -/
theorem agreement_canonical :
    ∃ report, ofDocument .mysql canonical = .ok report ∧
      (canonical.interpret .strict).value = .ok report.query ∧
      (canonical.interpret .lenient).value = .ok report.query ∧
      canonical.compile .mysql = report.query.compile .mysql ∧
      ∃ sql, (canonical.compile .mysql).value = .compiled sql := by
  have isOk : (ofDocument .mysql canonical).isOk = true := by decide
  cases accepted : ofDocument .mysql canonical with
  | error failure =>
      rw [accepted] at isOk
      cases isOk
  | ok report =>
      have strict := (ofDocument_eq_ok_iff.1 accepted).2.1
      obtain ⟨reported, interpreted⟩ := agreement .mysql canonical
      exact ⟨report, rfl, strict, interpreted _ strict, (reported report accepted).2⟩

end Report

end SemanticQuery
