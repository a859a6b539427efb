/-
This file says what an interpretation is made of. A document is interpreted part by part, and lists
are interpreted item by item.
-/

import Mathlib.Data.List.Forall2
import SemanticQuery.Proofs.Result
import SemanticQuery.Query.Interpretation

namespace SemanticQuery

theorem orDefect_eq_ok_iff {α : Type} {defect : Defect} {option : Option α} {value : α} :
    orDefect defect option = .ok value ↔ option = some value := by
  cases option with
  | none => simp [orDefect]
  | some other => simp [orDefect]

/-- Related items have the same positions. -/
theorem rel_getElem? {α β : Type} {relation : α → β → Prop} {items : List α} {values : List β}
    (related : List.Forall₂ relation items values) (index : Nat) :
    Option.Rel relation items[index]? values[index]? := by
  induction related generalizing index with
  | nil => exact .none
  | cons first _ inductionHypothesis =>
      cases index with
      | zero => exact .some first
      | succ index => exact inductionHypothesis index

namespace Document

variable {α β : Type}

/-- All items are interpreted when each of them is. -/
theorem interpretAll_eq_ok_iff {interpret : α → Except Defect β} {items : List α}
    {values : List β} :
    interpretAll interpret items = .ok values ↔
      List.Forall₂ (fun item value => interpret item = .ok value) items values := by
  induction items generalizing values with
  | nil =>
      rw [List.forall₂_nil_left_iff]
      exact ⟨fun done => (Except.ok.inj done).symm, fun none => congrArg _ none.symm⟩
  | cons item items inductionHypothesis =>
      simp only [interpretAll, bind_eq_ok_iff, pure_eq_ok_iff, inductionHypothesis,
        List.forall₂_cons_left_iff]
      constructor
      · intro read
        obtain ⟨value, first, rest, later, rfl⟩ := read
        exact ⟨value, rest, first, later, rfl⟩
      · intro related
        obtain ⟨value, rest, first, later, rfl⟩ := related
        exact ⟨value, first, rest, later, rfl⟩

/-- Every interpreted value comes from an item. -/
theorem exists_of_forall₂ {relation : α → β → Prop} {items : List α} {values : List β}
    (related : List.Forall₂ relation items values) :
    ∀ value ∈ values, ∃ item ∈ items, relation item value := by
  induction related with
  | nil => simp
  | cons first _ inductionHypothesis =>
      intro value member
      rcases List.mem_cons.1 member with rfl | later
      · exact ⟨_, List.mem_cons_self, first⟩
      · obtain ⟨item, inside, found⟩ := inductionHypothesis value later
        exact ⟨item, List.mem_cons_of_mem _ inside, found⟩

/-- The operator of a condition is read, and its value becomes its operand. -/
theorem Condition.interpret_eq_ok_iff {mode : Mode} {given : Condition}
    {condition : SemanticQuery.Condition} :
    given.interpret mode = .ok condition ↔
      given.operator? mode = some condition.operator ∧ given.operand = .ok condition.operand ∧
        condition.column = given.columnText ∧ condition.table = given.table := by
  simp only [Condition.interpret, bind_eq_ok_iff, pure_eq_ok_iff, orDefect_eq_ok_iff]
  constructor
  · intro interpreted
    obtain ⟨operator, read, operand, found, rfl⟩ := interpreted
    exact ⟨read, found, rfl, rfl⟩
  · intro parts
    obtain ⟨read, found, column, table⟩ := parts
    refine ⟨_, read, _, found, ?_⟩
    rw [← column, ← table]

/-- The parts of a document become the parts of its query. -/
structure Interprets (mode : Mode) (document : Document) (query : Query) : Prop where
  tables : query.tables = document.tables
  columns : query.columns = document.columns
  aggregations : (interpretAggregations mode document.aggregations).value = .ok query.aggregations
  conditions : List.Forall₂ (fun given condition => Condition.interpret mode given = .ok condition)
    document.conditions query.conditions
  joins : List.Forall₂ (fun given join => Join.interpret mode given = .ok join)
    document.joins query.joins
  orderBy : interpretOrder mode document.orderBy = .ok query.orderBy
  groupBy : query.groupBy = document.groupBy
  limit : interpretLimit mode document.limit = .ok query.limit

/-- A document is interpreted exactly when all its parts are. -/
theorem interpret_eq_ok_iff {mode : Mode} {document : Document} {query : Query} :
    (document.interpret mode).value = .ok query ↔ Interprets mode document query := by
  simp only [interpret, Logged.value_bind, Logged.value_pure, interpretRest, bind_eq_ok_iff,
    pure_eq_ok_iff, interpretAll_eq_ok_iff]
  constructor
  · intro interpreted
    obtain ⟨aggregations, read, conditions, compared, joins, related, orderBy, sorted, limit,
      bounded, rfl⟩ := interpreted
    exact ⟨rfl, rfl, read, compared, related, sorted, rfl, bounded⟩
  · intro parts
    obtain ⟨tables, columns, aggregations, conditions, joins, orderBy, groupBy, limit⟩ := parts
    refine ⟨_, aggregations, _, conditions, _, joins, _, orderBy, _, limit, ?_⟩
    rw [← tables, ← columns, ← groupBy]

end Document

end SemanticQuery
