/-
This file takes the skipped parts out of a query. Its statement does not change, and neither does
the reason for which it degrades.
-/

import SemanticQuery.Proofs.Plan.Replanning
import SemanticQuery.Proofs.Statement.Dialects
import SemanticQuery.Proofs.Statement.Unquotable

namespace SemanticQuery

namespace Clause

/-- Empty texts are left out of the fragments anyway. -/
theorem fragments_filter (texts : List String) :
    fragments (texts.filter (· ≠ "")) = fragments texts := by
  simp [fragments]

theorem select_filter (columns : List String) :
    select (columns.filter (· ≠ "")) = select columns := by
  rw [select, fragments_filter]
  rfl

theorem groupBy_filter (columns : Option (List String)) :
    groupBy (columns.map (·.filter (· ≠ ""))) = groupBy columns := by
  cases columns with
  | none => rfl
  | some columns =>
      rw [groupBy, Option.map_some, Option.getD_some, fragments_filter]
      rfl

theorem orderBy_filter (terms : Option (List OrderTerm)) :
    orderBy (terms.map (·.filter (·.column ≠ ""))) = orderBy terms := by
  cases terms with
  | none => rfl
  | some terms => simp [orderBy]

/-- A condition that cannot be rendered is not looked at. -/
theorem predicates_filter (conditions : List Condition) :
    predicates (conditions.filter Condition.isRenderable) = predicates conditions := by
  induction conditions with
  | nil => rfl
  | cons condition rest inductionHypothesis =>
      cases renderable : condition.isRenderable with
      | true =>
          rw [List.filter_cons_of_pos renderable, predicates, predicates, inductionHypothesis]
      | false =>
          have skipped : predicate? condition = .ok none := by simp [predicate?, renderable]
          rw [List.filter_cons_of_neg (by simp [renderable]), inductionHypothesis, predicates,
            skipped]
          exact (bind_pure _).symm

/-- The clause of the joins does not depend on their positions. -/
theorem joins_congr {steps others : List Plan.Step}
    (same : others.map Plan.Step.joining = steps.map Plan.Step.joining) :
    joins others = joins steps := by
  have rendered (steps : List Plan.Step) : steps.map join =
      (steps.map Plan.Step.joining).map fun pair => join ⟨⟨0, pair.1⟩, pair.2⟩ := by
    rw [List.map_map]
    rfl
  have empty : others.isEmpty = steps.isEmpty := by
    rw [← List.isEmpty_map (f := Plan.Step.joining), same, List.isEmpty_map]
  rw [joins, joins, empty, rendered others, same, ← rendered steps]

end Clause

namespace Query

/-- A trimmed query has only the parts that are not skipped. If any join is used, it has the joins
of the plan in their order there. -/
def trimmed (query : Query) : Query :=
  { query with
    columns := query.columns.filter (· ≠ "")
    conditions := query.conditions.filter Condition.isRenderable
    groupBy := query.groupBy.map (·.filter (· ≠ ""))
    orderBy := query.orderBy.map (·.filter (·.column ≠ ""))
    joins :=
      if (Plan.ofQuery query).steps.isEmpty then query.joins
      else (Plan.ofQuery query).steps.map (·.edge.join) }

/-- The joins that remain are planned as before. -/
theorem map_joining_trimmed (query : Query) :
    (Plan.ofQuery query.trimmed).steps.map Plan.Step.joining =
      (Plan.ofQuery query).steps.map Plan.Step.joining := by
  cases first : query.anchor? with
  | none =>
      have firstTrimmed : query.trimmed.anchor? = none := first
      rw [Plan.ofQuery, Plan.ofQuery, first, firstTrimmed]
  | some anchor =>
      have firstTrimmed : query.trimmed.anchor? = some anchor := first
      have plan : Plan.ofQuery query = .ofJoins anchor query.joins := by rw [Plan.ofQuery, first]
      have trimmedPlan : Plan.ofQuery query.trimmed = .ofJoins anchor query.trimmed.joins := by
        rw [Plan.ofQuery, firstTrimmed]
      rw [trimmedPlan, plan, trimmed, plan]
      dsimp only
      split
      · rfl
      · rw [Plan.ofJoins_steps, Plan.map_joining_renumber]

/-- A trimmed query has joins when the query has some, even if none of them is used. -/
theorem isEmpty_joins_trimmed (query : Query) :
    query.trimmed.joins.isEmpty = query.joins.isEmpty := by
  unfold trimmed
  dsimp only
  split
  · rfl
  · next some =>
      obtain ⟨step, inside⟩ := List.exists_mem_of_ne_nil _ (mt List.isEmpty_iff.2 some)
      have listed := List.mem_of_getElem? (Plan.step_of_mem_ofQuery inside).1
      rw [List.isEmpty_map, Bool.eq_false_iff.2 some,
        List.isEmpty_eq_false_iff.2 (List.ne_nil_of_mem listed)]

/-- No clause depends on the skipped parts. -/
theorem statement_trimmed (query : Query) : query.trimmed.statement = query.statement := by
  have conditions : Clause.where query.trimmed.conditions = Clause.where query.conditions := by
    rw [Clause.where, Clause.where]
    exact congrArg (· >>= _) (Clause.predicates_filter query.conditions)
  have select : Clause.select query.trimmed.columns = Clause.select query.columns :=
    Clause.select_filter _
  have groupBy : Clause.groupBy query.trimmed.groupBy = Clause.groupBy query.groupBy :=
    Clause.groupBy_filter _
  have orderBy : Clause.orderBy query.trimmed.orderBy = Clause.orderBy query.orderBy :=
    Clause.orderBy_filter _
  rw [statement, statement, clauses, clauses, conditions, select, isEmpty_joins_trimmed,
    Clause.joins_congr (map_joining_trimmed query), groupBy, orderBy]
  rfl

/-- The parts of a query that are skipped have no influence on its outcome. The joins of a plan are
planned again with the same steps, and none of them is skipped. If the doubles of the conditions
that are not skipped are finite, the query does not degrade. -/
theorem compile_trimmed (query : Query) (dialect : Dialect) :
    (query.trimmed.compile dialect).value = (query.compile dialect).value ∧
    (∀ anchor joins,
      (Plan.ofJoins anchor ((Plan.ofJoins anchor joins).steps.map (·.edge.join))).steps.map
          Plan.Step.joining = (Plan.ofJoins anchor joins).steps.map Plan.Step.joining ∧
        (Plan.ofJoins anchor ((Plan.ofJoins anchor joins).steps.map (·.edge.join))).skipped = []) ∧
    (query.tables ≠ [] → query.trimmed.IsFinite →
      (query.compile dialect).value.isDegraded = false) := by
  have same := statement_trimmed query
  refine ⟨?outcome, fun anchor joins => ?replanned, fun tables finite => ?finite⟩
  case outcome =>
    cases outcome : (query.compile dialect).value with
    | compiled sql =>
        rw [compile_eq_compiled_iff, ← same] at outcome
        exact compile_eq_compiled_iff.2 outcome
    | degraded reason =>
        rw [compile_eq_degraded_iff, ← same] at outcome
        exact compile_eq_degraded_iff.2 outcome
  case replanned =>
    rw [Plan.ofJoins_steps]
    exact ⟨Plan.map_joining_renumber _, rfl⟩
  case finite =>
    obtain ⟨tokens, rendered⟩ := finite.statement
    rw [same] at rendered
    rw [compile_eq_compiled_iff.2 ⟨tables, tokens, rendered, rfl⟩]
    rfl

/-- This number must not reach a statement. -/
def infinity : Float := .ofBits 0x7FF0000000000000

/-- This query has parts of every kind that are skipped, and its joins are not in the order of its
plan. -/
def wasteful : Query where
  tables := ["a", "x"]
  columns := ["", "id"]
  conditions := [⟨"", .equal, some (.scalar (.float infinity)), none⟩,
    ⟨"n", .oneOf, some (.list []), none⟩, ⟨"n", .greater, some (.scalar .null), none⟩]
  aggregations := []
  joins := [⟨.inner, "b", "c", "b.id = c.b"⟩, ⟨.left, "a", "b", "a.id = b.a"⟩,
    ⟨.inner, "b", "a", "b.x = a.x"⟩, ⟨.inner, "x", "y", "x.id = y.x"⟩,
    ⟨.inner, "a", "a", "p.id = q.id"⟩]
  orderBy := some [⟨"", .ascending⟩, ⟨"id", .descending⟩]
  groupBy := some ["", ""]
  limit := none

/-- Three of the joins remain, in another order, and the infinite number is gone. -/
theorem compile_trimmed_wasteful :
    infinity.isFinite = false ∧ .float infinity ∈ wasteful.scalars ∧
      wasteful.tables ≠ [] ∧ wasteful.trimmed.IsFinite ∧
      wasteful.trimmed.joins = [⟨.left, "a", "b", "a.id = b.a"⟩,
        ⟨.inner, "b", "c", "b.id = c.b"⟩, ⟨.inner, "a", "a", "p.id = q.id"⟩] ∧
      (wasteful.trimmed.compile .mysql).value = (wasteful.compile .mysql).value ∧
      (wasteful.compile .mysql).value.isDegraded = false := by
  have tables : wasteful.tables ≠ [] := by decide
  have scalars : wasteful.trimmed.scalars = [.null] := by decide +kernel
  have finite : wasteful.trimmed.IsFinite := by
    intro number inside
    rw [scalars] at inside
    simp at inside
  obtain ⟨same, _, compiles⟩ := compile_trimmed wasteful .mysql
  exact ⟨by decide +kernel, List.mem_cons_self, tables, finite, by decide +kernel, same,
    compiles tables finite⟩

end Query

end SemanticQuery
