/-
This file follows the steps of a plan one by one. Every step starts from a table in front of it, and
all steps together span what complete joins connect to the anchor.
-/

import Mathlib.Data.Set.Card
import SemanticQuery.Proofs.Plan.Reachability

namespace SemanticQuery

/-- A loop joins a table to itself. -/
def Join.IsLoop (join : Join) : Prop := join.table1 = join.table2

instance (join : Join) : Decidable join.IsLoop := inferInstanceAs (Decidable (_ = _))

namespace Plan

/-- The edge of every step adds its table to those that are joined in front of it. -/
inductive Unfolds : List String → List Step → Prop where
  | nil {joined : List String} : Unfolds joined []
  | cons {joined : List String} {step : Step} {rest : List Step}
      (adds : role joined step.edge.join = .adds step.table)
      (later : Unfolds (step.table :: joined) rest) : Unfolds joined (step :: rest)

/-- The steps that are no loops bring in these tables. -/
def newTables (steps : List Step) : List String :=
  (steps.filter (¬ ·.edge.join.IsLoop)).map Step.table

section Unfolding

variable {joined : List String} {steps : List Step}

/-- The steps of a growth unfold, because the step of every pass does. -/
theorem unfolds_grow (joined : List String) (edges : List Edge) :
    Unfolds joined (grow joined edges).steps := by
  fun_induction grow joined edges with
  | case1 => exact .nil
  | case2 joined edges step found growth inductionHypothesis =>
      exact .cons (role_of_pass found) inductionHypothesis

/-- The order and the number of the joined tables have no influence. -/
theorem role_congr {other : List String} (same : ∀ table, table ∈ joined ↔ table ∈ other)
    (join : Join) : role joined join = role other join := by
  unfold role
  simp only [same]

/-- Every step adds its table to those of the steps in front of it. -/
theorem Unfolds.role_eq {before after : List Step} {step : Step}
    (unfolds : Unfolds joined (before ++ step :: after)) :
    role (joined ++ before.map Step.table) step.edge.join = .adds step.table := by
  induction before generalizing joined with
  | nil =>
      rw [List.map_nil, List.append_nil]
      exact match unfolds with | .cons adds _ => adds
  | cons first before inductionHypothesis =>
      cases unfolds with
      | cons _ later =>
          rw [← inductionHypothesis later]
          exact role_congr (fun _ => List.perm_middle.mem_iff) _

/-- A loop adds a joined table, and every other edge adds a new one. -/
theorem mem_iff_isLoop {join : Join} {table : String} (adds : role joined join = .adds table) :
    table ∈ joined ↔ join.IsLoop := by
  unfold Join.IsLoop
  rcases role_eq_adds_iff.1 adds with ⟨first, second, old⟩ | ⟨old, second, new⟩ | ⟨old, first, new⟩
  · exact iff_of_true old (first.trans second.symm)
  · exact iff_of_false new fun same => new (second ▸ same ▸ old)
  · exact iff_of_false new fun same => new (first ▸ same ▸ old)

theorem newTables_cons (step : Step) (rest : List Step) :
    newTables (step :: rest) =
      if step.edge.join.IsLoop then newTables rest else step.table :: newTables rest := by
  unfold newTables
  split_ifs with loop <;> simp [loop]

/-- The new tables are those that were not joined before. -/
theorem Unfolds.mem_newTables_iff (unfolds : Unfolds joined steps) {table : String} :
    table ∈ newTables steps ↔ table ∉ joined ∧ table ∈ steps.map Step.table := by
  induction unfolds with
  | nil => simp [newTables]
  | @cons joined step rest adds _ inductionHypothesis =>
      have old := mem_iff_isLoop adds
      rw [newTables_cons, List.map_cons, List.mem_cons]
      split_ifs with loop
      · have joinedBefore := old.2 loop
        rw [inductionHypothesis, List.mem_cons]
        grind
      · have notJoined := mt old.1 loop
        rw [List.mem_cons, inductionHypothesis, List.mem_cons]
        grind

/-- No table is new twice. -/
theorem Unfolds.nodup_newTables (unfolds : Unfolds joined steps) : (newTables steps).Nodup := by
  induction unfolds with
  | nil => exact .nil
  | @cons joined step rest adds later inductionHypothesis =>
      rw [newTables_cons]
      split_ifs with loop
      · exact inductionHypothesis
      · refine List.nodup_cons.2 ⟨fun again => ?_, inductionHypothesis⟩
        exact (later.mem_newTables_iff.1 again).1 List.mem_cons_self

end Unfolding

/-- The steps of a plan span the tables that complete joins connect to its anchor. A step has the
anchor and the tables of the steps in front of it to start from. -/
structure Spans (plan : Plan) (anchor : String) (joins : List Join) : Prop where
  listed : ∀ step ∈ plan.steps, joins[step.edge.index]? = some step.edge.join
  starts : ∀ before step after, plan.steps = before ++ step :: after → ¬step.edge.join.IsLoop →
    ∃ source ∈ anchor :: before.map Step.table,
      step.edge.join.table1 = source ∧ step.edge.join.table2 = step.table ∨
      step.edge.join.table2 = source ∧ step.edge.join.table1 = step.table
  new : ∀ before step after, plan.steps = before ++ step :: after → ¬step.edge.join.IsLoop →
    step.table ∉ anchor :: before.map Step.table
  loops : ∀ before step after, plan.steps = before ++ step :: after → step.edge.join.IsLoop →
    step.table = step.edge.join.table1 ∧ step.table ∈ anchor :: before.map Step.table
  distinct : (newTables plan.steps).Nodup
  connected : ∀ table, table ∈ newTables plan.steps ↔
    table ≠ anchor ∧ IsReachable anchor joins table
  count : (newTables plan.steps).length =
    {table | table ≠ anchor ∧ IsReachable anchor joins table}.ncard

/-- The steps of every plan do so. -/
theorem spans_ofJoins (anchor : String) (joins : List Join) :
    (ofJoins anchor joins).Spans anchor joins := by
  have unfolds : Unfolds [anchor] (ofJoins anchor joins).steps := unfolds_grow _ _
  have adds {before after : List Step} {step : Step}
      (split : (ofJoins anchor joins).steps = before ++ step :: after) :
      role (anchor :: before.map Step.table) step.edge.join = .adds step.table :=
    (split ▸ unfolds).role_eq
  have connected (table : String) : table ∈ newTables (ofJoins anchor joins).steps ↔
      table ≠ anchor ∧ IsReachable anchor joins table := by
    have joined : table ∈ anchor :: (ofJoins anchor joins).steps.map Step.table ↔
        IsReachable anchor joins table := mem_joinedTables_iff
    rw [unfolds.mem_newTables_iff, ← joined, List.mem_singleton, List.mem_cons]
    tauto
  have distinct := unfolds.nodup_newTables
  refine ⟨?listed, ?starts, ?new, ?loops, distinct, connected, ?count⟩
  case listed => exact fun step member => (step_of_mem_ofJoins member).1
  case starts =>
    intro before step after split notLoop
    rcases role_eq_adds_iff.1 (adds split) with
      ⟨first, second, _⟩ | ⟨old, second, _⟩ | ⟨old, first, _⟩
    · exact absurd (first.trans second.symm) notLoop
    · exact ⟨_, old, .inl ⟨rfl, second⟩⟩
    · exact ⟨_, old, .inr ⟨rfl, first⟩⟩
  case new =>
    intro before step after split notLoop
    exact mt (mem_iff_isLoop (adds split)).1 notLoop
  case loops =>
    intro before step after split loop
    refine ⟨?_, (mem_iff_isLoop (adds split)).2 loop⟩
    rcases table_of_role_adds (adds split) with first | second
    · exact first
    · exact second.trans loop.symm
  case count =>
    have tables : {table | table ≠ anchor ∧ IsReachable anchor joins table} =
        ((newTables (ofJoins anchor joins).steps).toFinset : Set String) := by
      refine Set.ext fun table => ?_
      rw [Finset.mem_coe, List.mem_toFinset, connected]
      rfl
    rw [tables, Set.ncard_coe_finset, List.toFinset_card_of_nodup distinct]

end Plan

end SemanticQuery
