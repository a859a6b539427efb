/-
This file plans the joins of a plan's own steps. They come in an order in which every one of them
can be used at once, so nothing is moved and nothing is skipped.
-/

import SemanticQuery.Proofs.Plan.Scope

namespace SemanticQuery.Plan

/-- A statement sees only the join of a step and the table that it brings in. -/
def Step.joining (step : Step) : Join × String := (step.edge.join, step.table)

/-- The positions of the joins are those of the steps. -/
def renumber (steps : List Step) : List Step :=
  steps.zipIdx.map fun pair => ⟨⟨pair.2, pair.1.edge.join⟩, pair.1.table⟩

theorem map_edge_renumber (steps : List Step) :
    (renumber steps).map Step.edge = edges (steps.map (·.edge.join)) := by
  simp [renumber, edges, List.zipIdx_map]

theorem map_joining_renumber (steps : List Step) :
    (renumber steps).map Step.joining = steps.map Step.joining := by
  have numbered : (renumber steps).map Step.joining =
      (steps.zipIdx.map Prod.fst).map Step.joining := by
    rw [renumber, List.map_map, List.map_map]
    rfl
  rw [numbered, List.zipIdx_map_fst]

variable {joined : List String} {steps : List Step}

/-- The positions of the joins have no influence on the order of the steps. -/
theorem Unfolds.congr {others : List Step} (unfolds : Unfolds joined steps)
    (same : others.map Step.joining = steps.map Step.joining) : Unfolds joined others := by
  induction unfolds generalizing others with
  | nil =>
      rw [List.map_eq_nil_iff.1 same]
      exact .nil
  | @cons joined step rest adds _ inductionHypothesis =>
      obtain ⟨other, others, rfl, head, tail⟩ := List.map_eq_cons_iff.1 same
      obtain ⟨join, table⟩ := Prod.mk.inj head
      refine .cons ?_ (table ▸ inductionHypothesis tail)
      rw [join, adds, table]

/-- Steps that unfold are found one after the other, each by a pass of its own. -/
theorem grow_of_unfolds (unfolds : Unfolds joined steps) :
    grow joined (steps.map Step.edge) = ⟨steps, [], []⟩ := by
  induction unfolds with
  | nil => simp [grow, pass]
  | @cons joined step rest adds _ inductionHypothesis =>
      have first : pass joined ((step :: rest).map Step.edge) =
          ⟨[], some step, rest.map Step.edge⟩ := by
        rw [List.map_cons, pass, adds]
      rw [grow]
      split
      · next none =>
          rw [first] at none
          cases none
      · next found =>
          rw [first] at found
          cases found
          rw [first, inductionHypothesis]
          rfl

/-- The joins of a plan's steps are planned in the order of these steps. -/
theorem ofJoins_steps (anchor : String) (joins : List Join) :
    ofJoins anchor ((ofJoins anchor joins).steps.map (·.edge.join)) =
      ⟨renumber (ofJoins anchor joins).steps, []⟩ := by
  have unfolds : Unfolds [anchor] (ofJoins anchor joins).steps := unfolds_grow _ _
  let used := (ofJoins anchor joins).steps.map (·.edge.join)
  have complete : ∀ edge ∈ edges used, edge.join.isComplete = true := by
    intro edge member
    have listed := List.mem_of_getElem? (mem_edges_iff.1 member)
    obtain ⟨step, inside, same⟩ := List.mem_map.1 listed
    have way := List.mem_map_of_mem (f := Step.edge) inside
    exact same ▸ ((mem_growth_iff anchor joins step.edge).1 (.inl way)).2
  have steps : (ofJoins anchor used).steps = renumber (ofJoins anchor joins).steps := by
    change (grow [anchor] ((edges used).filter _)).steps = _
    rw [List.filter_eq_self.2 complete, ← map_edge_renumber,
      grow_of_unfolds (unfolds.congr (map_joining_renumber _))]
  -- There are as many steps as joins, so nothing remains to be skipped.
  have skipped : (ofJoins anchor used).skipped = [] := by
    have positions := (ofJoins_perm anchor used).length_eq
    rw [steps] at positions
    simpa [renumber, used] using positions
  exact congrArg₂ Plan.mk steps skipped

end SemanticQuery.Plan
