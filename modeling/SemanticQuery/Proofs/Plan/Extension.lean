/-
This file adds joins at the end of a list. The plan goes on where it ended without them, and only
joins that were out of reach can change their place in it.
-/

import SemanticQuery.Proofs.Plan.Greedy

namespace SemanticQuery.Plan

variable {anchor : String} {joins extra : List Join}

/-- Additional joins leave every position as it is. -/
theorem mem_edges_append (extra : List Join) {edge : Edge} (member : edge ∈ edges joins) :
    edge ∈ edges (joins ++ extra) := by
  have found := mem_edges_iff.1 member
  obtain ⟨within, _⟩ := List.getElem?_eq_some_iff.1 found
  exact mem_edges_iff.2 ((List.getElem?_append_left within).trans found)

/-- The edges of additional joins stand behind all others. -/
theorem continues_completeEdges (joins extra : List Join) :
    Continues (completeEdges joins) (completeEdges (joins ++ extra)) where
  inside edge member := by
    obtain ⟨found, complete⟩ := mem_completeEdges_iff.1 member
    have listed := mem_edges_append extra (mem_edges_iff.2 found)
    exact mem_completeEdges_iff.2 ⟨mem_edges_iff.1 listed, complete⟩
  behind edge member other inside absent := by
    obtain ⟨within, _⟩ := List.getElem?_eq_some_iff.1 (mem_completeEdges_iff.1 member).1
    obtain ⟨found, complete⟩ := mem_completeEdges_iff.1 inside
    refine Nat.lt_of_lt_of_le within (Nat.le_of_not_lt fun among => absent ?_)
    rw [List.getElem?_append_left among] at found
    exact mem_completeEdges_iff.2 ⟨found, complete⟩
  positions := injOn_index _

/-- The rule takes the old steps first, because it prefers smaller positions. -/
theorem steps_isPrefix (anchor : String) (joins extra : List Join) :
    (ofJoins anchor joins).steps <+: (ofJoins anchor (joins ++ extra)).steps :=
  (greedyRun_ofJoins anchor joins).isPrefix (continues_completeEdges joins extra)
    (greedyRun_ofJoins anchor (joins ++ extra))

/-- A table that is joined stays joined. -/
theorem mem_joinedTables_append {table : String} (joined : table ∈ joinedTables anchor joins) :
    table ∈ joinedTables anchor (joins ++ extra) :=
  List.cons_subset_cons anchor ((steps_isPrefix anchor joins extra).map Step.table).subset joined

/-- The later steps of a longer plan do not use an edge whose tables the shorter plan has joined
without it. -/
theorem not_step_of_mem_redundant {edge : Edge}
    (redundant : edge ∈ (growth anchor joins).redundant) :
    edge ∉ (growth anchor (joins ++ extra)).steps.map Step.edge := by
  intro stepped
  obtain ⟨step, member, rfl⟩ := List.mem_map.1 stepped
  obtain ⟨more, whole⟩ := steps_isPrefix anchor joins extra
  change (growth anchor joins).steps ++ more = (growth anchor (joins ++ extra)).steps at whole
  rw [← whole] at member
  rcases List.mem_append.1 member with old | new
  · have apart := (List.nodup_append'.1 (List.nodup_append'.1 (nodup_growth anchor joins)).1).2.2
    exact apart (List.mem_map_of_mem old) redundant
  · -- In front of a later step, both tables of the edge are joined already.
    obtain ⟨before, after, rfl⟩ := List.append_of_mem new
    have unfolds : Unfolds [anchor] (growth anchor (joins ++ extra)).steps := unfolds_grow _ _
    rw [← whole, ← List.append_assoc] at unfolds
    obtain ⟨first, second, different⟩ := joined_of_mem_redundant _ _ _ redundant
    have stillRedundant : role ([anchor] ++ ((growth anchor joins).steps ++ before).map Step.table)
        step.edge.join = .redundant := by
      rw [List.map_append, ← List.append_assoc]
      exact role_eq_redundant_iff.2
        ⟨List.mem_append_left _ first, List.mem_append_left _ second, different⟩
    rw [unfolds.role_eq] at stillRedundant
    cases stillRedundant

/-- A redundant edge stays redundant. -/
theorem mem_redundant_append {edge : Edge} (redundant : edge ∈ (growth anchor joins).redundant) :
    edge ∈ (growth anchor (joins ++ extra)).redundant := by
  obtain ⟨listed, complete⟩ := (mem_growth_iff anchor joins edge).1 (.inr (.inl redundant))
  have ways := mem_growth_iff anchor (joins ++ extra) edge
  rcases ways.2 ⟨mem_edges_append extra listed, complete⟩ with step | same | pending
  · exact absurd step (not_step_of_mem_redundant redundant)
  · exact same
  · have joined := (joined_of_mem_growth (.inr redundant)).1
    exact absurd (mem_joinedTables_append joined) (not_joined_of_mem_pending _ _ _ pending).1

/-- An edge that is not out of reach keeps its reason, or it keeps its step. -/
theorem skipReason?_append (extra : List Join) {edge : Edge} (member : edge ∈ edges joins)
    (connected : skipReason? (growth anchor joins) edge ≠ some .disconnected) :
    skipReason? (growth anchor (joins ++ extra)) edge = skipReason? (growth anchor joins) edge := by
  cases found : skipReason? (growth anchor joins) edge with
  | none =>
      have step := (skipReason?_eq_none_iff member).1 found
      have steps := (steps_isPrefix anchor joins extra).map Step.edge
      exact (skipReason?_eq_none_iff (mem_edges_append extra member)).2 (steps.subset step)
  | some reason =>
      cases reason with
      | incomplete =>
          exact skipReason?_eq_some_iff.1.2 (skipReason?_eq_some_iff.1.1 found)
      | redundant =>
          have redundant := skipReason?_eq_some_iff.2.1.1 found
          exact skipReason?_eq_some_iff.2.1.2 (mem_redundant_append redundant)
      | disconnected => exact absurd found connected

/-- A position has a step exactly when there is no reason to skip it. -/
theorem index_mem_steps_iff {index : Nat} {join : Join} (found : joins[index]? = some join) :
    index ∈ (ofJoins anchor joins).steps.map (·.edge.index) ↔
      skipReason? (growth anchor joins) ⟨index, join⟩ = none := by
  have member : Edge.mk index join ∈ edges joins := mem_edges_iff.2 found
  rw [skipReason?_eq_none_iff member]
  constructor
  · intro stepped
    obtain ⟨step, inside, rfl⟩ := List.mem_map.1 stepped
    have same : step.edge.join = join :=
      Option.some.inj ((step_of_mem_ofJoins inside).1.symm.trans found)
    exact same ▸ List.mem_map_of_mem (f := Step.edge) inside
  · exact index_mem_steps

/-- Only joins are skipped. -/
theorem index_lt_of_mem_skipped {skipped : Skipped}
    (member : skipped ∈ (ofJoins anchor joins).skipped) : skipped.index < joins.length := by
  have position := List.mem_append_right ((ofJoins anchor joins).steps.map (·.edge.index))
    (List.mem_map_of_mem (f := Skipped.index) member)
  exact List.mem_range.1 ((ofJoins_perm anchor joins).mem_iff.1 position)

/-- Two plans settle a position alike when both have a step for it, or when both skip it for the
same reason. -/
def SettlesAlike (first second : Plan) (index : Nat) : Prop :=
  (index ∈ first.steps.map (·.edge.index) ↔ index ∈ second.steps.map (·.edge.index)) ∧
    ∀ reason, ⟨index, reason⟩ ∈ first.skipped ↔ ⟨index, reason⟩ ∈ second.skipped

/-- A position that is not out of reach is settled for good. -/
theorem settlesAlike_append {index : Nat} (within : index < joins.length)
    (connected : ⟨index, .disconnected⟩ ∉ (ofJoins anchor joins).skipped) :
    SettlesAlike (ofJoins anchor (joins ++ extra)) (ofJoins anchor joins) index := by
  have found := List.getElem?_eq_getElem within
  have foundLater : (joins ++ extra)[index]? = some joins[index] :=
    (List.getElem?_append_left within).trans found
  rw [mem_skipped_iff found] at connected
  have same := skipReason?_append extra (mem_edges_iff.2 found) connected
  constructor
  · rw [index_mem_steps_iff foundLater, index_mem_steps_iff found, same]
  · intro reason
    rw [mem_skipped_iff foundLater, mem_skipped_iff found, same]

/-- A join that is not out of reach is skipped for the same reason again. -/
theorem mem_skipped_append {skipped : Skipped} (connected : skipped.reason ≠ .disconnected)
    (member : skipped ∈ (ofJoins anchor joins).skipped) :
    skipped ∈ (ofJoins anchor (joins ++ extra)).skipped := by
  have within := index_lt_of_mem_skipped member
  have found := List.getElem?_eq_getElem within
  refine ((settlesAlike_append within fun disconnected => ?_).2 skipped.reason).2 member
  have reason := (mem_skipped_iff found).1 member
  rw [mem_skipped_iff found, reason] at disconnected
  exact connected (Option.some.inj disconnected)

/-- A longer plan goes on where a shorter one for the first joins has ended. Of these joins, only
those that were out of reach may be settled in another way. -/
structure GoesOn (shorter longer : Plan) (count : Nat) : Prop where
  steps : shorter.steps <+: longer.steps
  incomplete : ∀ index, ⟨index, .incomplete⟩ ∈ shorter.skipped →
    ⟨index, .incomplete⟩ ∈ longer.skipped
  redundant : ∀ index, ⟨index, .redundant⟩ ∈ shorter.skipped →
    ⟨index, .redundant⟩ ∈ longer.skipped
  settled : ∀ index < count, ⟨index, .disconnected⟩ ∉ shorter.skipped →
    SettlesAlike longer shorter index

/-- Additional joins never disturb what was planned without them. -/
theorem goesOn_append (anchor : String) (joins extra : List Join) :
    (ofJoins anchor joins).GoesOn (ofJoins anchor (joins ++ extra)) joins.length where
  steps := steps_isPrefix anchor joins extra
  incomplete _ := mem_skipped_append nofun
  redundant _ := mem_skipped_append nofun
  settled _ := settlesAlike_append

end SemanticQuery.Plan
