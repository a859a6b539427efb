/-
This file accounts for the joins of a plan. Every join is either the edge of one step or skipped
for one reason.
-/

import Mathlib.Data.List.Nodup
import SemanticQuery.Plan

namespace SemanticQuery.Plan

/-- The table that an edge adds is one of its own. -/
theorem table_of_role_adds {joined : List String} {join : Join} {table : String}
    (adds : role joined join = .adds table) : table = join.table1 ∨ table = join.table2 := by
  unfold role at adds
  split_ifs at adds <;> cases adds <;> simp

/-- An edge that adds a table has a joined one, and both of its tables are joined with it. -/
theorem joined_of_role_adds {joined : List String} {join : Join} {table : String}
    (adds : role joined join = .adds table) :
    (join.table1 ∈ joined ∨ join.table2 ∈ joined) ∧
      join.table1 ∈ table :: joined ∧ join.table2 ∈ table :: joined := by
  unfold role at adds
  split_ifs at adds <;> cases adds <;> simp_all

/-- A pass distributes its edges among the step, the redundant ones and the pending ones. -/
theorem pass_perm (joined : List String) (edges : List Edge) :
    ((pass joined edges).step.toList.map Step.edge ++ (pass joined edges).redundant ++
      (pass joined edges).pending).Perm edges := by
  induction edges with
  | nil => exact .refl _
  | cons edge rest inductionHypothesis =>
      simp only [pass]
      split
      · simp
      · exact (List.perm_middle.append_right _).trans (inductionHypothesis.cons edge)
      · exact List.perm_middle.trans (inductionHypothesis.cons edge)

/-- The step of a pass uses one of its edges. -/
theorem edge_mem_of_pass {joined : List String} {edges : List Edge} {step : Step}
    (found : (pass joined edges).step = some step) : step.edge ∈ edges :=
  (pass_perm joined edges).mem_iff.1 (by simp [found])

/-- The pending edges keep their order. -/
theorem pending_sublist (joined : List String) (edges : List Edge) :
    (pass joined edges).pending.Sublist edges := by
  induction edges with
  | nil => exact .slnil
  | cons edge rest inductionHypothesis =>
      simp only [pass]
      split
      · exact List.sublist_cons_self _ _
      · exact inductionHypothesis.cons _
      · exact inductionHypothesis.cons_cons _

/-- The edge of a pass adds the table of its step. -/
theorem role_of_pass {joined : List String} {edges : List Edge} {step : Step}
    (found : (pass joined edges).step = some step) :
    role joined step.edge.join = .adds step.table := by
  induction edges with
  | nil => cases found
  | cons edge rest inductionHypothesis =>
      simp only [pass] at found
      split at found
      · next adds =>
          cases found
          exact adds
      · exact inductionHypothesis found
      · exact inductionHypothesis found

/-- The growth distributes its edges in the same way, because every pass does. -/
theorem grow_perm (joined : List String) (edges : List Edge) :
    ((grow joined edges).steps.map Step.edge ++ (grow joined edges).redundant ++
      (grow joined edges).pending).Perm edges := by
  fun_induction grow joined edges with
  | case1 joined edges none =>
      simpa [none] using pass_perm joined edges
  | case2 joined edges step found growth inductionHypothesis =>
      have parts := pass_perm joined edges
      rw [found] at parts
      rw [List.perm_iff_count]
      intro edge
      have now := parts.count_eq edge
      have later := inductionHypothesis.count_eq edge
      simp only [growth, Option.toList_some, List.map_cons, List.map_nil, List.count_append,
        List.count_cons, List.count_nil] at now later ⊢
      omega

/-- Every step brings in one of the tables of its edge. -/
theorem table_of_mem_grow (joined : List String) (edges : List Edge) :
    ∀ step ∈ (grow joined edges).steps,
      step.table = step.edge.join.table1 ∨ step.table = step.edge.join.table2 := by
  fun_induction grow joined edges with
  | case1 => simp
  | case2 joined edges step found growth inductionHypothesis =>
      intro other member
      rcases List.mem_cons.1 member with rfl | later
      · exact table_of_role_adds (role_of_pass found)
      · exact inductionHypothesis other later

/-- In the end, the tables of every step's edge are joined. -/
theorem joined_of_mem_grow (joined : List String) (edges : List Edge) :
    ∀ step ∈ (grow joined edges).steps,
      step.edge.join.table1 ∈ joined ++ (grow joined edges).steps.map Step.table ∧
        step.edge.join.table2 ∈ joined ++ (grow joined edges).steps.map Step.table := by
  fun_induction grow joined edges with
  | case1 => simp
  | case2 joined edges step found growth inductionHypothesis =>
      have shift {table : String} :
          table ∈ step.table :: joined ++ growth.steps.map Step.table →
            table ∈ joined ++ (step :: growth.steps).map Step.table :=
        List.perm_middle.mem_iff.2
      intro other member
      rcases List.mem_cons.1 member with rfl | later
      · obtain ⟨_, first, second⟩ := joined_of_role_adds (role_of_pass found)
        exact ⟨shift (List.mem_append_left _ first), shift (List.mem_append_left _ second)⟩
      · exact (inductionHypothesis other later).imp shift shift

/-- A growth starts with an edge from a table that was joined before. -/
theorem exists_joined_of_grow (joined : List String) (edges : List Edge) :
    (grow joined edges).steps ≠ [] → ∃ step ∈ (grow joined edges).steps,
      step.edge.join.table1 ∈ joined ∨ step.edge.join.table2 ∈ joined := by
  fun_cases grow joined edges with
  | case1 none => exact fun some => absurd rfl some
  | case2 step found growth =>
      exact fun _ => ⟨step, List.mem_cons_self, (joined_of_role_adds (role_of_pass found)).1⟩

/-- The position of an edge identifies its join. -/
theorem mem_edges_iff {joins : List Join} {edge : Edge} :
    edge ∈ edges joins ↔ joins[edge.index]? = some edge.join := by
  simp only [edges, List.mem_map, Prod.exists, List.mem_zipIdx_iff_getElem?]
  constructor
  · intro numbered
    obtain ⟨join, index, found, rfl⟩ := numbered
    exact found
  · intro found
    exact ⟨edge.join, edge.index, found, rfl⟩

theorem map_index_edges (joins : List Join) :
    (edges joins).map Edge.index = List.range joins.length := by
  rw [edges, List.map_map, List.range_eq_range', ← List.zipIdx_map_snd]
  rfl

theorem nodup_edges (joins : List Join) : (edges joins).Nodup :=
  List.Nodup.of_map Edge.index (map_index_edges joins ▸ List.nodup_range)

/-- The complete edges of a list of joins take part in its growth. -/
def growth (anchor : String) (joins : List Join) : Growth :=
  grow [anchor] ((edges joins).filter (·.join.isComplete))

/-- The steps, the redundant and the pending edges of a growth have no edge in common. -/
theorem nodup_growth (anchor : String) (joins : List Join) :
    ((growth anchor joins).steps.map Step.edge ++ (growth anchor joins).redundant ++
      (growth anchor joins).pending).Nodup :=
  (grow_perm _ _).nodup_iff.2 ((nodup_edges joins).filter _)

/-- A complete edge has gone one of the three ways. -/
theorem mem_growth_iff (anchor : String) (joins : List Join) (edge : Edge) :
    edge ∈ (growth anchor joins).steps.map Step.edge ∨ edge ∈ (growth anchor joins).redundant ∨
      edge ∈ (growth anchor joins).pending ↔ edge ∈ edges joins ∧ edge.join.isComplete := by
  have parts := (grow_perm [anchor] ((edges joins).filter (·.join.isComplete))).mem_iff
    (a := edge)
  simpa [growth, or_assoc] using parts

/-- An edge is not skipped exactly when it has a step. -/
theorem skipReason?_eq_none_iff {anchor : String} {joins : List Join} {edge : Edge}
    (member : edge ∈ edges joins) :
    skipReason? (growth anchor joins) edge = none ↔
      edge ∈ (growth anchor joins).steps.map Step.edge := by
  have ways := mem_growth_iff anchor joins edge
  have distinct := nodup_growth anchor joins
  rw [List.append_assoc, List.nodup_append'] at distinct
  have apart := distinct.2.2
  unfold skipReason?
  split_ifs with incomplete redundant pending
  · refine iff_of_false (by simp) fun step => ?_
    simp [(ways.1 (.inl step)).2] at incomplete
  · exact iff_of_false (by simp) fun step => apart step (List.mem_append_left _ redundant)
  · exact iff_of_false (by simp) fun step => apart step (List.mem_append_right _ pending)
  · have complete : edge.join.isComplete := by simpa using incomplete
    rcases ways.2 ⟨member, complete⟩ with step | dropped | left
    · exact iff_of_true rfl step
    · exact absurd dropped redundant
    · exact absurd left pending

/-- The edges with a reason are skipped in their order. -/
theorem map_index_filterMap (growth : Growth) (edges : List Edge) :
    (edges.filterMap fun edge =>
      (skipReason? growth edge).map fun reason => Skipped.mk edge.index reason).map
        Skipped.index =
      (edges.filter fun edge => (skipReason? growth edge).isSome).map Edge.index := by
  induction edges with
  | nil => rfl
  | cons edge rest inductionHypothesis =>
      cases found : skipReason? growth edge <;> simp [found, inductionHypothesis]

/-- Every join is either the edge of one step or skipped once. -/
theorem ofJoins_perm (anchor : String) (joins : List Join) :
    ((ofJoins anchor joins).steps.map (·.edge.index) ++
      (ofJoins anchor joins).skipped.map Skipped.index).Perm (List.range joins.length) := by
  let isSkipped (edge : Edge) : Bool := (skipReason? (growth anchor joins) edge).isSome
  have steps : ((ofJoins anchor joins).steps.map Step.edge).Perm
      ((edges joins).filter (!isSkipped ·)) := by
    refine (List.perm_ext_iff_of_nodup (nodup_growth anchor joins).of_append_left.of_append_left
      ((nodup_edges joins).filter _)).2 fun edge => ?_
    rw [List.mem_filter]
    constructor
    · intro step
      have member := ((mem_growth_iff _ _ _).1 (.inl step)).1
      exact ⟨member, by simp [isSkipped, (skipReason?_eq_none_iff member).2 step]⟩
    · intro remaining
      obtain ⟨member, kept⟩ := remaining
      exact (skipReason?_eq_none_iff member).1 (by simpa [isSkipped] using kept)
  have all := (steps.append_right ((edges joins).filter isSkipped)).trans
    (List.perm_append_comm.trans (List.filter_append_perm isSkipped (edges joins)))
  have skipped : (ofJoins anchor joins).skipped.map Skipped.index =
      ((edges joins).filter isSkipped).map Edge.index := map_index_filterMap _ _
  rw [← map_index_edges, skipped]
  simpa [Function.comp_def] using all.map Edge.index

/-- A step has the join of its position, and it brings in one of that join's tables. -/
theorem step_of_mem_ofJoins {anchor : String} {joins : List Join} {step : Step}
    (member : step ∈ (ofJoins anchor joins).steps) :
    joins[step.edge.index]? = some step.edge.join ∧
      (step.table = step.edge.join.table1 ∨ step.table = step.edge.join.table2) := by
  have edge := ((mem_growth_iff _ _ _).1 (.inl (List.mem_map_of_mem (f := Step.edge) member))).1
  exact ⟨mem_edges_iff.1 edge, table_of_mem_grow _ _ step member⟩

/-- The same holds for the plan of a query, which has no steps without an anchor. -/
theorem step_of_mem_ofQuery {query : Query} {step : Step} (member : step ∈ (ofQuery query).steps) :
    query.joins[step.edge.index]? = some step.edge.join ∧
      (step.table = step.edge.join.table1 ∨ step.table = step.edge.join.table2) := by
  unfold ofQuery at member
  split at member
  · cases member
  · exact step_of_mem_ofJoins member

/-- Only complete joins have a step. -/
theorem isComplete_of_mem_ofQuery {query : Query} {step : Step}
    (member : step ∈ (ofQuery query).steps) : step.edge.join.isComplete = true := by
  unfold ofQuery at member
  split at member
  · cases member
  · exact ((mem_growth_iff _ _ _).1 (.inl (List.mem_map_of_mem (f := Step.edge) member))).2

/-- The tables of every step are the anchor or brought in by some step. -/
theorem joined_of_mem_ofQuery {query : Query} {anchor : String} {step : Step}
    (first : query.anchor? = some anchor) (member : step ∈ (ofQuery query).steps) :
    step.edge.join.table1 ∈ anchor :: (ofQuery query).steps.map Step.table ∧
      step.edge.join.table2 ∈ anchor :: (ofQuery query).steps.map Step.table := by
  unfold ofQuery at member ⊢
  rw [first] at member ⊢
  exact joined_of_mem_grow _ _ step member

/-- A plan with steps has one for an edge of the anchor. -/
theorem exists_joined_of_ofQuery {query : Query} {anchor : String}
    (first : query.anchor? = some anchor) (some : (ofQuery query).steps ≠ []) :
    ∃ step ∈ (ofQuery query).steps,
      step.edge.join.table1 = anchor ∨ step.edge.join.table2 = anchor := by
  unfold ofQuery at some ⊢
  rw [first] at some ⊢
  obtain ⟨step, member, joined⟩ := exists_joined_of_grow _ _ some
  exact ⟨step, member, joined.imp List.mem_singleton.1 List.mem_singleton.1⟩

/-- In a query with tables, every join is either the edge of one step or skipped once. -/
theorem ofQuery_perm {query : Query} (tables : query.tables ≠ []) :
    ((ofQuery query).steps.map (·.edge.index) ++
      (ofQuery query).skipped.map Skipped.index).Perm (List.range query.joins.length) := by
  obtain ⟨anchor, rest, named⟩ := List.exists_cons_of_ne_nil tables
  have first : query.anchor? = some anchor := by rw [Query.anchor?, named, List.head?_cons]
  unfold ofQuery
  rw [first]
  exact ofJoins_perm anchor query.joins

/-- If no join is skipped, every join has a step. -/
theorem exists_step_of_skipped_eq_nil {query : Query} (tables : query.tables ≠ [])
    (kept : (ofQuery query).skipped = []) {join : Join} (member : join ∈ query.joins) :
    ∃ step ∈ (ofQuery query).steps, step.edge.join = join := by
  have positions := ofQuery_perm tables
  rw [kept, List.map_nil, List.append_nil] at positions
  obtain ⟨index, found⟩ := List.mem_iff_getElem?.1 member
  obtain ⟨within, _⟩ := List.getElem?_eq_some_iff.1 found
  obtain ⟨step, inside, same⟩ := List.mem_map.1 (positions.mem_iff.2 (List.mem_range.2 within))
  have joined := (step_of_mem_ofQuery inside).1
  rw [same, found] at joined
  exact ⟨step, inside, (Option.some.inj joined).symm⟩

end SemanticQuery.Plan
