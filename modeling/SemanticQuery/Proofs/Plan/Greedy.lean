/-
This file compares the growth of a plan with a plain rule. The rule takes the first eligible edge
among all that are not used yet, and it never gives one up.
-/

import Mathlib.Data.Finset.Basic
import Mathlib.Data.List.Sort
import SemanticQuery.Proofs.Plan.Scope

namespace SemanticQuery.Plan

/-- An edge is eligible when exactly one of its tables is joined, or when it is a loop at a joined
table. -/
def IsEligible (joined : Finset String) (join : Join) : Prop :=
  Xor (join.table1 ∈ joined) (join.table2 ∈ joined) ∨ join.IsLoop ∧ join.table1 ∈ joined

/-- An eligible edge adds the table on its other side, and a loop adds its own table. -/
def added (joined : Finset String) (join : Join) : String :=
  if join.table1 ∈ joined then join.table2 else join.table1

/-- The first eligible edge has the smallest position among those that are not used. -/
structure IsFirst (joined : Finset String) (unused : Finset Edge) (edge : Edge) : Prop where
  available : edge ∈ unused
  eligible : IsEligible joined edge.join
  least : ∀ other ∈ unused, IsEligible joined other.join → edge.index ≤ other.index

/-- A run takes the first eligible edge and joins the table that it adds, again and again. It stops
only when no edge is eligible. -/
inductive GreedyRun : Finset String → Finset Edge → List Step → Prop where
  | stop {joined : Finset String} {unused : Finset Edge}
      (none : ∀ edge ∈ unused, ¬IsEligible joined edge.join) : GreedyRun joined unused []
  | take {joined : Finset String} {unused : Finset Edge} {edge : Edge} {rest : List Step}
      (first : IsFirst joined unused edge)
      (later : GreedyRun (insert (added joined edge.join) joined) (unused.erase edge) rest) :
      GreedyRun joined unused (⟨edge, added joined edge.join⟩ :: rest)

section Passes

variable {joined : List String} {edges : List Edge}

/-- An edge adds a table exactly when it is eligible. -/
theorem role_eq_adds_iff_isEligible {join : Join} {table : String} :
    role joined join = .adds table ↔
      IsEligible joined.toFinset join ∧ added joined.toFinset join = table := by
  unfold role IsEligible added Join.IsLoop Xor
  simp only [List.mem_toFinset]
  split_ifs <;> simp_all

/-- Both tables of a redundant edge stay joined. -/
theorem role_cons_redundant {join : Join} (table : String)
    (redundant : role joined join = .redundant) : role (table :: joined) join = .redundant := by
  obtain ⟨first, second, different⟩ := role_eq_redundant_iff.1 redundant
  exact role_eq_redundant_iff.2
    ⟨List.mem_cons_of_mem _ first, List.mem_cons_of_mem _ second, different⟩

/-- A pass finds a step when there is an edge that adds a table, and takes the first such edge. -/
theorem index_le_of_pass {step : Step} (sorted : edges.Pairwise (·.index < ·.index))
    (found : (pass joined edges).step = some step) {other : Edge} (member : other ∈ edges)
    {table : String} (adds : role joined other.join = .adds table) :
    step.edge.index ≤ other.index := by
  induction edges with
  | nil => cases found
  | cons edge rest inductionHypothesis =>
      obtain ⟨smallest, later⟩ := List.pairwise_cons.1 sorted
      simp only [pass] at found
      rcases List.mem_cons.1 member with rfl | behind
      · rw [adds] at found
        cases found
        exact Nat.le_refl _
      · split at found
        · cases found
          exact (smallest other behind).le
        · exact inductionHypothesis later found behind
        · exact inductionHypothesis later found behind

/-- The edges of a growth stand for those that the rule has not used. The growth has given up only
redundant ones. -/
structure Represents (joined : List String) (edges : List Edge) (unused : Finset Edge) : Prop where
  sorted : edges.Pairwise (·.index < ·.index)
  inside : ∀ edge ∈ edges, edge ∈ unused
  givenUp : ∀ edge ∈ unused, edge ∉ edges → role joined edge.join = .redundant

namespace Represents

variable {unused : Finset Edge} {step : Step}

/-- Only an edge that the growth has kept can be eligible. -/
theorem mem_of_adds (represents : Represents joined edges unused) {edge : Edge} {table : String}
    (member : edge ∈ unused) (adds : role joined edge.join = .adds table) : edge ∈ edges := by
  by_contra absent
  rw [represents.givenUp edge member absent] at adds
  cases adds

/-- A pass without a step leaves nothing to the rule. -/
theorem not_isEligible (represents : Represents joined edges unused)
    (none : (pass joined edges).step = none) :
    ∀ edge ∈ unused, ¬IsEligible joined.toFinset edge.join := by
  intro edge member eligible
  have adds := role_eq_adds_iff_isEligible.2 ⟨eligible, rfl⟩
  have parts := (pass_perm joined edges).mem_iff.2 (represents.mem_of_adds member adds)
  rw [none] at parts
  rcases List.mem_append.1 parts with redundant | pending
  · rw [role_of_mem_redundant edge redundant] at adds
    cases adds
  · rw [role_of_mem_pending none edge pending] at adds
    cases adds

/-- The step of a pass is the one of the rule. -/
theorem isFirst (represents : Represents joined edges unused)
    (found : (pass joined edges).step = some step) :
    IsFirst joined.toFinset unused step.edge ∧
      added joined.toFinset step.edge.join = step.table := by
  obtain ⟨eligible, table⟩ := role_eq_adds_iff_isEligible.1 (role_of_pass found)
  refine ⟨⟨represents.inside _ (edge_mem_of_pass found), eligible, ?_⟩, table⟩
  intro other unusedOther otherEligible
  have adds := role_eq_adds_iff_isEligible.2 ⟨otherEligible, rfl⟩
  exact index_le_of_pass represents.sorted found (represents.mem_of_adds unusedOther adds) adds

/-- After the step of a pass, the pending edges stand for the other unused ones. -/
theorem next (represents : Represents joined edges unused)
    (found : (pass joined edges).step = some step) :
    Represents (step.table :: joined) (pass joined edges).pending (unused.erase step.edge) := by
  have pending := pending_sublist joined edges
  have parts := pass_perm joined edges
  rw [found] at parts
  have distinct : edges.Nodup :=
    .of_map Edge.index ((List.pairwise_map.2 represents.sorted).imp Nat.ne_of_lt)
  have apart := List.nodup_append'.1 (parts.nodup_iff.2 distinct)
  refine ⟨represents.sorted.sublist pending, ?inside, ?givenUp⟩
  case inside =>
    intro edge member
    refine Finset.mem_erase.2 ⟨fun same => ?_, represents.inside edge (pending.subset member)⟩
    exact apart.2.2 (by simp [same]) member
  case givenUp =>
    intro edge member absent
    obtain ⟨different, unusedEdge⟩ := Finset.mem_erase.1 member
    refine role_cons_redundant _ ?_
    -- The edge was given up by this pass or by one before.
    by_cases kept : edge ∈ edges
    · have way := parts.mem_iff.2 kept
      have redundant : edge ∈ (pass joined edges).redundant := by
        simpa [different, absent] using way
      exact role_of_mem_redundant edge redundant
    · exact represents.givenUp edge unusedEdge kept

end Represents

/-- The steps of a growth are those of the rule, whatever redundant edges it has given up before. -/
theorem greedyRun_grow (joined : List String) (edges : List Edge) :
    ∀ unused, Represents joined edges unused →
      GreedyRun joined.toFinset unused (grow joined edges).steps := by
  fun_induction grow joined edges with
  | case1 joined edges none =>
      intro unused represents
      exact .stop (represents.not_isEligible none)
  | case2 joined edges step found growth inductionHypothesis =>
      intro unused represents
      obtain ⟨first, table⟩ := represents.isFirst found
      have later := inductionHypothesis _ (represents.next found)
      rw [List.toFinset_cons, ← table] at later
      have run := GreedyRun.take first later
      rw [table] at run
      exact run

end Passes

/-- More edges are available, and the additional ones stand behind all others. -/
structure Continues (unused more : Finset Edge) : Prop where
  inside : unused ⊆ more
  behind : ∀ edge ∈ unused, ∀ other ∈ more, other ∉ unused → edge.index < other.index
  positions : Set.InjOn Edge.index more

section Rule

variable {joined : Finset String} {unused more : Finset Edge}

/-- This remains true when an edge is used. -/
theorem Continues.erase (continues : Continues unused more) (edge : Edge) :
    Continues (unused.erase edge) (more.erase edge) where
  inside := Finset.erase_subset_erase edge continues.inside
  behind other member another inside absent := by
    obtain ⟨different, inside⟩ := Finset.mem_erase.1 inside
    refine continues.behind other (Finset.mem_of_mem_erase member) another inside fun unused => ?_
    exact absent (Finset.mem_erase.2 ⟨different, unused⟩)
  positions := continues.positions.mono (Finset.coe_subset.2 (Finset.erase_subset _ _))

/-- Additional edges have to wait until none of the others is eligible. -/
theorem Continues.isFirst_eq (continues : Continues unused more) {edge other : Edge}
    (first : IsFirst joined unused edge) (firstOfMore : IsFirst joined more other) :
    other = edge := by
  have available := continues.inside first.available
  have before := firstOfMore.least edge available first.eligible
  have member : other ∈ unused := by
    by_contra absent
    have after := continues.behind edge first.available other firstOfMore.available absent
    exact Nat.not_lt.2 before after
  have after := first.least other member firstOfMore.eligible
  exact continues.positions firstOfMore.available available (Nat.le_antisymm before after)

/-- With more edges, a run goes on where it stopped without them. -/
theorem GreedyRun.isPrefix {steps longer : List Step} (run : GreedyRun joined unused steps)
    (continues : Continues unused more) (runOfMore : GreedyRun joined more longer) :
    steps <+: longer := by
  induction run generalizing more longer with
  | stop => exact List.nil_prefix
  | take first _ inductionHypothesis =>
      cases runOfMore with
      | stop none => exact absurd first.eligible (none _ (continues.inside first.available))
      | take firstOfMore later =>
          cases continues.isFirst_eq first firstOfMore
          exact List.cons_prefix_cons.2 ⟨rfl, inductionHypothesis (continues.erase _) later⟩

/-- The rule leaves no choice. -/
theorem GreedyRun.unique {steps others : List Step} (positions : Set.InjOn Edge.index unused)
    (run : GreedyRun joined unused steps) (other : GreedyRun joined unused others) :
    steps = others := by
  have continues : Continues unused unused :=
    ⟨Finset.Subset.refl _, fun _ _ _ inside absent => absurd inside absent, positions⟩
  have forward := run.isPrefix continues other
  have backward := other.isPrefix continues run
  exact forward.eq_of_length (Nat.le_antisymm forward.length_le backward.length_le)

end Rule

/-- The complete edges of a list of joins are those that the rule may use. -/
def completeEdges (joins : List Join) : Finset Edge :=
  ((edges joins).filter (·.join.isComplete)).toFinset

theorem mem_completeEdges_iff {joins : List Join} {edge : Edge} :
    edge ∈ completeEdges joins ↔
      joins[edge.index]? = some edge.join ∧ edge.join.isComplete = true := by
  rw [completeEdges, List.mem_toFinset, List.mem_filter, mem_edges_iff]

/-- No two edges have the same position. -/
theorem injOn_index (joins : List Join) :
    Set.InjOn Edge.index (completeEdges joins : Set Edge) := by
  intro first inFirst second inSecond same
  have firstJoin := (mem_completeEdges_iff.1 inFirst).1
  have secondJoin := (mem_completeEdges_iff.1 inSecond).1
  rw [same, secondJoin] at firstJoin
  cases first
  cases second
  simp_all

/-- The edges are numbered in their order. -/
theorem pairwise_index_edges (joins : List Join) :
    (edges joins).Pairwise (·.index < ·.index) := by
  rw [← List.pairwise_map (f := Edge.index), map_index_edges]
  exact List.pairwise_lt_range

/-- A plan follows the rule from its anchor. -/
theorem greedyRun_ofJoins (anchor : String) (joins : List Join) :
    GreedyRun {anchor} (completeEdges joins) (ofJoins anchor joins).steps := by
  refine greedyRun_grow [anchor] _ _ ⟨?_, ?_, ?_⟩
  · exact (pairwise_index_edges joins).filter _
  · exact fun edge member => List.mem_toFinset.2 member
  · exact fun edge member absent => absurd (List.mem_toFinset.1 member) absent

/-- A plan has exactly the steps that the rule takes from its anchor, in this order. It ends,
because there are no more steps than joins. -/
theorem greedyRun_iff_ofJoins (anchor : String) (joins : List Join) :
    (∀ steps, GreedyRun {anchor} (completeEdges joins) steps ↔
      steps = (ofJoins anchor joins).steps) ∧
      (ofJoins anchor joins).steps.length ≤ joins.length := by
  have follows := greedyRun_ofJoins anchor joins
  constructor
  · intro steps
    constructor
    · exact fun run => run.unique (injOn_index joins) follows
    · rintro rfl
      exact follows
  · have positions := (ofJoins_perm anchor joins).length_eq
    rw [List.length_append, List.length_map, List.length_range] at positions
    exact Nat.le.intro (by simpa using positions)

end SemanticQuery.Plan
