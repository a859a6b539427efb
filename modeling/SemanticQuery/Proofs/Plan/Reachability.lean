/-
This file says which joins of a plan are steps and why the others are skipped. A table is joined in
the end exactly when complete joins lead to it from the anchor.
-/

import Mathlib.Logic.Relation
import SemanticQuery.Proofs.Plan.Accounting

namespace SemanticQuery

/-- The parts of a complete join are not empty. -/
theorem Join.isComplete_eq_false_iff {join : Join} :
    join.isComplete = false ↔ join.table1 = "" ∨ join.table2 = "" ∨ join.condition = "" := by
  simp only [isComplete, Bool.and_eq_false_iff, bne_eq_false_iff_eq, or_assoc]

namespace Plan

/-- A complete join connects its tables in both directions. -/
def Connects (joins : List Join) (first second : String) : Prop :=
  ∃ join ∈ joins, join.isComplete = true ∧
    (join.table1 = first ∧ join.table2 = second ∨ join.table1 = second ∧ join.table2 = first)

/-- A chain of complete joins leads from the anchor to a reachable table. -/
def IsReachable (anchor : String) (joins : List Join) : String → Prop :=
  Relation.ReflTransGen (Connects joins) anchor

/-- A complete join has two reachable tables or none. -/
theorem isReachable_table1_iff {anchor : String} {joins : List Join} {join : Join}
    (member : join ∈ joins) (complete : join.isComplete = true) :
    IsReachable anchor joins join.table1 ↔ IsReachable anchor joins join.table2 := by
  constructor
  · exact fun reached => reached.tail ⟨join, member, complete, .inl ⟨rfl, rfl⟩⟩
  · exact fun reached => reached.tail ⟨join, member, complete, .inr ⟨rfl, rfl⟩⟩

section Growth

variable {joined : List String}

theorem role_eq_redundant_iff {join : Join} :
    role joined join = .redundant ↔
      join.table1 ∈ joined ∧ join.table2 ∈ joined ∧ join.table1 ≠ join.table2 := by
  unfold role
  split_ifs <;> simp_all

theorem role_eq_waits_iff {join : Join} :
    role joined join = .waits ↔ join.table1 ∉ joined ∧ join.table2 ∉ joined := by
  unfold role
  split_ifs <;> simp_all

/-- An edge adds a table that was joined before only if it is its other table as well. -/
theorem role_eq_adds_iff {join : Join} {table : String} :
    role joined join = .adds table ↔
      join.table1 = table ∧ join.table2 = table ∧ table ∈ joined ∨
      join.table1 ∈ joined ∧ join.table2 = table ∧ table ∉ joined ∨
      join.table2 ∈ joined ∧ join.table1 = table ∧ table ∉ joined := by
  unfold role
  split_ifs <;> grind

/-- A pass gives up redundant edges only. -/
theorem role_of_mem_redundant {edges : List Edge} :
    ∀ edge ∈ (pass joined edges).redundant, role joined edge.join = .redundant := by
  induction edges with
  | nil => exact List.forall_mem_nil _
  | cons edge rest inductionHypothesis =>
      simp only [pass]
      split
      · exact List.forall_mem_nil _
      · next redundant => exact List.forall_mem_cons.2 ⟨redundant, inductionHypothesis⟩
      · exact inductionHypothesis

/-- A pass without a step leaves waiting edges only. -/
theorem role_of_mem_pending {edges : List Edge} (none : (pass joined edges).step = none) :
    ∀ edge ∈ (pass joined edges).pending, role joined edge.join = .waits := by
  induction edges with
  | nil => exact List.forall_mem_nil _
  | cons edge rest inductionHypothesis =>
      simp only [pass] at none ⊢
      split at none
      · cases none
      · exact inductionHypothesis none
      · next waits => exact List.forall_mem_cons.2 ⟨waits, inductionHypothesis none⟩

/-- The two tables of an edge that a pass gives up are joined whatever is added later, and they are
different. -/
theorem joined_of_mem_pass (added : List String) {edges : List Edge} :
    ∀ edge ∈ (pass joined edges).redundant,
      edge.join.table1 ∈ joined ++ added ∧ edge.join.table2 ∈ joined ++ added ∧
        edge.join.table1 ≠ edge.join.table2 := by
  intro edge member
  obtain ⟨first, second, different⟩ := role_eq_redundant_iff.1 (role_of_mem_redundant edge member)
  exact ⟨List.mem_append_left _ first, List.mem_append_left _ second, different⟩

/-- In the end, the two tables of a redundant edge are joined, and they are different. -/
theorem joined_of_mem_redundant (joined : List String) (edges : List Edge) :
    ∀ edge ∈ (grow joined edges).redundant,
      edge.join.table1 ∈ joined ++ (grow joined edges).steps.map Step.table ∧
        edge.join.table2 ∈ joined ++ (grow joined edges).steps.map Step.table ∧
        edge.join.table1 ≠ edge.join.table2 := by
  fun_induction grow joined edges with
  | case1 => exact joined_of_mem_pass _
  | case2 joined edges step found growth inductionHypothesis =>
      intro edge member
      rcases List.mem_append.1 member with now | later
      · exact joined_of_mem_pass _ edge now
      · obtain ⟨first, second, different⟩ := inductionHypothesis edge later
        exact ⟨List.perm_middle.mem_iff.2 first, List.perm_middle.mem_iff.2 second, different⟩

/-- In the end, no table of a pending edge is joined. -/
theorem not_joined_of_mem_pending (joined : List String) (edges : List Edge) :
    ∀ edge ∈ (grow joined edges).pending,
      edge.join.table1 ∉ joined ++ (grow joined edges).steps.map Step.table ∧
        edge.join.table2 ∉ joined ++ (grow joined edges).steps.map Step.table := by
  fun_induction grow joined edges with
  | case1 joined edges none =>
      intro edge member
      simpa using role_eq_waits_iff.1 (role_of_mem_pending none edge member)
  | case2 joined edges step found growth inductionHypothesis =>
      intro edge member
      obtain ⟨first, second⟩ := inductionHypothesis edge member
      exact ⟨mt List.perm_middle.mem_iff.1 first, mt List.perm_middle.mem_iff.1 second⟩

/-- What the tables of an edge have in common spreads from the joined tables to the new ones. -/
theorem spreads_of_grow {holds : String → Prop} (joined : List String) (edges : List Edge)
    (spreads : ∀ edge ∈ edges, holds edge.join.table1 ↔ holds edge.join.table2)
    (start : ∀ table ∈ joined, holds table) :
    ∀ step ∈ (grow joined edges).steps, holds step.table := by
  fun_induction grow joined edges with
  | case1 => exact List.forall_mem_nil _
  | case2 joined edges step found growth inductionHypothesis =>
      have listed := edge_mem_of_pass found
      have adds := role_of_pass found
      have new : holds step.table := by
        have both : holds step.edge.join.table1 ∧ holds step.edge.join.table2 := by
          rcases (joined_of_role_adds adds).1 with first | second
          · exact ⟨start _ first, (spreads _ listed).1 (start _ first)⟩
          · exact ⟨(spreads _ listed).2 (start _ second), start _ second⟩
        rcases table_of_role_adds adds with same | same
        · exact same ▸ both.1
        · exact same ▸ both.2
      have later : ∀ edge ∈ (pass joined edges).pending,
          holds edge.join.table1 ↔ holds edge.join.table2 := fun edge member =>
        spreads edge ((pending_sublist joined edges).subset member)
      exact List.forall_mem_cons.2
        ⟨new, inductionHypothesis later (List.forall_mem_cons.2 ⟨new, start⟩)⟩

end Growth

section Classification

variable {anchor : String} {joins : List Join}

/-- The tables that a plan joins are the anchor and those that its steps bring in. -/
def joinedTables (anchor : String) (joins : List Join) : List String :=
  anchor :: (growth anchor joins).steps.map Step.table

/-- An edge that went one of the first two ways has joined tables. -/
theorem joined_of_mem_growth {edge : Edge}
    (member : edge ∈ (growth anchor joins).steps.map Step.edge ∨
      edge ∈ (growth anchor joins).redundant) :
    edge.join.table1 ∈ joinedTables anchor joins ∧
      edge.join.table2 ∈ joinedTables anchor joins := by
  rcases member with stepped | redundant
  · obtain ⟨step, inside, rfl⟩ := List.mem_map.1 stepped
    exact joined_of_mem_grow _ _ step inside
  · obtain ⟨first, second, _⟩ := joined_of_mem_redundant _ _ edge redundant
    exact ⟨first, second⟩

/-- A complete join has two joined tables or none, because the growth ends only when every pending
edge is out of reach. -/
theorem joined_table1_iff {join : Join} (member : join ∈ joins)
    (complete : join.isComplete = true) :
    join.table1 ∈ joinedTables anchor joins ↔ join.table2 ∈ joinedTables anchor joins := by
  obtain ⟨index, found⟩ := List.mem_iff_getElem?.1 member
  have listed : Edge.mk index join ∈ edges joins := mem_edges_iff.2 found
  rcases (mem_growth_iff anchor joins _).2 ⟨listed, complete⟩ with step | redundant | pending
  · obtain ⟨first, second⟩ := joined_of_mem_growth (.inl step)
    exact iff_of_true first second
  · obtain ⟨first, second⟩ := joined_of_mem_growth (.inr redundant)
    exact iff_of_true first second
  · obtain ⟨first, second⟩ := not_joined_of_mem_pending _ _ _ pending
    exact iff_of_false first second

/-- The joined tables are exactly the reachable ones. -/
theorem mem_joinedTables_iff {table : String} :
    table ∈ joinedTables anchor joins ↔ IsReachable anchor joins table := by
  constructor
  · intro joined
    rcases List.mem_cons.1 joined with rfl | brought
    · exact .refl
    · obtain ⟨step, member, rfl⟩ := List.mem_map.1 brought
      refine spreads_of_grow [anchor] _ (fun edge inside => ?_) (fun table start => ?_) step member
      · obtain ⟨listed, complete⟩ := List.mem_filter.1 inside
        exact isReachable_table1_iff (List.mem_of_getElem? (mem_edges_iff.1 listed)) complete
      · rw [List.mem_singleton.1 start]
        exact .refl
  · intro reached
    induction reached with
    | refl => exact List.mem_cons_self
    | tail _ connects inductionHypothesis =>
        obtain ⟨join, member, complete, ⟨rfl, rfl⟩ | ⟨rfl, rfl⟩⟩ := connects
        · exact (joined_table1_iff member complete).1 inductionHypothesis
        · exact (joined_table1_iff member complete).2 inductionHypothesis

/-- A join is skipped for the reason that its edge has. -/
theorem mem_skipped_iff {index : Nat} {reason : SkipReason} {join : Join}
    (found : joins[index]? = some join) :
    ⟨index, reason⟩ ∈ (ofJoins anchor joins).skipped ↔
      skipReason? (growth anchor joins) ⟨index, join⟩ = some reason := by
  change Skipped.mk index reason ∈ (edges joins).filterMap (fun edge =>
    (skipReason? (growth anchor joins) edge).map (Skipped.mk edge.index)) ↔ _
  rw [List.mem_filterMap]
  constructor
  · intro skipped
    obtain ⟨edge, member, same⟩ := skipped
    obtain ⟨other, hasReason, equal⟩ := Option.map_eq_some_iff.1 same
    cases equal
    have sameJoin : edge.join = join :=
      Option.some.inj ((mem_edges_iff.1 member).symm.trans found)
    exact sameJoin ▸ hasReason
  · intro hasReason
    exact ⟨⟨index, join⟩, mem_edges_iff.2 found, by rw [hasReason]; rfl⟩

/-- The reason of an edge says which way it has gone. -/
theorem skipReason?_eq_some_iff {edge : Edge} :
    (skipReason? (growth anchor joins) edge = some .incomplete ↔ edge.join.isComplete = false) ∧
      (skipReason? (growth anchor joins) edge = some .redundant ↔
        edge ∈ (growth anchor joins).redundant) ∧
      (skipReason? (growth anchor joins) edge = some .disconnected ↔
        edge ∈ (growth anchor joins).pending) := by
  have ways := mem_growth_iff anchor joins edge
  have distinct := nodup_growth anchor joins
  have apart : edge ∈ (growth anchor joins).redundant →
      edge ∉ (growth anchor joins).pending := fun redundant =>
    (List.nodup_append'.1 distinct).2.2 (List.mem_append_right _ redundant)
  unfold skipReason?
  split_ifs with incomplete redundant pending
  · have missing : edge.join.isComplete = false := by simpa using incomplete
    have noWay : ¬(edge ∈ edges joins ∧ edge.join.isComplete = true) := by simp [missing]
    rw [← ways] at noWay
    simp_all
  · simp_all
  · simp_all
  · simp_all

/-- A complete edge that is not pending went one of the other two ways. -/
theorem mem_way_of_not_pending {index : Nat} {join : Join} (found : joins[index]? = some join)
    (complete : join.isComplete = true)
    (notPending : ⟨index, join⟩ ∉ (growth anchor joins).pending) :
    ⟨index, join⟩ ∈ (growth anchor joins).steps.map Step.edge ∨
      ⟨index, join⟩ ∈ (growth anchor joins).redundant := by
  have ways := (mem_growth_iff anchor joins ⟨index, join⟩).2 ⟨mem_edges_iff.2 found, complete⟩
  rcases ways with step | redundant | pending
  · exact .inl step
  · exact .inr redundant
  · exact absurd pending notPending

/-- The pending edges are those that are complete and out of reach. -/
theorem mem_pending_iff {index : Nat} {join : Join} (found : joins[index]? = some join) :
    ⟨index, join⟩ ∈ (growth anchor joins).pending ↔ join.isComplete = true ∧
      ¬IsReachable anchor joins join.table1 ∧ ¬IsReachable anchor joins join.table2 := by
  simp only [← mem_joinedTables_iff]
  constructor
  · intro pending
    have complete := ((mem_growth_iff anchor joins _).1 (.inr (.inr pending))).2
    exact ⟨complete, not_joined_of_mem_pending _ _ _ pending⟩
  · intro outOfReach
    by_contra notPending
    have way := mem_way_of_not_pending found outOfReach.1 notPending
    exact outOfReach.2.1 (joined_of_mem_growth way).1

/-- The position of an edge with a step is a position of the plan's steps. -/
theorem index_mem_steps {edge : Edge}
    (member : edge ∈ (growth anchor joins).steps.map Step.edge) :
    edge.index ∈ (ofJoins anchor joins).steps.map (·.edge.index) := by
  obtain ⟨step, inside, rfl⟩ := List.mem_map.1 member
  exact List.mem_map_of_mem (f := fun step : Step => step.edge.index) inside

/-- The positions of skipped joins increase. -/
theorem pairwise_skipped (anchor : String) (joins : List Join) :
    ((ofJoins anchor joins).skipped.map Skipped.index).Pairwise (· < ·) := by
  have positions : (ofJoins anchor joins).skipped.map Skipped.index =
      ((edges joins).filter fun edge =>
        (skipReason? (growth anchor joins) edge).isSome).map Edge.index :=
    map_index_filterMap _ _
  have sublist := (List.filter_sublist (l := edges joins)
    (p := fun edge => (skipReason? (growth anchor joins) edge).isSome)).map Edge.index
  rw [map_index_edges] at sublist
  rw [positions]
  exact List.pairwise_lt_range.sublist sublist

theorem pairwise_skipped_ofQuery (query : Query) :
    ((ofQuery query).skipped.map Skipped.index).Pairwise (· < ·) := by
  unfold ofQuery
  split
  · exact .nil
  · exact pairwise_skipped _ _

/-- A plan sorts its joins by what is reachable from its anchor. A join is named by its position,
which is the position of one step or of one skipped join. -/
structure Classifies (plan : Plan) (anchor : String) (joins : List Join) : Prop where
  once : (plan.steps.map (·.edge.index) ++ plan.skipped.map Skipped.index).Perm
    (List.range joins.length)
  increasing : (plan.skipped.map Skipped.index).Pairwise (· < ·)
  stepped : ∀ step ∈ plan.steps, joins[step.edge.index]? = some step.edge.join
  incomplete : ∀ index join, joins[index]? = some join →
    (⟨index, .incomplete⟩ ∈ plan.skipped ↔
      join.table1 = "" ∨ join.table2 = "" ∨ join.condition = "")
  disconnected : ∀ index join, joins[index]? = some join →
    (⟨index, .disconnected⟩ ∈ plan.skipped ↔ join.isComplete = true ∧
      ¬IsReachable anchor joins join.table1 ∧ ¬IsReachable anchor joins join.table2)
  connected : ∀ index join, joins[index]? = some join → join.isComplete = true →
    ⟨index, .disconnected⟩ ∉ plan.skipped →
      IsReachable anchor joins join.table1 ∧ IsReachable anchor joins join.table2 ∧
        (index ∈ plan.steps.map (·.edge.index) ∨ ⟨index, .redundant⟩ ∈ plan.skipped)
  selfJoined : ∀ index join, joins[index]? = some join → join.isComplete = true →
    join.table1 = join.table2 → IsReachable anchor joins join.table1 →
      index ∈ plan.steps.map (·.edge.index) ∧ ⟨index, .redundant⟩ ∉ plan.skipped

/-- Every plan sorts its joins in this way. -/
theorem classifies_ofJoins (anchor : String) (joins : List Join) :
    (ofJoins anchor joins).Classifies anchor joins where
  once := ofJoins_perm anchor joins
  increasing := pairwise_skipped anchor joins
  stepped step member := (step_of_mem_ofJoins member).1
  incomplete index join found := by
    rw [mem_skipped_iff found, skipReason?_eq_some_iff.1, Join.isComplete_eq_false_iff]
  disconnected index join found := by
    rw [mem_skipped_iff found, skipReason?_eq_some_iff.2.2]
    exact mem_pending_iff found
  connected index join found complete connected := by
    rw [mem_skipped_iff found, skipReason?_eq_some_iff.2.2] at connected
    rw [mem_skipped_iff found, skipReason?_eq_some_iff.2.1]
    have way := mem_way_of_not_pending found complete connected
    obtain ⟨first, second⟩ := joined_of_mem_growth way
    exact ⟨mem_joinedTables_iff.1 first, mem_joinedTables_iff.1 second,
      way.imp_left index_mem_steps⟩
  selfJoined index join found complete same reached := by
    have notPending : Edge.mk index join ∉ (growth anchor joins).pending := fun pending =>
      ((mem_pending_iff found).1 pending).2.1 reached
    rw [mem_skipped_iff found, skipReason?_eq_some_iff.2.1]
    have notRedundant : Edge.mk index join ∉ (growth anchor joins).redundant := fun redundant =>
      (joined_of_mem_redundant _ _ _ redundant).2.2 same
    rcases mem_way_of_not_pending found complete notPending with step | redundant
    · exact ⟨index_mem_steps step, notRedundant⟩
    · exact absurd redundant notRedundant

end Classification

end Plan

end SemanticQuery
