/-
This file says which warnings about tables and dialects a report has. A table is reported at the
first join that names it, and the warnings of a report stand in a fixed order.
-/

import Mathlib.Data.Prod.Lex
import SemanticQuery.Proofs.Plan.Greedy
import SemanticQuery.Proofs.Report.Coverage

namespace SemanticQuery

/-- Related lists have the same first position. -/
theorem findIdx?_eq_of_forall₂ {α β : Type} {relation : α → β → Prop} {items : List α}
    {values : List β} {holds : α → Bool} {holdsToo : β → Bool}
    (related : List.Forall₂ relation items values)
    (same : ∀ item value, relation item value → holds item = holdsToo value) :
    items.findIdx? holds = values.findIdx? holdsToo := by
  induction related with
  | nil => rfl
  | cons first _ inductionHypothesis =>
      rw [List.findIdx?_cons, List.findIdx?_cons, same _ _ first, inductionHypothesis]

instance (join : Join) (table : String) : Decidable (join.Names table) :=
  inferInstanceAs (Decidable (_ ∨ _))

namespace Document.Join

instance (join : Join) (table : String) : Decidable (join.Names table) :=
  inferInstanceAs (Decidable (_ ∨ _))

/-- The first table of a join is kept, and in strict mode only one spelling stands for a full
join. -/
theorem interpret_strict {given : Join} {join : SemanticQuery.Join}
    (interpreted : given.interpret .strict = .ok join) :
    join.table1 = given.table1.getD "" ∧ (join.type = .full ↔ given.type = some "FULL") := by
  simp only [interpret, bind_eq_ok_iff, pure_eq_ok_iff, orDefect_eq_ok_iff] at interpreted
  obtain ⟨type, read, rfl⟩ := interpreted
  refine ⟨rfl, ?_⟩
  cases written : given.type with
  | none =>
      rw [written] at read
      cases read
      simp
  | some text =>
      rw [written] at read
      have spelled := Keyword.canonical?_eq_some_iff.1 read
      constructor
      · rintro rfl
        exact congrArg some spelled.symm
      · rintro ⟨⟩
        exact Keyword.spelling_injective _ _ spelled

end Document.Join

namespace Report

namespace Warning

/-- A warning about this table has the position of the join that names it. -/
def unlisted? (table : String) : Warning → Option Nat
  | .unlistedTable join named => if named = table then some join else none
  | _ => none

/-- Only such a warning is about the dialect. -/
def isUnsupported : Warning → Bool
  | .unsupportedJoin .. => true
  | _ => false

/-- The place of a warning is its part of the report, then the position of its join or condition.
Within a join, the first table stands in front of the second one, and the type stands last. -/
def place (joins : List Document.Join) : Warning → Nat ×ₗ Nat ×ₗ Nat
  | .unlistedTable join table =>
      toLex (0, toLex (join, if joins[join]?.bind Document.Join.table1 = some table then 0 else 1))
  | .unsupportedJoin join _ _ => toLex (0, toLex (join, 2))
  | .incompleteJoin join => toLex (1, toLex (join, 0))
  | .redundantJoin join => toLex (1, toLex (join, 0))
  | .disconnectedJoin join _ => toLex (1, toLex (join, 0))
  | .skippedCondition condition _ => toLex (2, toLex (condition, 0))
  | .malformedRange condition _ => toLex (2, toLex (condition, 0))

/-- Warnings are ordered by their places. -/
def Precedes (joins : List Document.Join) (first second : Warning) : Prop :=
  first.place joins < second.place joins

end Warning

open Warning

section Tables

variable {listed reported tables : List String} {table : String}

theorem newTables_sublist (listed reported tables : List String) :
    (newTables listed reported tables).Sublist tables := by
  fun_induction newTables listed reported tables with
  | case1 => exact .slnil
  | case2 _ table _ _ inductionHypothesis => exact inductionHypothesis.cons_cons table
  | case3 _ table _ _ inductionHypothesis => exact inductionHypothesis.cons table

theorem mem_newTables_iff : table ∈ newTables listed reported tables ↔
    table ∈ tables ∧ table ≠ "" ∧ table ∉ listed ∧ table ∉ reported := by
  fun_induction newTables listed reported tables with
  | case1 => simp
  | case2 reported first rest new inductionHypothesis =>
      rw [List.mem_cons, inductionHypothesis, List.mem_cons, List.mem_cons]
      by_cases same : table = first
      · simp [same, new]
      · simp [same]
  | case3 reported first rest old inductionHypothesis =>
      rw [inductionHypothesis, List.mem_cons]
      by_cases same : table = first
      · subst same
        simp [old]
      · simp [same]

theorem nodup_newTables (listed reported tables : List String) :
    (newTables listed reported tables).Nodup := by
  fun_induction newTables listed reported tables with
  | case1 => exact .nil
  | case2 reported table rest new inductionHypothesis =>
      refine List.nodup_cons.2 ⟨fun again => ?_, inductionHypothesis⟩
      exact (mem_newTables_iff.1 again).2.2.2 List.mem_cons_self
  | case3 _ _ _ _ inductionHypothesis => exact inductionHypothesis

theorem filterMap_unlisted?_map (index : Nat) (tables : List String) :
    (tables.map (.unlistedTable index)).filterMap (unlisted? table) =
      List.replicate (tables.count table) index := by
  induction tables with
  | nil => rfl
  | cons first rest inductionHypothesis =>
      rw [List.map_cons, List.filterMap_cons, inductionHypothesis, List.count_cons]
      by_cases same : first = table
      · simp [unlisted?, same, List.replicate_succ]
      · simp [unlisted?, same]

end Tables

section Edges

variable {dialect : Dialect} {listed reported : List String} {edges : List Edge}

/-- The type of a join is reported at most once, and only to a dialect that does not know it. -/
theorem mem_unsupported_iff {edge : Edge} {warning : Warning} :
    warning ∈ unsupported dialect edge ↔
      warning = .unsupportedJoin edge.index .full dialect ∧ edge.join.type = .full ∧
        dialect.hasFullJoin = false := by
  unfold unsupported
  split
  · next found => simp_all
  · next missing => simp_all

theorem filterMap_unsupported (edge : Edge) (table : String) :
    (unsupported dialect edge).filterMap (unlisted? table) = [] := by
  rw [List.filterMap_eq_nil_iff]
  intro warning member
  rw [(mem_unsupported_iff.1 member).1]
  rfl

/-- A table that was not reported before is reported at the first join that names it. -/
theorem filterMap_unlisted?_tableWarnings (table : String) :
    (tableWarnings dialect listed reported edges).filterMap (unlisted? table) =
      (if table = "" ∨ table ∈ listed ∨ table ∈ reported then none
        else (edges.find? fun edge => edge.join.Names table).map Edge.index).toList := by
  induction edges generalizing reported with
  | nil => simp [tableWarnings]
  | cons edge rest inductionHypothesis =>
      have new : table ∈ newTables listed reported [edge.join.table1, edge.join.table2] ↔
          edge.join.Names table ∧ ¬(table = "" ∨ table ∈ listed ∨ table ∈ reported) := by
        rw [mem_newTables_iff]
        simp [Join.Names, eq_comm]
      have distinct := nodup_newTables listed reported [edge.join.table1, edge.join.table2]
      rw [tableWarnings, List.filterMap_append, List.filterMap_append, filterMap_unlisted?_map,
        filterMap_unsupported, inductionHypothesis, distinct.count, List.find?_cons,
        List.append_nil]
      simp only [List.mem_append]
      by_cases known : table = "" ∨ table ∈ listed ∨ table ∈ reported
      · rw [if_neg fun inside => (new.1 inside).2 known, if_pos known, if_pos (by tauto)]
        rfl
      · by_cases named : edge.join.Names table
        · have reports := new.2 ⟨named, known⟩
          rw [if_pos reports, if_pos (.inr (.inr (.inl reports))), if_neg known,
            decide_eq_true named]
          rfl
        · have passes := fun inside => named (new.1 inside).1
          rw [if_neg passes, if_neg (by tauto), if_neg known, decide_eq_false named]
          rfl

/-- Warnings about a table or a type have the position of an edge. -/
theorem exists_of_mem_tableWarnings {warning : Warning}
    (member : warning ∈ tableWarnings dialect listed reported edges) :
    ∃ edge ∈ edges, (∃ table, table ≠ "" ∧ warning = .unlistedTable edge.index table) ∨
      warning ∈ unsupported dialect edge := by
  induction edges generalizing reported with
  | nil => cases member
  | cons edge rest inductionHypothesis =>
      rcases List.mem_append.1 member with here | later
      · refine ⟨edge, List.mem_cons_self, ?_⟩
        rcases List.mem_append.1 here with unlisted | type
        · obtain ⟨table, new, rfl⟩ := List.mem_map.1 unlisted
          exact .inl ⟨table, (mem_newTables_iff.1 new).2.1, rfl⟩
        · exact .inr type
      · obtain ⟨other, inside, found⟩ := inductionHypothesis later
        exact ⟨other, List.mem_cons_of_mem _ inside, found⟩

theorem mem_tableWarnings_of_mem_unsupported {edge : Edge} {warning : Warning}
    (member : edge ∈ edges) (inside : warning ∈ unsupported dialect edge) :
    warning ∈ tableWarnings dialect listed reported edges := by
  induction edges generalizing reported with
  | nil => cases member
  | cons first rest inductionHypothesis =>
      rcases List.mem_cons.1 member with rfl | later
      · exact List.mem_append_left _ (List.mem_append_right _ inside)
      · exact List.mem_append_right _ (inductionHypothesis later)

/-- All other warnings are the same for each dialect. -/
theorem filter_tableWarnings (other : Dialect) :
    (tableWarnings dialect listed reported edges).filter (!isUnsupported ·) =
      (tableWarnings other listed reported edges).filter (!isUnsupported ·) := by
  have none (dialect : Dialect) (edge : Edge) :
      (unsupported dialect edge).filter (!isUnsupported ·) = [] := by
    rw [List.filter_eq_nil_iff]
    intro warning member
    rw [(mem_unsupported_iff.1 member).1]
    exact Bool.false_ne_true
  induction edges generalizing reported with
  | nil => rfl
  | cons edge rest inductionHypothesis =>
      simp only [tableWarnings, List.filter_append, none, inductionHypothesis]

end Edges

/-- An edge stands for the join at its position, as far as the first table is concerned. -/
def Stands (joins : List Document.Join) (edge : Edge) : Prop :=
  ∃ given, joins[edge.index]? = some given ∧ edge.join.table1 = given.table1.getD ""

section Places

variable {joins : List Document.Join} {dialect : Dialect} {listed : List String}

theorem place_unlistedTable {edge : Edge} (stands : Stands joins edge) {table : String}
    (name : table ≠ "") : (Warning.unlistedTable edge.index table).place joins =
      toLex (0, toLex (edge.index, if edge.join.table1 = table then 0 else 1)) := by
  obtain ⟨given, found, first⟩ := stands
  rw [place, found, first]
  simp only [Option.bind_some, Document.getD_empty_eq_iff name]

/-- The new tables of an edge stand in the order of its sides. -/
theorem pairwise_newTables {edge : Edge} (stands : Stands joins edge) (reported : List String) :
    ((newTables listed reported [edge.join.table1, edge.join.table2]).map
      (Warning.unlistedTable edge.index)).Pairwise (Precedes joins) := by
  have distinct := nodup_newTables listed reported [edge.join.table1, edge.join.table2]
  have sides : (newTables listed reported [edge.join.table1, edge.join.table2]).Pairwise
      fun first second => first = edge.join.table1 ∧ second = edge.join.table2 :=
    .sublist (newTables_sublist listed reported _) (by simp)
  refine List.pairwise_map.2 ((sides.and distinct).imp_of_mem ?_)
  rintro _ _ newFirst newSecond ⟨⟨rfl, rfl⟩, different⟩
  rw [Precedes, place_unlistedTable stands (mem_newTables_iff.1 newFirst).2.1,
    place_unlistedTable stands (mem_newTables_iff.1 newSecond).2.1, if_pos rfl, if_neg different]
  simp [Prod.Lex.toLex_lt_toLex]

/-- The place of a warning about a table or a type begins with the position of an edge. -/
theorem exists_place_of_mem {warning : Warning} {reported : List String} {edges : List Edge}
    (member : warning ∈ tableWarnings dialect listed reported edges) :
    ∃ edge ∈ edges, ∃ side, warning.place joins = toLex (0, toLex (edge.index, side)) := by
  obtain ⟨edge, inside, ⟨table, _, rfl⟩ | unsupported⟩ := exists_of_mem_tableWarnings member
  · exact ⟨edge, inside, _, rfl⟩
  · rw [(mem_unsupported_iff.1 unsupported).1]
    exact ⟨edge, inside, _, rfl⟩

/-- The warnings about tables and types stand in the order of the edges. -/
theorem pairwise_tableWarnings {reported : List String} {edges : List Edge}
    (increasing : edges.Pairwise (·.index < ·.index)) (stand : ∀ edge ∈ edges, Stands joins edge) :
    (tableWarnings dialect listed reported edges).Pairwise (Precedes joins) := by
  induction edges generalizing reported with
  | nil => exact .nil
  | cons edge rest inductionHypothesis =>
      obtain ⟨before, increasing⟩ := List.pairwise_cons.1 increasing
      obtain ⟨stands, stand⟩ := List.forall_mem_cons.1 stand
      refine List.pairwise_append.2 ⟨?here, inductionHypothesis increasing stand, ?later⟩
      case here =>
        refine List.pairwise_append.2 ⟨pairwise_newTables stands reported, ?type, ?last⟩
        case type =>
          unfold unsupported
          split
          · exact List.pairwise_singleton _ _
          · exact .nil
        case last =>
          intro first unlisted second unsupported
          obtain ⟨table, new, rfl⟩ := List.mem_map.1 unlisted
          rw [(mem_unsupported_iff.1 unsupported).1, Precedes,
            place_unlistedTable stands (mem_newTables_iff.1 new).2.1, place]
          split <;> simp [Prod.Lex.toLex_lt_toLex]
      case later =>
        intro first here second there
        obtain ⟨other, inside, side, there⟩ := exists_place_of_mem there
        have placed : ∃ side, first.place joins = toLex (0, toLex (edge.index, side)) := by
          rcases List.mem_append.1 here with unlisted | unsupported
          · obtain ⟨table, _, rfl⟩ := List.mem_map.1 unlisted
            exact ⟨_, rfl⟩
          · rw [(mem_unsupported_iff.1 unsupported).1]
            exact ⟨_, rfl⟩
        obtain ⟨_, here⟩ := placed
        rw [Precedes, here, there]
        simp [Prod.Lex.toLex_lt_toLex, before other inside]

theorem place_skipWarning (anchor : String) (skipped : Plan.Skipped) :
    (skipWarning anchor skipped).place joins = toLex (1, toLex (skipped.index, 0)) := by
  unfold skipWarning
  split <;> rfl

theorem pairwise_skipWarnings (query : Query) :
    (skipWarnings query).Pairwise (Precedes joins) := by
  have increasing := List.pairwise_map.1 (Plan.pairwise_skipped_ofQuery query)
  unfold skipWarnings
  unfold Plan.ofQuery at increasing
  split
  · exact .nil
  · next anchor found =>
      rw [found] at increasing
      refine List.pairwise_map.2 (increasing.imp fun {first second} before => ?_)
      rw [Precedes, place_skipWarning, place_skipWarning]
      simp [Prod.Lex.toLex_lt_toLex, before]

theorem place_conditionWarning? {condition : Condition} {index : Nat} {warning : Warning}
    (reported : conditionWarning? condition index = some warning) :
    warning.place joins = toLex (2, toLex (index, 0)) := by
  unfold conditionWarning? at reported
  split_ifs at reported <;> cases reported <;> rfl

theorem pairwise_conditionWarnings (conditions : List Condition) :
    (conditionWarnings conditions).Pairwise (Precedes joins) := by
  have increasing : conditions.zipIdx.Pairwise (·.2 < ·.2) := by
    rw [← List.pairwise_map (f := Prod.snd), List.zipIdx_map_snd]
    exact List.pairwise_lt_range'
  refine List.pairwise_filterMap.2 (increasing.imp fun before first here second there => ?_)
  rw [Precedes, place_conditionWarning? here, place_conditionWarning? there]
  simp [Prod.Lex.toLex_lt_toLex, before]

theorem exists_place_of_mem_skipWarnings {query : Query} {warning : Warning}
    (member : warning ∈ skipWarnings query) :
    ∃ index, warning.place joins = toLex (1, toLex (index, 0)) := by
  unfold skipWarnings at member
  split at member
  · cases member
  · obtain ⟨skipped, _, rfl⟩ := List.mem_map.1 member
    exact ⟨_, place_skipWarning _ _⟩

theorem exists_place_of_mem_conditionWarnings {conditions : List Condition} {warning : Warning}
    (member : warning ∈ conditionWarnings conditions) :
    ∃ index, warning.place joins = toLex (2, toLex (index, 0)) := by
  obtain ⟨pair, _, reported⟩ := List.mem_filterMap.1 member
  exact ⟨_, place_conditionWarning? reported⟩

/-- All warnings stand in the order of their places. -/
theorem pairwise_warningsFor (dialect : Dialect) {query : Query}
    (stand : ∀ edge ∈ Plan.edges query.joins, Stands joins edge) :
    (warningsFor dialect query).Pairwise (Precedes joins) := by
  have increasing := Plan.pairwise_index_edges query.joins
  have parts {first second : Warning} {part later : Nat} {place other : Nat ×ₗ Nat}
      (here : first.place joins = toLex (part, place))
      (there : second.place joins = toLex (later, other)) (before : part < later) :
      Precedes joins first second := by
    rw [Precedes, here, there, Prod.Lex.toLex_lt_toLex]
    exact .inl before
  refine List.pairwise_append.2 ⟨List.pairwise_append.2
    ⟨pairwise_tableWarnings increasing stand, pairwise_skipWarnings query, ?_⟩,
    pairwise_conditionWarnings query.conditions, ?_⟩
  · intro first table second skip
    obtain ⟨_, _, _, here⟩ := exists_place_of_mem table
    obtain ⟨_, there⟩ := exists_place_of_mem_skipWarnings skip
    exact parts here there (by decide)
  · intro first front second condition
    obtain ⟨_, there⟩ := exists_place_of_mem_conditionWarnings condition
    rcases List.mem_append.1 front with table | skip
    · obtain ⟨_, _, _, here⟩ := exists_place_of_mem table
      exact parts here there (by decide)
    · obtain ⟨_, here⟩ := exists_place_of_mem_skipWarnings skip
      exact parts here there (by decide)

end Places

section Queries

variable {dialect : Dialect} {query : Query}

/-- The other warnings are not about tables or types. -/
theorem not_mem_tables_of_mem {warning : Warning}
    (member : warning ∈ skipWarnings query ++ conditionWarnings query.conditions) :
    (∀ table, unlisted? table warning = none) ∧ isUnsupported warning = false := by
  rcases List.mem_append.1 member with skip | condition
  · unfold skipWarnings at skip
    split at skip
    · cases skip
    · obtain ⟨skipped, _, rfl⟩ := List.mem_map.1 skip
      unfold skipWarning
      split <;> exact ⟨fun _ => rfl, rfl⟩
  · obtain ⟨pair, _, reported⟩ := List.mem_filterMap.1 condition
    unfold conditionWarning? at reported
    split_ifs at reported <;> cases reported <;> exact ⟨fun _ => rfl, rfl⟩

/-- A table without a listing is reported at the first join that names it. -/
theorem filterMap_unlisted?_warningsFor (table : String) :
    (warningsFor dialect query).filterMap (unlisted? table) =
      (if table = "" ∨ table ∈ query.tables then none
        else query.joins.findIdx? fun join => join.Names table).toList := by
  have first : (((Plan.edges query.joins).find? fun edge => edge.join.Names table).map
      Edge.index) = query.joins.findIdx? fun join => join.Names table := by
    rw [List.findIdx?_eq_fst_find?_zipIdx, Plan.edges, List.find?_map, Option.map_map]
    rfl
  have others : (skipWarnings query ++ conditionWarnings query.conditions).filterMap
      (unlisted? table) = [] :=
    List.filterMap_eq_nil_iff.2 fun _ member => (not_mem_tables_of_mem member).1 table
  rw [warningsFor, List.append_assoc, List.filterMap_append, others, List.append_nil,
    filterMap_unlisted?_tableWarnings, first]
  simp only [List.not_mem_nil, or_false]

/-- Each full join is reported to the dialect that does not know it. -/
theorem unsupportedJoin_mem_warningsFor_iff {index : Nat} {type : JoinType} {named : Dialect} :
    .unsupportedJoin index type named ∈ warningsFor dialect query ↔
      dialect = .mysql ∧ named = .mysql ∧ type = .full ∧
        ∃ join, query.joins[index]? = some join ∧ join.type = .full := by
  have full : dialect.hasFullJoin = false ↔ dialect = .mysql := by
    cases dialect <;> simp [Dialect.hasFullJoin]
  rw [warningsFor, List.append_assoc, List.mem_append]
  constructor
  · intro member
    rcases member with table | other
    · obtain ⟨edge, inside, ⟨_, _, same⟩ | unsupported⟩ := exists_of_mem_tableWarnings table
      · cases same
      · obtain ⟨same, isFull, missing⟩ := mem_unsupported_iff.1 unsupported
        obtain ⟨rfl, rfl, rfl⟩ := same
        exact ⟨full.1 missing, full.1 missing, rfl, edge.join, Plan.mem_edges_iff.1 inside, isFull⟩
    · cases (not_mem_tables_of_mem other).2
  · rintro ⟨rfl, rfl, rfl, join, found, isFull⟩
    have inside : Edge.mk index join ∈ Plan.edges query.joins := Plan.mem_edges_iff.2 found
    exact .inl (mem_tableWarnings_of_mem_unsupported inside
      (mem_unsupported_iff.2 ⟨rfl, isFull, rfl⟩))

theorem filter_warningsFor (dialect other : Dialect) (query : Query) :
    (warningsFor dialect query).filter (!isUnsupported ·) =
      (warningsFor other query).filter (!isUnsupported ·) := by
  simp only [warningsFor, List.filter_append, filter_tableWarnings other]

end Queries

/-- The warnings of a report about tables and dialects are complete, none is repeated, and they
stand in their order. Under another dialect, only the types of joins may be reported in another
way. -/
structure Warns (dialect : Dialect) (document : Document) (report : Report) : Prop where
  unlisted : ∀ table, report.warnings.filterMap (unlisted? table) =
    (if table = "" ∨ table ∈ document.tables then none
      else document.joins.findIdx? fun join => join.Names table).toList
  unsupported : ∀ index type named,
    report.warnings.count (.unsupportedJoin index type named) =
      if dialect = .mysql ∧ named = .mysql ∧ type = .full ∧
        document.joins[index]?.bind Document.Join.type = some "FULL" then 1 else 0
  ordered : report.warnings.Pairwise (Precedes document.joins)
  independent : ∀ other, ∃ otherReport, ofDocument other document = .ok otherReport ∧
    otherReport.query = report.query ∧
      otherReport.warnings.filter (!isUnsupported ·) = report.warnings.filter (!isUnsupported ·)

section Interpreted

variable {document : Document} {query : Query} (interprets : document.Interprets .strict query)

include interprets

theorem stands_of_mem_edges {edge : Edge} (inside : edge ∈ Plan.edges query.joins) :
    Stands document.joins edge := by
  have related := rel_getElem? interprets.joins edge.index
  rw [Plan.mem_edges_iff.1 inside] at related
  unfold Stands
  generalize document.joins[edge.index]? = given at related ⊢
  cases related with
  | some interpreted => exact ⟨_, rfl, (Document.Join.interpret_strict interpreted).1⟩

theorem exists_full_iff (index : Nat) :
    (∃ join, query.joins[index]? = some join ∧ join.type = .full) ↔
      document.joins[index]?.bind Document.Join.type = some "FULL" := by
  have related := rel_getElem? interprets.joins index
  generalize document.joins[index]? = given at related ⊢
  generalize query.joins[index]? = found at related ⊢
  cases related with
  | none => simp
  | some interpreted => simpa using (Document.Join.interpret_strict interpreted).2

theorem findIdx?_names {table : String} (name : table ≠ "") :
    (query.joins.findIdx? fun join => join.Names table) =
      document.joins.findIdx? fun join => join.Names table :=
  (findIdx?_eq_of_forall₂ interprets.joins fun _ _ interpreted =>
    decide_eq_decide.2 (Document.Join.names_of_interpret interpreted name).symm).symm

end Interpreted

/-- A report warns in this way, and a document without a report has none for the same reason under
any dialect. -/
theorem warns (dialect : Dialect) (document : Document) :
    (∀ report, ofDocument dialect document = .ok report → Warns dialect document report) ∧
      ∀ failure, ofDocument dialect document = .error failure ↔
        ∀ other, ofDocument other document = .error failure := by
  constructor
  · intro report accepted
    obtain ⟨tables, strict, warnings⟩ := ofDocument_eq_ok_iff.1 accepted
    have interprets := Document.interpret_eq_ok_iff.1 strict
    have ordered : report.warnings.Pairwise (Precedes document.joins) :=
      warnings ▸ pairwise_warningsFor dialect fun _ inside => stands_of_mem_edges interprets inside
    have distinct : report.warnings.Nodup :=
      ordered.imp fun before same => (same ▸ before).false
    refine ⟨fun table => ?unlisted, fun index type named => ?unsupported, ordered,
      fun other => ?independent⟩
    case unlisted =>
      rw [warnings, filterMap_unlisted?_warningsFor, interprets.tables]
      by_cases name : table = ""
      · simp [name]
      · rw [findIdx?_names interprets name]
    case unsupported =>
      rw [distinct.count]
      refine if_congr ?_ rfl rfl
      rw [warnings, unsupportedJoin_mem_warningsFor_iff, exists_full_iff interprets]
    case independent =>
      exact ⟨⟨report.query, warningsFor other report.query⟩,
        ofDocument_eq_ok_iff.2 ⟨tables, strict, rfl⟩, rfl,
        warnings ▸ filter_warningsFor other dialect report.query⟩
  · intro failure
    refine ⟨fun failed other => ?_, fun all => all dialect⟩
    unfold ofDocument at failed ⊢
    split_ifs at failed ⊢
    · exact failed
    · cases interpreted : (document.interpret .strict).value with
      | error defect =>
          rw [interpreted] at failed
          exact failed
      | ok query =>
          rw [interpreted] at failed
          cases failed

/-- The joins of this document name tables more than once, on both sides, or not at all. -/
def crowded : Document :=
  { Document.empty with
    tables := ["a"]
    conditions := [⟨some "x", some "=", none, none⟩]
    joins := [⟨none, some "", some "c", none⟩,
      ⟨some "FULL", some "b", some "b", some "b.id = b.up"⟩,
      ⟨some "LEFT", some "c", some "a", some "c.id = a.c"⟩,
      ⟨some "FULL", some "d", some "b", some "d.id = b.d"⟩] }

/-- All warnings about this document appear once and in their order. -/
theorem warns_crowded :
    ∃ report, ofDocument .mysql crowded = .ok report ∧
      report.warnings = [.unlistedTable 0 "c", .unlistedTable 1 "b",
        .unsupportedJoin 1 .full .mysql, .unlistedTable 3 "d", .unsupportedJoin 3 .full .mysql,
        .incompleteJoin 0, .disconnectedJoin 1 "a", .disconnectedJoin 3 "a",
        .skippedCondition 0 "x"] ∧ Warns .mysql crowded report := by
  have reported : (ofDocument .mysql crowded).toOption.map Report.warnings = some
      [.unlistedTable 0 "c", .unlistedTable 1 "b", .unsupportedJoin 1 .full .mysql,
        .unlistedTable 3 "d", .unsupportedJoin 3 .full .mysql, .incompleteJoin 0,
        .disconnectedJoin 1 "a", .disconnectedJoin 3 "a", .skippedCondition 0 "x"] := by
    decide +kernel
  cases accepted : ofDocument .mysql crowded with
  | error failure =>
      rw [accepted] at reported
      cases reported
  | ok report =>
      rw [accepted] at reported
      exact ⟨report, rfl, Option.some.inj reported, (warns .mysql crowded).1 report accepted⟩

end Report

end SemanticQuery
