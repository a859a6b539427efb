/-
This file says which of the listed tables a statement names when the report about it is clean. A
table that no join names is left out without a warning.
-/

import SemanticQuery.Proofs.Report.Skips
import SemanticQuery.Proofs.Statement.Tables

namespace SemanticQuery

open Sql (named)

namespace Join

/-- A join names both of its tables. -/
def Names (join : Join) (table : String) : Prop := join.table1 = table ∨ join.table2 = table

theorem Names.ne_empty {join : Join} {table : String} (names : join.Names table)
    (complete : join.isComplete = true) : table ≠ "" := by
  simp only [isComplete, Bool.and_eq_true, bne_iff_ne] at complete
  rcases names with rfl | rfl
  · exact complete.1.1
  · exact complete.1.2

end Join

namespace Clause

theorem mem_of_mem_listed {tables : List String} {hasJoins : Bool} {table : String}
    (member : table ∈ listed tables hasJoins) : table ∈ tables := by
  unfold listed at member
  split at member
  · exact List.mem_of_mem_take member
  · exact member

/-- The first table is always listed, and all of them are if there are no joins. -/
theorem mem_listed_iff {tables : List String} {hasJoins : Bool} {table : String}
    (member : table ∈ tables) :
    table ∈ listed tables hasJoins ↔ hasJoins = false ∨ tables.head? = some table := by
  obtain ⟨first, rest, rfl⟩ := List.exists_cons_of_ne_nil (List.ne_nil_of_mem member)
  cases hasJoins with
  | false => exact iff_of_true member (.inl rfl)
  | true => simp [listed, eq_comm]

end Clause

namespace Query

/-- A table takes part in a query when it has a name, and it is the first one or a join names it.
Without joins, every table with a name takes part. -/
def TakesPart (query : Query) (table : String) : Prop :=
  table ≠ "" ∧ (query.joins = [] ∨ query.tables.head? = some table ∨
    ∃ join ∈ query.joins, join.Names table)

variable {query : Query} {tokens : List Sql.Token}

/-- The listed tables of a statement are the tables with names, but only the first one if there are
joins. -/
theorem mem_named_from_iff (rendered : query.statement = .ok tokens) {table : String}
    (member : table ∈ query.tables) :
    table ∈ named .from tokens ↔
      table ≠ "" ∧ (query.joins = [] ∨ query.tables.head? = some table) := by
  have noJoins : (!query.joins.isEmpty) = false ↔ query.joins = [] := by simp
  rw [(named_statement rendered).1, List.mem_filter, Clause.mem_listed_iff member, noJoins,
    decide_eq_true_iff, and_comm]

section Kept

variable (rendered : query.statement = .ok tokens) (kept : (Plan.ofQuery query).skipped = [])

include rendered kept

/-- If no join is skipped, the statement names the tables that take part. -/
theorem named_iff_takesPart {table : String} (member : table ∈ query.tables) :
    table ∈ named .from tokens ∨ table ∈ named .join tokens ↔ query.TakesPart table := by
  have joined := (named_statement rendered).2.1
  have nonempty : query.tables ≠ [] := List.ne_nil_of_mem member
  constructor
  · intro found
    rcases found with listed | later
    · obtain ⟨name, reason⟩ := (mem_named_from_iff rendered member).1 listed
      exact ⟨name, reason.imp_right .inl⟩
    · obtain ⟨step, inside, rfl⟩ := List.mem_map.1 (joined ▸ later)
      obtain ⟨position, table⟩ := Plan.step_of_mem_ofQuery inside
      have names : step.edge.join.Names step.table := table.imp Eq.symm Eq.symm
      exact ⟨names.ne_empty (Plan.isComplete_of_mem_ofQuery inside),
        .inr (.inr ⟨_, List.mem_of_getElem? position, names⟩)⟩
  · intro takesPart
    obtain ⟨name, noJoins | first | ⟨join, inside, names⟩⟩ := takesPart
    · exact .inl ((mem_named_from_iff rendered member).2 ⟨name, .inl noJoins⟩)
    · exact .inl ((mem_named_from_iff rendered member).2 ⟨name, .inr first⟩)
    · obtain ⟨anchor, first⟩ := Option.isSome_iff_exists.1 (List.isSome_head?.2 nonempty)
      obtain ⟨step, found, rfl⟩ := Plan.exists_step_of_skipped_eq_nil nonempty kept inside
      obtain ⟨left, right⟩ := Plan.joined_of_mem_ofQuery first found
      have reached : table ∈ anchor :: (Plan.ofQuery query).steps.map Plan.Step.table := by
        rcases names with rfl | rfl
        · exact left
        · exact right
      rcases List.mem_cons.1 reached with rfl | brought
      · exact .inl ((mem_named_from_iff rendered member).2 ⟨name, .inr first⟩)
      · exact .inr (joined ▸ brought)

/-- If no join is skipped and some table has a name, the first table or one without joins has. -/
theorem exists_named_from (named : ∃ table ∈ query.tables, table ≠ "") :
    ∃ table ∈ query.tables, table ∈ Sql.named .from tokens := by
  obtain ⟨table, member, name⟩ := named
  have nonempty : query.tables ≠ [] := List.ne_nil_of_mem member
  by_cases noJoins : query.joins = []
  · exact ⟨table, member, (mem_named_from_iff rendered member).2 ⟨name, .inl noJoins⟩⟩
  · obtain ⟨join, inside⟩ := List.exists_mem_of_ne_nil _ noJoins
    obtain ⟨anchor, first⟩ := Option.isSome_iff_exists.1 (List.isSome_head?.2 nonempty)
    obtain ⟨step, found, _⟩ := Plan.exists_step_of_skipped_eq_nil nonempty kept inside
    obtain ⟨start, started, names⟩ := Plan.exists_joined_of_ofQuery first (List.ne_nil_of_mem found)
    -- The anchor has a name because a complete join names it.
    have anchored : anchor ≠ "" :=
      Join.Names.ne_empty names (Plan.isComplete_of_mem_ofQuery started)
    have listed := List.mem_of_mem_head? first
    exact ⟨anchor, listed, (mem_named_from_iff rendered listed).2 ⟨anchored, .inr first⟩⟩

/-- If no join is skipped, tables are listed unless none of them has a name. -/
theorem from_mem_iff_of_kept : .word .from ∈ tokens ↔ ∃ table ∈ query.tables, table ≠ "" := by
  obtain ⟨listed, _, opened⟩ := named_statement rendered
  rw [opened]
  constructor
  · intro some
    obtain ⟨table, inside⟩ := List.exists_mem_of_ne_nil _ some
    rw [listed, List.mem_filter] at inside
    exact ⟨table, Clause.mem_of_mem_listed inside.1, by simpa using inside.2⟩
  · intro some
    obtain ⟨table, _, inside⟩ := exists_named_from rendered kept some
    exact List.ne_nil_of_mem inside

end Kept

end Query

namespace Document

/-- A join names the tables that it has. -/
def Join.Names (join : Join) (table : String) : Prop :=
  join.table1 = some table ∨ join.table2 = some table

/-- A table takes part in a document when it has a name, and it is the first one or a join names it.
Without joins, every table with a name takes part. -/
def TakesPart (document : Document) (table : String) : Prop :=
  table ≠ "" ∧ (document.joins = [] ∨ document.tables.head? = some table ∨
    ∃ join ∈ document.joins, join.Names table)

/-- A missing name is read as the empty one. -/
theorem getD_empty_eq_iff {part : Option String} {name : String} (nonempty : name ≠ "") :
    part.getD "" = name ↔ part = some name := by
  cases part with
  | none => exact iff_of_false nonempty.symm nofun
  | some text => simp

theorem Join.names_of_interpret {mode : Mode} {given : Join} {join : SemanticQuery.Join}
    (interpreted : given.interpret mode = .ok join) {table : String} (name : table ≠ "") :
    join.Names table ↔ given.Names table := by
  simp only [Join.interpret, bind_eq_ok_iff, pure_eq_ok_iff] at interpreted
  obtain ⟨type, _, rfl⟩ := interpreted
  exact or_congr (getD_empty_eq_iff name) (getD_empty_eq_iff name)

/-- The same tables take part in a document and in its query. -/
theorem Interprets.takesPart_iff {mode : Mode} {document : Document} {query : Query}
    (interprets : Interprets mode document query) (table : String) :
    query.TakesPart table ↔ document.TakesPart table := by
  unfold Query.TakesPart TakesPart
  rw [interprets.tables]
  refine and_congr_right fun name => or_congr ?_ (or_congr_right ?_)
  · rw [← List.length_eq_zero_iff, ← List.length_eq_zero_iff, interprets.joins.length_eq]
  · constructor
    · intro found
      obtain ⟨join, inside, names⟩ := found
      obtain ⟨given, member, interpreted⟩ := exists_of_forall₂ interprets.joins join inside
      exact ⟨given, member, (Join.names_of_interpret interpreted name).1 names⟩
    · intro found
      obtain ⟨given, member, names⟩ := found
      obtain ⟨join, inside, interpreted⟩ := exists_of_forall₂ interprets.joins.flip given member
      exact ⟨join, inside, (Join.names_of_interpret interpreted name).2 names⟩

end Document

namespace Report

/-- A clean report is about a query of which no join is skipped. -/
theorem skipped_of_isClean {dialect : Dialect} {query : Query}
    (clean : warningsFor dialect query = []) : (Plan.ofQuery query).skipped = [] := by
  have positions := filterMap_skippedJoin? dialect query
  rw [clean, List.filterMap_nil] at positions
  exact List.map_eq_nil_iff.1 positions.symm

/-- A clean report comes with a statement that lists tables if any has a name, and that names
exactly the tables that take part. So it names all tables exactly when all of them take part. -/
theorem named_iff_takesPart_of_isClean {dialect : Dialect} {document : Document} {report : Report}
    (accepted : ofDocument dialect document = .ok report) (clean : report.isClean = true) :
    ∃ tokens, report.query.statement = .ok tokens ∧
      (report.query.compile dialect).value = .compiled (Sql.text dialect tokens) ∧
      (.word .from ∈ tokens ↔ ∃ table ∈ document.tables, table ≠ "") ∧
      (∀ table ∈ document.tables,
        table ∈ named .from tokens ∨ table ∈ named .join tokens ↔ document.TakesPart table) ∧
      ((.word .from ∈ tokens ∧ ∀ table ∈ document.tables,
          table ∈ named .from tokens ∨ table ∈ named .join tokens) ↔
        ∀ table ∈ document.tables, document.TakesPart table) := by
  obtain ⟨tables, strict, warnings⟩ := ofDocument_eq_ok_iff.1 accepted
  have interprets := Document.interpret_eq_ok_iff.1 strict
  obtain ⟨tokens, rendered, compiled⟩ := interprets.compiles tables dialect
  have kept : (Plan.ofQuery report.query).skipped = [] :=
    skipped_of_isClean (warnings.symm.trans (List.isEmpty_iff.1 clean))
  have «from» : .word .from ∈ tokens ↔ ∃ table ∈ document.tables, table ≠ "" := by
    rw [← interprets.tables]
    exact Query.from_mem_iff_of_kept rendered kept
  have names : ∀ table ∈ document.tables,
      (table ∈ named .from tokens ∨ table ∈ named .join tokens ↔ document.TakesPart table) := by
    intro table member
    rw [← interprets.takesPart_iff]
    exact Query.named_iff_takesPart rendered kept (interprets.tables ▸ member)
  refine ⟨tokens, rendered, compiled, «from», names, ?_⟩
  constructor
  · intro covered table member
    exact (names table member).1 (covered.2 table member)
  · intro all
    obtain ⟨first, member⟩ := List.exists_mem_of_ne_nil _ tables
    exact ⟨«from».2 ⟨first, member, (all first member).1⟩,
      fun table member => (names table member).2 (all table member)⟩

/-- All tables of this document are reached by its joins. -/
def chain : Document :=
  { Document.empty with
    tables := ["a", "b", "c"]
    joins := [⟨none, some "b", some "c", some "b.id = c.b_id"⟩,
      ⟨some "LEFT", some "a", some "b", some "a.id = b.a_id"⟩] }

/-- The statement of this document names all of its tables. -/
theorem named_iff_takesPart_of_isClean_chain :
    ∃ report, ofDocument .postgres chain = .ok report ∧ report.isClean = true ∧
      ∃ tokens, (report.query.compile .postgres).value =
          .compiled (Sql.text .postgres tokens) ∧ .word .from ∈ tokens ∧
        ∀ table ∈ chain.tables, table ∈ named .from tokens ∨ table ∈ named .join tokens := by
  have isClean : (ofDocument .postgres chain).toOption.map isClean = some true := by
    decide +kernel
  have all : ∀ table ∈ chain.tables, chain.TakesPart table := by
    have joined : ∀ table ∈ chain.tables, table ≠ "" ∧
        ∃ join ∈ chain.joins, join.table1 = some table ∨ join.table2 = some table := by decide
    exact fun table member => (joined table member).imp_right fun found => .inr (.inr found)
  cases accepted : ofDocument .postgres chain with
  | error failure =>
      rw [accepted] at isClean
      cases isClean
  | ok report =>
      rw [accepted] at isClean
      have clean := Option.some.inj isClean
      obtain ⟨tokens, _, compiled, _, _, covered⟩ := named_iff_takesPart_of_isClean accepted clean
      obtain ⟨listed, names⟩ := covered.2 all
      exact ⟨report, rfl, clean, tokens, compiled, listed, names⟩

/-- No join names the last table of this document. -/
def unjoined : Document :=
  { Document.empty with
    tables := ["a", "b", "c"]
    joins := [⟨some "INNER", some "a", some "b", some "a.id = b.a_id"⟩] }

/-- The only table of this document has no name. -/
def nameless : Document := { Document.empty with tables := [""] }

/-- Both documents have clean reports, but their statements leave out a table. -/
theorem isClean_unjoined_nameless :
    (∃ report, ofDocument .mysql unjoined = .ok report ∧ report.isClean = true ∧
      (report.query.compile .mysql).value =
        .compiled "SELECT * FROM a INNER JOIN b ON a.id = b.a_id" ∧
      report.query.statement.map (named .from) = .ok ["a"] ∧
      report.query.statement.map (named .join) = .ok ["b"] ∧ "c" ∈ unjoined.tables) ∧
    ∃ report, ofDocument .mysql nameless = .ok report ∧ report.isClean = true ∧
      (report.query.compile .mysql).value = .compiled "SELECT *" ∧
      report.query.statement.map (named .from) = .ok [] ∧ "" ∈ nameless.tables := by
  constructor
  · refine ⟨⟨(Query.ofTables ["a", "b", "c"]).join ⟨.inner, "a", "b", "a.id = b.a_id"⟩, []⟩, ?_⟩
    refine ⟨ofDocument_eq_ok_iff.2 ⟨by decide, by decide, by decide +kernel⟩, rfl, ?_⟩
    exact ⟨by decide +kernel, by decide +kernel, by decide +kernel, by decide⟩
  · refine ⟨⟨Query.ofTables [""], []⟩, ?_⟩
    refine ⟨ofDocument_eq_ok_iff.2 ⟨by decide, by decide, by decide +kernel⟩, rfl, ?_⟩
    exact ⟨by decide +kernel, by decide +kernel, by decide⟩

end Report

end SemanticQuery
