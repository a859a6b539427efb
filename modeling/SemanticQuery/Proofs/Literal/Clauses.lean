/-
This file shows that the clauses of a statement are readable. Only the predicates hold string
literals.
-/

import Mathlib.Data.List.Basic
import SemanticQuery.Proofs.Literal.Operands
import SemanticQuery.Proofs.Plan.Accounting
import SemanticQuery.Statement.Compilation

namespace SemanticQuery

namespace Clause

open Sql

theorem readable_fragments {texts : List String} (plain : ∀ text ∈ texts, IsPlain text.toList) :
    ∀ item ∈ fragments texts, Readable item := by
  intro item member
  obtain ⟨text, inside, rfl⟩ := List.mem_map.1 member
  exact readable_singleton _ (plain text (List.mem_of_mem_filter inside))

theorem strings_fragments (texts : List String) : (fragments texts).flatMap strings = [] := by
  simp [fragments, List.flatMap_map, strings, Token.string?]

/-- A keyword starts a list of items. -/
theorem readable_listing (word : Word) {items : List (List Token)}
    (readable : ∀ item ∈ items, Readable item) :
    Readable ([.word word, space] ++ commaSeparated items) :=
  (readable_commaSeparated readable).cons_space (.word word) trivial

theorem strings_listing (word : Word) {items : List (List Token)}
    (none : items.flatMap strings = []) :
    strings ([.word word, space] ++ commaSeparated items) = [] := by
  have separator : strings [.mark .comma, space] = [] := rfl
  rw [strings_append, commaSeparated, strings_intercalate separator, none]
  rfl

section Silent

variable {tokens : List Token}

theorem strings_select (columns : List String) : strings (select columns) = [] := by
  dsimp only [select]
  split
  · rfl
  · exact strings_listing _ (strings_fragments columns)

theorem strings_from {tables : List String} {hasJoins : Bool}
    (present : Clause.from tables hasJoins = some tokens) : strings tokens = [] := by
  dsimp only [Clause.from] at present
  split at present <;> cases present
  exact strings_listing _ (strings_fragments _)

theorem strings_joins {steps : List Plan.Step} (present : joins steps = some tokens) :
    strings tokens = [] := by
  unfold joins at present
  split at present <;> cases present
  have separator : strings [space] = [] := rfl
  rw [strings_intercalate separator, List.flatMap_map, List.flatMap_eq_nil_iff]
  exact fun _ _ => rfl

theorem strings_groupBy {columns : Option (List String)} (present : groupBy columns = some tokens) :
    strings tokens = [] := by
  dsimp only [groupBy] at present
  split at present <;> cases present
  exact strings_listing _ (strings_fragments _)

theorem strings_orderBy {terms : Option (List OrderTerm)} (present : orderBy terms = some tokens) :
    strings tokens = [] := by
  dsimp only [orderBy] at present
  split at present <;> cases present
  refine strings_listing _ ?_
  simp [List.flatMap_map, orderTerm, strings, space, Token.string?]

theorem strings_limit {limit : Option UInt64} (present : Clause.limit limit = some tokens) :
    strings tokens = [] := by
  obtain ⟨count, _, rfl⟩ := Option.map_eq_some_iff.1 present
  rfl

end Silent

/-- A clause is quiet when it is readable and quotes nothing. -/
def IsQuiet (tokens : List Token) : Prop := Readable tokens ∧ strings tokens = []

theorem isQuiet_select {columns : List String}
    (plain : ∀ column ∈ columns, IsPlain column.toList) : IsQuiet (select columns) := by
  refine ⟨?_, strings_select columns⟩
  dsimp only [select]
  split
  · exact (readable_singleton (.mark .star) trivial).cons_space (.word .select) trivial
  · exact readable_listing _ (readable_fragments plain)

theorem isQuiet_from {tables : List String} {hasJoins : Bool} {tokens : List Token}
    (plain : ∀ table ∈ tables, IsPlain table.toList)
    (present : Clause.from tables hasJoins = some tokens) : IsQuiet tokens := by
  have listedPlain : ∀ table ∈ listed tables hasJoins, IsPlain table.toList := by
    intro table member
    apply plain
    unfold listed at member
    split at member
    · exact List.mem_of_mem_take member
    · exact member
  refine ⟨?_, strings_from present⟩
  dsimp only [Clause.from] at present
  split at present <;> cases present
  exact readable_listing _ (readable_fragments listedPlain)

theorem isQuiet_groupBy {columns : Option (List String)} {tokens : List Token}
    (plain : ∀ column ∈ columns.getD [], IsPlain column.toList)
    (present : groupBy columns = some tokens) : IsQuiet tokens := by
  refine ⟨?_, strings_groupBy present⟩
  dsimp only [groupBy] at present
  split at present <;> cases present
  exact readable_listing _ (readable_fragments plain)

theorem isQuiet_orderBy {terms : Option (List OrderTerm)} {tokens : List Token}
    (plain : ∀ term ∈ terms.getD [], IsPlain term.column.toList)
    (present : orderBy terms = some tokens) : IsQuiet tokens := by
  refine ⟨?_, strings_orderBy present⟩
  dsimp only [orderBy] at present
  split at present <;> cases present
  refine readable_listing _ fun item member => ?_
  obtain ⟨term, inside, rfl⟩ := List.mem_map.1 member
  exact (readable_singleton (.word _) trivial).cons_space (.fragment _)
    (plain term (List.mem_of_mem_filter inside))

theorem isQuiet_limit {limit : Option UInt64} {tokens : List Token}
    (present : Clause.limit limit = some tokens) : IsQuiet tokens := by
  refine ⟨?_, strings_limit present⟩
  obtain ⟨count, _, rfl⟩ := Option.map_eq_some_iff.1 present
  exact (readable_singleton (.integer _) trivial).cons_space (.word .limit) trivial

theorem isQuiet_join {step : Plan.Step} (table : IsPlain step.table.toList)
    (condition : IsPlain step.edge.join.condition.toList) : IsQuiet (join step) := by
  have tail := (readable_singleton (.fragment step.edge.join.condition) condition).cons_space
    (.word .on) trivial
  have named := (tail.cons_space (.fragment step.table) table).cons_space (.word .join) trivial
  exact ⟨named.cons_space (.word (joinWord step.edge.join.type)) trivial, rfl⟩

theorem isQuiet_joins {steps : List Plan.Step} {tokens : List Token}
    (plain : ∀ step ∈ steps, IsQuiet (join step)) (present : joins steps = some tokens) :
    IsQuiet tokens := by
  refine ⟨?_, strings_joins present⟩
  unfold joins at present
  split at present <;> cases present
  exact readable_spaced (List.forall_mem_map.2 fun step member => (plain step member).1)

theorem isHarmless_operatorToken (operator : Operator) : (operatorToken operator).IsHarmless := by
  cases operator <;> trivial

theorem string?_operatorToken (operator : Operator) :
    (operatorToken operator).string? = none := by
  cases operator <;> rfl

/-- A predicate quotes the texts of its operand. -/
theorem strings_predicate {column : String} {operator : Operator} {operand : Operand}
    {tokens : List Token} (rendered : predicate column operator operand = .ok tokens) :
    strings tokens = operand.quotedTexts operator := by
  simp only [predicate, bind_eq_ok_iff, pure_eq_ok_iff] at rendered
  obtain ⟨inner, innerRendered, rfl⟩ := rendered
  rw [strings_append, (operand_eq_ok innerRendered).2, strings_cons, strings_cons, strings_cons,
    string?_operatorToken]
  rfl

theorem readable_predicate {column : String} {operator : Operator} {operand : Operand}
    {tokens : List Token} (plain : IsPlain column.toList)
    (rendered : predicate column operator operand = .ok tokens) : Readable tokens := by
  simp only [predicate, bind_eq_ok_iff, pure_eq_ok_iff] at rendered
  obtain ⟨inner, innerRendered, rfl⟩ := rendered
  exact ((operand_eq_ok innerRendered).1.cons_space _
    (isHarmless_operatorToken operator)).cons_space (.fragment column) plain

/-- The predicate of a condition quotes the texts of that condition, if there is one. -/
theorem strings_predicate? {condition : Condition} {found : Option (List Token)}
    (rendered : predicate? condition = .ok found) :
    found.toList.flatMap strings = condition.quotedTexts := by
  unfold predicate? at rendered
  unfold Condition.quotedTexts
  split_ifs at rendered ⊢
  · split at rendered
    · next missing =>
        cases rendered
        simp [missing]
    · next operand present =>
        obtain ⟨tokens, predicateRendered, rfl⟩ := map_eq_ok_iff.1 rendered
        simp [present, strings_predicate predicateRendered]
  · cases rendered
    rfl

theorem readable_predicate? {condition : Condition} {found : Option (List Token)}
    (plain : IsPlain condition.column.toList) (rendered : predicate? condition = .ok found) :
    ∀ item ∈ found, Readable item := by
  unfold predicate? at rendered
  split_ifs at rendered
  · split at rendered
    · cases rendered
      simp
    · obtain ⟨tokens, predicateRendered, rfl⟩ := map_eq_ok_iff.1 rendered
      intro item present
      cases present
      exact readable_predicate plain predicateRendered
  · cases rendered
    simp

/-- The predicates quote the texts of their conditions in the same order. -/
theorem strings_predicates {conditions : List Condition} {items : List (List Token)}
    (rendered : predicates conditions = .ok items) :
    items.flatMap strings = conditions.flatMap Condition.quotedTexts := by
  induction conditions generalizing items with
  | nil =>
      cases rendered
      rfl
  | cons condition rest inductionHypothesis =>
      simp only [predicates, bind_eq_ok_iff, pure_eq_ok_iff] at rendered
      obtain ⟨found, foundRendered, later, laterRendered, rfl⟩ := rendered
      rw [List.flatMap_append, List.flatMap_cons, strings_predicate? foundRendered,
        inductionHypothesis laterRendered]

theorem readable_predicates {conditions : List Condition} {items : List (List Token)}
    (plain : ∀ condition ∈ conditions, IsPlain condition.column.toList)
    (rendered : predicates conditions = .ok items) : ∀ item ∈ items, Readable item := by
  induction conditions generalizing items with
  | nil =>
      cases rendered
      exact List.forall_mem_nil _
  | cons condition rest inductionHypothesis =>
      obtain ⟨plainFirst, plainRest⟩ := List.forall_mem_cons.1 plain
      simp only [predicates, bind_eq_ok_iff, pure_eq_ok_iff] at rendered
      obtain ⟨found, foundRendered, later, laterRendered, rfl⟩ := rendered
      refine List.forall_mem_append.2
        ⟨fun item member => ?_, inductionHypothesis plainRest laterRendered⟩
      exact readable_predicate? plainFirst foundRendered item (Option.mem_toList.1 member)

/-- The condition of a statement quotes all those texts. -/
theorem strings_where {conditions : List Condition} {found : Option (List Token)}
    (rendered : Clause.where conditions = .ok found) :
    found.toList.flatMap strings = conditions.flatMap Condition.quotedTexts := by
  simp only [Clause.where, bind_eq_ok_iff, pure_eq_ok_iff] at rendered
  obtain ⟨items, itemsRendered, rfl⟩ := rendered
  rw [← strings_predicates itemsRendered]
  split
  · next empty => simp [List.isEmpty_iff.1 empty]
  · have separator : strings [space, .word .and, space] = [] := rfl
    rw [Option.toList_some, List.flatMap_singleton, strings_append, andSeparated,
      strings_intercalate separator]
    rfl

theorem readable_where {conditions : List Condition} {found : Option (List Token)}
    (plain : ∀ condition ∈ conditions, IsPlain condition.column.toList)
    (rendered : Clause.where conditions = .ok found) : ∀ tokens ∈ found, Readable tokens := by
  simp only [Clause.where, bind_eq_ok_iff, pure_eq_ok_iff] at rendered
  obtain ⟨items, itemsRendered, rfl⟩ := rendered
  have readable := readable_predicates plain itemsRendered
  split
  · simp
  · intro tokens present
    cases present
    exact (readable_andSeparated readable).cons_space (.word .where) trivial

/-- A clause that never quotes anything does not do so when it is absent either. -/
theorem flatMap_strings_eq_nil {clause : Option (List Token)}
    (silent : ∀ tokens, clause = some tokens → strings tokens = []) :
    clause.toList.flatMap strings = [] := by
  cases clause with
  | none => rfl
  | some tokens => simpa using silent tokens rfl

end Clause

namespace Query

open Sql (Token Readable strings strings_intercalate readable_spaced)

/-- A query is plain when every text that reaches its statement unquoted is. -/
structure IsPlain (query : Query) : Prop where
  tables : ∀ table ∈ query.tables, Sql.IsPlain table.toList
  columns : ∀ column ∈ query.columns, Sql.IsPlain column.toList
  joins : ∀ join ∈ query.joins, Sql.IsPlain join.table1.toList ∧ Sql.IsPlain join.table2.toList ∧
    Sql.IsPlain join.condition.toList
  conditions : ∀ condition ∈ query.conditions, Sql.IsPlain condition.column.toList
  groupBy : ∀ column ∈ query.groupBy.getD [], Sql.IsPlain column.toList
  orderBy : ∀ term ∈ query.orderBy.getD [], Sql.IsPlain term.column.toList

/-- The steps of a plan have texts of the query only. -/
theorem IsPlain.isQuiet_step {query : Query} (plain : query.IsPlain) :
    ∀ step ∈ (Plan.ofQuery query).steps, Clause.IsQuiet (Clause.join step) := by
  intro step member
  obtain ⟨found, table⟩ := Plan.step_of_mem_ofQuery member
  obtain ⟨first, second, condition⟩ := plain.joins _ (List.mem_of_getElem? found)
  refine Clause.isQuiet_join ?_ condition
  rcases table with same | same
  · exact same ▸ first
  · exact same ▸ second

/-- A statement quotes the texts of its conditions, whatever else is in its query. -/
theorem strings_statement {query : Query} {tokens : List Token}
    (rendered : query.statement = .ok tokens) :
    strings tokens = query.conditions.flatMap Condition.quotedTexts := by
  obtain ⟨clauses, clausesRendered, rfl⟩ := map_eq_ok_iff.1 rendered
  simp only [Query.clauses, bind_eq_ok_iff, pure_eq_ok_iff] at clausesRendered
  obtain ⟨predicates, predicatesRendered, rfl⟩ := clausesRendered
  have separator : strings [Sql.space] = [] := rfl
  rw [strings_intercalate separator, List.filterMap_eq_flatMap_toList, List.flatMap_assoc]
  simp [Clause.strings_select, Clause.strings_where predicatesRendered,
    Clause.flatMap_strings_eq_nil fun _ => Clause.strings_from,
    Clause.flatMap_strings_eq_nil fun _ => Clause.strings_joins,
    Clause.flatMap_strings_eq_nil fun _ => Clause.strings_groupBy,
    Clause.flatMap_strings_eq_nil fun _ => Clause.strings_orderBy,
    Clause.flatMap_strings_eq_nil fun _ => Clause.strings_limit]

/-- The statement of a plain query is readable, and it quotes the texts of its conditions. -/
theorem statement_eq_ok {query : Query} {tokens : List Token} (plain : query.IsPlain)
    (rendered : query.statement = .ok tokens) :
    Readable tokens ∧ strings tokens = query.conditions.flatMap Condition.quotedTexts := by
  refine ⟨?_, strings_statement rendered⟩
  obtain ⟨clauses, clausesRendered, rfl⟩ := map_eq_ok_iff.1 rendered
  simp only [Query.clauses, bind_eq_ok_iff, pure_eq_ok_iff] at clausesRendered
  obtain ⟨predicates, predicatesRendered, rfl⟩ := clausesRendered
  apply readable_spaced
  intro tokens member
  obtain ⟨clause, inside, present⟩ := List.mem_filterMap.1 member
  simp only [List.mem_cons, List.not_mem_nil, or_false] at inside
  rcases inside with rfl | rfl | rfl | rfl | rfl | rfl | rfl
  · exact (Option.some.inj present) ▸ (Clause.isQuiet_select plain.columns).1
  · exact (Clause.isQuiet_from plain.tables present).1
  · exact (Clause.isQuiet_joins plain.isQuiet_step present).1
  · exact Clause.readable_where plain.conditions predicatesRendered tokens present
  · exact (Clause.isQuiet_groupBy plain.groupBy present).1
  · exact (Clause.isQuiet_orderBy plain.orderBy present).1
  · exact (Clause.isQuiet_limit present).1

end Query

end SemanticQuery
