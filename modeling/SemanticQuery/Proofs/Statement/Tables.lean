/-
This file reads off a statement which names stand behind which words. The statement of a query names
its listed tables behind one word and the tables of its steps behind another one.
-/

import SemanticQuery.Proofs.Statement.Words

namespace SemanticQuery

namespace Sql

/-- These are the fragments for which the last word in front of them is the chosen one. -/
def namesAfter (chosen : Word) (last : Option Word) : List Token → List String
  | [] => []
  | .word word :: rest => namesAfter chosen (some word) rest
  | .fragment name :: rest =>
      if last = some chosen then name :: namesAfter chosen last rest
      else namesAfter chosen last rest
  | _ :: rest => namesAfter chosen last rest

/-- No word stands in front of a statement. -/
def named (chosen : Word) (tokens : List Token) : List String := namesAfter chosen none tokens

/-- The words behind which tables are named. -/
def Token.opensTables : Token → Bool
  | .word .from => true
  | .word .join => true
  | _ => false

/-- A word separates what stands behind it from what stands in front of it. -/
def StartsWithWord (tokens : List Token) : Prop := ∃ word rest, tokens = .word word :: rest

/-- Nothing in such a text is the name of a table. -/
def NamesNoTable (tokens : List Token) : Prop := ∀ token ∈ tokens, token.opensTables = false

variable {chosen : Word}

/-- Without the chosen word, nothing stands behind it. -/
theorem namesAfter_eq_nil {last : Option Word} {tokens : List Token}
    (other : last ≠ some chosen) (absent : .word chosen ∉ tokens) :
    namesAfter chosen last tokens = [] := by
  induction tokens generalizing last with
  | nil => rfl
  | cons token rest inductionHypothesis =>
      obtain ⟨different, later⟩ := not_or.1 (mt List.mem_cons.2 absent)
      cases token with
      | word word =>
          refine inductionHypothesis (fun same => different ?_) later
          rw [Option.some.inj same]
      | fragment name =>
          rw [namesAfter, if_neg other]
          exact inductionHypothesis other later
      | _ => exact inductionHypothesis other later

theorem NamesNoTable.named_eq_nil {tokens : List Token} (none : NamesNoTable tokens) :
    named .from tokens = [] ∧ named .join tokens = [] := by
  constructor
  · exact namesAfter_eq_nil nofun fun inside => Bool.noConfusion (none _ inside)
  · exact namesAfter_eq_nil nofun fun inside => Bool.noConfusion (none _ inside)

/-- The words for tables are among those that start a part of a statement. -/
theorem IsInner.namesNoTable {tokens : List Token} (inner : IsInner tokens) :
    NamesNoTable tokens := by
  intro token inside
  have noHead := inner token inside
  cases token with
  | word word => cases word <;> first | rfl | exact noHead
  | _ => rfl

theorem namesAfter_append (last : Option Word) (front : List Token) {back : List Token}
    (starts : StartsWithWord back) :
    namesAfter chosen last (front ++ [space] ++ back) =
      namesAfter chosen last front ++ named chosen back := by
  obtain ⟨word, rest, rfl⟩ := starts
  induction front generalizing last with
  | nil => rfl
  | cons token front inductionHypothesis =>
      cases token with
      | fragment name =>
          simp only [List.cons_append, namesAfter]
          split
          · rw [inductionHypothesis, List.cons_append]
          · exact inductionHypothesis last
      | word word => exact inductionHypothesis (some word)
      | _ => exact inductionHypothesis last

theorem startsWithWord_spaced {clause : List Token} (clauses : List (List Token))
    (starts : StartsWithWord clause) :
    StartsWithWord (List.intercalate [space] (clause :: clauses)) := by
  obtain ⟨word, rest, rfl⟩ := starts
  cases clauses with
  | nil => exact ⟨word, rest, List.intercalate_singleton⟩
  | cons second others => exact ⟨word, _, List.intercalate_cons_cons⟩

/-- A name stands behind the chosen word when it does so in one of the clauses. -/
theorem named_spaced {clauses : List (List Token)}
    (starts : ∀ clause ∈ clauses, StartsWithWord clause) :
    named chosen (List.intercalate [space] clauses) = clauses.flatMap (named chosen) := by
  induction clauses with
  | nil => rfl
  | cons first rest inductionHypothesis =>
      obtain ⟨_, later⟩ := List.forall_mem_cons.1 starts
      cases rest with
      | nil => simp
      | cons second others =>
          have start := startsWithWord_spaced others (later second List.mem_cons_self)
          -- The word at the start of the next clause ends the names of this one.
          rw [List.flatMap_cons, ← inductionHypothesis later, List.intercalate_cons_cons]
          exact namesAfter_append none first start

end Sql

namespace Clause

open Sql

/-- A clause, if it is present, starts with a word and names these tables behind the two words for
tables. The first of these words does not stand alone. -/
structure Names (clause : Option (List Token)) (listed joined : List String) : Prop where
  starts : ∀ tokens ∈ clause, StartsWithWord tokens
  opened : ∀ tokens ∈ clause, .word .from ∈ tokens → listed ≠ []
  listed : clause.elim [] (named .from) = listed
  joined : clause.elim [] (named .join) = joined

theorem names_none : Names none [] [] := ⟨nofun, nofun, rfl, rfl⟩

theorem names_some {word : Word} {rest : List Token} {listed joined : List String}
    (opened : .word .from ∈ [.word word, space] ++ rest → listed ≠ [])
    (listed_eq : named .from ([.word word, space] ++ rest) = listed)
    (joined_eq : named .join ([.word word, space] ++ rest) = joined) :
    Names (some ([.word word, space] ++ rest)) listed joined := by
  refine ⟨fun tokens present => ?_, fun tokens present => ?_, listed_eq, joined_eq⟩
  · cases present
    exact ⟨word, _, rfl⟩
  · cases present
    exact opened

/-- A clause names no table when its tokens do not. -/
theorem names_nil {word : Word} {rest : List Token}
    (other : (Token.word word).opensTables = false) (none : NamesNoTable rest) :
    Names (some ([.word word, space] ++ rest)) [] [] := by
  have all : NamesNoTable ([.word word, space] ++ rest) :=
    List.forall_mem_cons.2 ⟨other, List.forall_mem_cons.2 ⟨rfl, none⟩⟩
  exact names_some (fun inside => Bool.noConfusion (all _ inside)) all.named_eq_nil.1
    all.named_eq_nil.2

theorem names_select (columns : List String) : Names (some (select columns)) [] [] := by
  dsimp only [select]
  split
  · exact names_nil rfl (List.forall_mem_singleton.2 rfl)
  · exact names_nil rfl (isInner_fragments columns).namesNoTable

theorem namesAfter_fragments (names : List String) :
    namesAfter .from (some .from) (commaSeparated (names.map fun name => [.fragment name])) =
      names := by
  induction names with
  | nil => rfl
  | cons name rest inductionHypothesis =>
      cases rest with
      | nil => simp [commaSeparated, namesAfter]
      | cons second others =>
          rw [List.map_cons, List.map_cons, commaSeparated, List.intercalate_cons_cons]
          simp only [List.cons_append, List.nil_append, namesAfter, if_true]
          exact congrArg (name :: ·) inductionHypothesis

/-- The tables that are listed stand behind the first word. -/
theorem names_from (tables : List String) (hasJoins : Bool) :
    Names (Clause.from tables hasJoins) ((listed tables hasJoins).filter (· ≠ "")) [] := by
  dsimp only [Clause.from]
  split
  · next empty =>
      have none : (listed tables hasJoins).filter (· ≠ "") = [] :=
        List.map_eq_nil_iff.1 (List.isEmpty_iff.1 empty)
      exact none ▸ names_none
  · next some =>
      refine names_some (fun _ none => some ?_) (namesAfter_fragments _)
        (namesAfter_eq_nil nofun fun inside => ?_)
      · exact List.isEmpty_iff.2 (List.map_eq_nil_iff.2 none)
      · rcases List.mem_append.1 inside with front | names
        · simp [space] at front
        · exact Bool.noConfusion ((isInner_fragments _).namesNoTable _ names)

/-- A step names its table behind the second word. -/
theorem named_join (step : Plan.Step) :
    named .from (join step) = [] ∧ named .join (join step) = [step.table] := by
  unfold join
  cases step.edge.join.type <;> exact ⟨rfl, rfl⟩

theorem names_joins (steps : List Plan.Step) :
    Names (joins steps) [] (steps.map Plan.Step.table) := by
  have starts : ∀ clause ∈ steps.map join, StartsWithWord clause :=
    List.forall_mem_map.2 fun step _ => ⟨_, _, rfl⟩
  have noFrom : ∀ token ∈ List.intercalate [space] (steps.map join), token ≠ .word .from := by
    refine forall_mem_intercalate (by decide) (List.forall_mem_map.2 fun step _ => ?_)
    unfold join
    cases step.edge.join.type <;> simp [joinWord, space]
  have listed : (steps.map join).flatMap (named .from) = [] := by
    rw [List.flatMap_map, List.flatMap_eq_nil_iff]
    exact fun step _ => (named_join step).1
  have joined : (steps.map join).flatMap (named .join) = steps.map Plan.Step.table := by
    rw [List.flatMap_map, List.map_eq_flatMap]
    exact List.flatMap_congr fun step _ => (named_join step).2
  unfold joins
  cases steps with
  | nil => exact names_none
  | cons step rest =>
      refine ⟨fun tokens present => ?_, fun tokens present inside => ?_, ?_, ?_⟩
      · cases present
        exact startsWithWord_spaced _ (starts _ List.mem_cons_self)
      · cases present
        exact absurd rfl (noFrom _ inside)
      · exact (named_spaced starts).trans listed
      · exact (named_spaced starts).trans joined

theorem names_where {conditions : List Condition} {clause : Option (List Token)}
    (rendered : Clause.where conditions = .ok clause) : Names clause [] [] := by
  simp only [Clause.where, bind_eq_ok_iff, pure_eq_ok_iff] at rendered
  obtain ⟨items, itemsRendered, rfl⟩ := rendered
  split
  · exact names_none
  · exact names_nil rfl (isInner_predicates itemsRendered).namesNoTable

theorem names_groupBy (columns : Option (List String)) : Names (groupBy columns) [] [] := by
  dsimp only [groupBy]
  split
  · exact names_none
  · exact names_nil rfl (isInner_fragments _).namesNoTable

theorem names_orderBy (terms : Option (List OrderTerm)) : Names (orderBy terms) [] [] := by
  dsimp only [orderBy]
  split
  · exact names_none
  · exact names_nil rfl (isInner_orderTerms _).namesNoTable

theorem names_limit (limit : Option UInt64) : Names (Clause.limit limit) [] [] := by
  cases limit with
  | none => exact names_none
  | some count => exact names_nil rfl (List.forall_mem_singleton.2 rfl)

section Clauses

variable {chosen : Word} {clauses : List (Option (List Token))}
variable (names : ∀ clause ∈ clauses, ∃ listed joined, Names clause listed joined)

include names

/-- A name stands behind a word when it does so in one of the clauses that are present. -/
theorem named_clauses :
    named chosen (List.intercalate [space] (clauses.filterMap id)) =
      clauses.flatMap fun clause => clause.elim [] (named chosen) := by
  rw [named_spaced]
  · clear names
    induction clauses with
    | nil => rfl
    | cons clause rest inductionHypothesis =>
        cases clause with
        | none => exact inductionHypothesis
        | some tokens => exact congrArg (named chosen tokens ++ ·) inductionHypothesis
  · intro tokens inside
    obtain ⟨clause, member, present⟩ := List.mem_filterMap.1 inside
    obtain ⟨listed, joined, parts⟩ := names clause member
    exact parts.starts tokens present

/-- The first word for tables stands in front of a name wherever it stands in a statement. -/
theorem from_mem_iff :
    .word .from ∈ List.intercalate [space] (clauses.filterMap id) ↔
      named .from (List.intercalate [space] (clauses.filterMap id)) ≠ [] := by
  constructor
  · contrapose!
    intro none
    rw [named_clauses names, List.flatMap_eq_nil_iff] at none
    have absent : ∀ token ∈ List.intercalate [space] (clauses.filterMap id),
        token ≠ .word .from := by
      refine forall_mem_intercalate (by decide) fun tokens inside token found same => ?_
      obtain ⟨clause, member, present⟩ := List.mem_filterMap.1 inside
      obtain ⟨listed, joined, parts⟩ := names clause member
      have unlisted : listed = [] := parts.listed.symm.trans (none clause member)
      exact parts.opened tokens present (same ▸ found) unlisted
    exact fun inside => absent _ inside rfl
  · contrapose!
    exact namesAfter_eq_nil nofun

end Clauses

end Clause

namespace Query

open Sql (Token named)

/-- The statement of a query names its listed tables and the tables that its plan brings in. It has
the word for listed tables only if there are any. -/
theorem named_statement {query : Query} {tokens : List Token}
    (rendered : query.statement = .ok tokens) :
    named .from tokens = (Clause.listed query.tables (!query.joins.isEmpty)).filter (· ≠ "") ∧
      named .join tokens = (Plan.ofQuery query).steps.map Plan.Step.table ∧
      (.word .from ∈ tokens ↔ named .from tokens ≠ []) := by
  obtain ⟨clauses, clausesRendered, rfl⟩ := map_eq_ok_iff.1 rendered
  simp only [Query.clauses, bind_eq_ok_iff, pure_eq_ok_iff] at clausesRendered
  obtain ⟨predicates, predicatesRendered, rfl⟩ := clausesRendered
  have select := Clause.names_select query.columns
  have «from» := Clause.names_from query.tables (!query.joins.isEmpty)
  have joins := Clause.names_joins (Plan.ofQuery query).steps
  have conditions := Clause.names_where predicatesRendered
  have groupBy := Clause.names_groupBy query.groupBy
  have orderBy := Clause.names_orderBy query.orderBy
  have limit := Clause.names_limit query.effectiveLimit?
  have names : ∀ clause ∈ [some (Clause.select query.columns),
      Clause.from query.tables (!query.joins.isEmpty), Clause.joins (Plan.ofQuery query).steps,
      predicates, Clause.groupBy query.groupBy, Clause.orderBy query.orderBy,
      Clause.limit query.effectiveLimit?], ∃ listed joined, Clause.Names clause listed joined := by
    intro clause member
    simp only [List.mem_cons, List.not_mem_nil, or_false] at member
    rcases member with rfl | rfl | rfl | rfl | rfl | rfl | rfl
    exacts [⟨_, _, select⟩, ⟨_, _, «from»⟩, ⟨_, _, joins⟩, ⟨_, _, conditions⟩, ⟨_, _, groupBy⟩,
      ⟨_, _, orderBy⟩, ⟨_, _, limit⟩]
  refine ⟨?listed, ?joined, Clause.from_mem_iff names⟩
  case listed =>
    rw [Clause.named_clauses names]
    simp only [List.flatMap_cons, List.flatMap_nil, select.listed, «from».listed, joins.listed,
      conditions.listed, groupBy.listed, orderBy.listed, limit.listed, List.nil_append,
      List.append_nil]
  case joined =>
    rw [Clause.named_clauses names]
    simp only [List.flatMap_cons, List.flatMap_nil, select.joined, «from».joined, joins.joined,
      conditions.joined, groupBy.joined, orderBy.joined, limit.joined, List.nil_append,
      List.append_nil]

end Query

end SemanticQuery
