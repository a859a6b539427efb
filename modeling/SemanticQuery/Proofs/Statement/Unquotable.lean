/-
This file shows why a statement cannot be rendered. The only fault is a double that is not finite
and that is a literal of a condition, and the first such double is the reason.
-/

import SemanticQuery.Proofs.Number.Finite
import SemanticQuery.Proofs.Statement.Compiled

namespace SemanticQuery

/-- The scalars of an operand are itself or the items of its list. -/
def Operand.scalars : Operand → List Scalar
  | .scalar value => [value]
  | .list items => items

/-- These scalars become literals of their own. A list is displayed as a whole unless its operator
wants a list or two bounds. -/
def Operand.literals : Operator → Operand → List Scalar
  | .oneOf, .list items => items
  | .between, .list [low, high] => [low, high]
  | _, .scalar value => [value]
  | _, .list _ => []

theorem Operand.literals_subset (operator : Operator) (operand : Operand) :
    operand.literals operator ⊆ operand.scalars := by
  unfold literals
  split <;> simp [scalars]

namespace Condition

/-- A condition that is not rendered has no literals. -/
def literals (condition : Condition) : List Scalar :=
  if condition.isRenderable then
    condition.operand.elim [] (Operand.literals condition.operator)
  else []

/-- A literal of a condition is its operand, an item of the list to choose from, or a bound of its
range. -/
inductive HasLiteral (condition : Condition) (scalar : Scalar) : Prop where
  | single (operand : condition.operand = some (.scalar scalar))
  | item {items : List Scalar} (operator : condition.operator = .oneOf)
      (operand : condition.operand = some (.list items)) (inside : scalar ∈ items)
  | bound {low high : Scalar} (operator : condition.operator = .between)
      (operand : condition.operand = some (.list [low, high])) (inside : scalar ∈ [low, high])

theorem mem_literals_iff {condition : Condition} {scalar : Scalar} :
    scalar ∈ condition.literals ↔ condition.isRenderable ∧ condition.HasLiteral scalar := by
  obtain ⟨column, operator, operand, table⟩ := condition
  unfold literals
  split
  · next renderable =>
      rw [and_iff_right renderable]
      constructor
      · intro inside
        cases operand with
        | none => cases inside
        | some operand =>
            dsimp only [Option.elim_some] at inside
            unfold Operand.literals at inside
            split at inside
            · exact .item rfl rfl inside
            · exact .bound rfl rfl inside
            · exact List.mem_singleton.1 inside ▸ .single rfl
            · cases inside
      · rintro (same | ⟨same, present, inside⟩ | ⟨same, present, inside⟩)
        · cases same
          cases operator <;> exact List.mem_singleton_self scalar
        · cases same
          cases present
          exact inside
        · cases same
          cases present
          exact inside
  · next skipped => exact iff_of_false List.not_mem_nil fun parts => skipped parts.1

end Condition

namespace Sql

/-- Only a double that is not finite has no literal. -/
def faults : Scalar → List QuoteError
  | .float value => if value.isFinite then [] else [.notFinite value]
  | _ => []

theorem head?_faults_eq_some_iff {scalar : Scalar} {error : QuoteError} :
    (faults scalar).head? = some error ↔
      ∃ number, scalar = .float number ∧ number.isFinite = false ∧ error = .notFinite number := by
  cases scalar with
  | float number =>
      rw [faults]
      split
      · next finite => simp [finite]
      · next notFinite =>
          rw [List.head?_cons, Option.some.injEq]
          constructor
          · rintro rfl
            exact ⟨number, rfl, Bool.eq_false_iff.2 notFinite, rfl⟩
          · rintro ⟨_, ⟨⟩, _, rfl⟩
            rfl
  | _ => simp [faults]

theorem faults_eq_nil_iff {scalar : Scalar} :
    faults scalar = [] ↔ ∀ number, scalar = .float number → number.isFinite = true := by
  cases scalar with
  | float number => cases finite : number.isFinite <;> simp [faults, finite]
  | _ => simp [faults]

theorem failsFirst_literal (scalar : Scalar) : FailsFirst (literal scalar) (faults scalar) := by
  cases scalar with
  | float number =>
      rw [literal, faults]
      split
      · next exactly same =>
          rw [if_pos ((isFinite_iff number).2 ⟨exactly, same⟩)]
          exact .ok _
      · next none =>
          have notFinite : ¬number.isFinite = true := fun finite => by
            obtain ⟨exactly, same⟩ := (isFinite_iff number).1 finite
            exact none exactly same
          rw [if_neg notFinite]
          exact .error _ []
  | _ => exact .ok _

theorem failsFirst_literals (items : List Scalar) :
    FailsFirst (literals items) (items.flatMap faults) := by
  induction items with
  | nil => exact .ok []
  | cons item rest inductionHypothesis =>
      rw [List.flatMap_cons, literals]
      exact (failsFirst_literal item).bind fun token => inductionHypothesis.map (token :: ·)

theorem failsFirst_parenthesized (items : List Scalar) :
    FailsFirst (parenthesized items) (items.flatMap faults) :=
  (failsFirst_literals items).map _

theorem failsFirst_range (low high : Scalar) :
    FailsFirst (range low high) ([low, high].flatMap faults) := by
  rw [List.flatMap_cons, List.flatMap_singleton]
  exact (failsFirst_literal low).bind fun _ => (failsFirst_literal high).map _

/-- An operand fails with the first fault of its literals. -/
theorem failsFirst_operand (operator : Operator) (operand : Operand) :
    FailsFirst (Sql.operand operator operand) ((operand.literals operator).flatMap faults) := by
  unfold Sql.operand
  split
  · exact failsFirst_parenthesized _
  · exact failsFirst_parenthesized _
  · exact failsFirst_range _ _
  · next value notOneOf =>
      have single : (Operand.scalar value).literals operator = [value] := by
        cases operator <;> rfl
      rw [single, List.flatMap_singleton]
      exact (failsFirst_literal value).map _
  · next items notOneOf notRange =>
      have none : (Operand.list items).literals operator = [] := by
        rw [Operand.literals]
        · exact notOneOf
        · exact notRange
      rw [none]
      exact .ok _

end Sql

namespace Clause

theorem failsFirst_predicate? (condition : Condition) :
    FailsFirst (predicate? condition) (condition.literals.flatMap Sql.faults) := by
  rw [predicate?, Condition.literals]
  split
  · cases condition.operand with
    | none => exact .ok none
    | some operand =>
        exact ((Sql.failsFirst_operand condition.operator operand).map _).map some
  · exact .ok none

theorem failsFirst_predicates (conditions : List Condition) :
    FailsFirst (predicates conditions)
      ((conditions.flatMap Condition.literals).flatMap Sql.faults) := by
  induction conditions with
  | nil => exact .ok []
  | cons condition rest inductionHypothesis =>
      rw [List.flatMap_cons, List.flatMap_append, predicates]
      exact (failsFirst_predicate? condition).bind fun first =>
        inductionHypothesis.map (first.toList ++ ·)

end Clause

namespace Query

/-- All scalars of the conditions, whether they become literals or not. -/
def scalars (query : Query) : List Scalar :=
  query.conditions.flatMap fun condition => condition.operand.elim [] Operand.scalars

/-- The literals of a query come in the order of the conditions. -/
def literals (query : Query) : List Scalar := query.conditions.flatMap Condition.literals

/-- The first literal that is not finite has only finite ones in front of it. -/
structure FirstNotFinite (query : Query) (number : Float) : Prop where
  notFinite : number.isFinite = false
  first : ∃ before after, query.literals = before ++ .float number :: after ∧
    ∀ other, .float other ∈ before → other.isFinite = true

theorem literals_subset (query : Query) : query.literals ⊆ query.scalars := by
  intro scalar inside
  obtain ⟨condition, member, found⟩ := List.mem_flatMap.1 inside
  refine List.mem_flatMap.2 ⟨condition, member, ?_⟩
  unfold Condition.literals at found
  split at found
  · cases present : condition.operand with
    | none =>
        rw [present] at found
        cases found
    | some operand =>
        rw [present] at found
        exact Operand.literals_subset condition.operator operand found
  · cases found

theorem failsFirst_statement (query : Query) :
    FailsFirst query.statement (query.literals.flatMap Sql.faults) :=
  (((Clause.failsFirst_predicates query.conditions).map _).map _).map _

/-- A statement is rendered when its literals are finite. -/
theorem exists_statement_iff {query : Query} :
    (∃ tokens, query.statement = .ok tokens) ↔
      ∀ number, .float number ∈ query.literals → number.isFinite = true := by
  rw [query.failsFirst_statement.exists_ok_iff, List.flatMap_eq_nil_iff]
  simp only [Sql.faults_eq_nil_iff]
  constructor
  · intro finite number inside
    exact finite _ inside number rfl
  · rintro finite _ inside number rfl
    exact finite number inside

/-- A statement cannot be rendered when one of the literals is not finite, and its error names the
first of these. -/
theorem statement_eq_error_iff {query : Query} {error : Sql.QuoteError} :
    query.statement = .error error ↔
      ∃ number, query.FirstNotFinite number ∧ error = .notFinite number := by
  rw [query.failsFirst_statement error, List.head?_flatMap, List.findSome?_eq_some_iff]
  simp only [Sql.head?_faults_eq_some_iff, List.head?_eq_none_iff, Sql.faults_eq_nil_iff]
  constructor
  · rintro ⟨before, _, after, split, ⟨number, rfl, notFinite, rfl⟩, finite⟩
    exact ⟨number, ⟨notFinite, before, after, split, fun other inside => finite _ inside _ rfl⟩,
      rfl⟩
  · rintro ⟨number, ⟨notFinite, before, after, split, finite⟩, rfl⟩
    refine ⟨before, _, after, split, ⟨number, rfl, notFinite, rfl⟩, ?_⟩
    rintro _ inside other rfl
    exact finite other inside

/-- If some literal is not finite, one of these is the first. -/
theorem exists_firstNotFinite_iff {query : Query} :
    (∃ number, query.FirstNotFinite number) ↔
      ∃ number, .float number ∈ query.literals ∧ number.isFinite = false := by
  constructor
  · rintro ⟨number, notFinite, before, after, split, _⟩
    exact ⟨number, split ▸ List.mem_append_cons_self, notFinite⟩
  · rintro ⟨number, inside, notFinite⟩
    cases rendered : query.statement with
    | ok tokens =>
        have finite := exists_statement_iff.1 ⟨tokens, rendered⟩ number inside
        exact absurd finite (Bool.eq_false_iff.1 notFinite)
    | error error =>
        obtain ⟨culprit, first, _⟩ := statement_eq_error_iff.1 rendered
        exact ⟨culprit, first⟩

/-- The doubles of a finite query are finite. -/
def IsFinite (query : Query) : Prop :=
  ∀ number, .float number ∈ query.scalars → number.isFinite = true

/-- The statement of a finite query is always rendered. -/
theorem IsFinite.statement {query : Query} (finite : query.IsFinite) :
    ∃ tokens, query.statement = .ok tokens :=
  exists_statement_iff.2 fun number inside => finite number (query.literals_subset inside)

theorem float_mem_literals_iff {query : Query} {number : Float} :
    .float number ∈ query.literals ↔ ∃ condition ∈ query.conditions,
      condition.isRenderable ∧ condition.HasLiteral (.float number) := by
  rw [literals, List.mem_flatMap]
  simp only [Condition.mem_literals_iff]

/-- A statement is rendered when all conditions that can be have finite literals. -/
theorem exists_statement_iff_finite {query : Query} :
    (∃ tokens, query.statement = .ok tokens) ↔ ∀ condition ∈ query.conditions,
      condition.isRenderable → ∀ number, condition.HasLiteral (.float number) →
        number.isFinite = true := by
  rw [exists_statement_iff]
  simp only [float_mem_literals_iff]
  constructor
  · intro finite condition member renderable number literal
    exact finite number ⟨condition, member, renderable, literal⟩
  · rintro finite number ⟨condition, member, renderable, literal⟩
    exact finite condition member renderable number literal

/-- A query with tables degrades because of a literal when a condition that can be rendered has a
literal that is not finite, and the first of these is the reason. In all other cases it compiles,
whatever numbers stand in lists that are displayed and in conditions that are skipped. -/
theorem compile_unquotable_iff (dialect : Dialect) (query : Query) :
    (∀ error, (query.compile dialect).value = .degraded (.unquotable error) ↔
      query.tables ≠ [] ∧ ∃ number, query.FirstNotFinite number ∧ error = .notFinite number) ∧
    ((∃ error, (query.compile dialect).value = .degraded (.unquotable error)) ↔
      query.tables ≠ [] ∧ ∃ condition ∈ query.conditions, condition.isRenderable ∧
        ∃ number, condition.HasLiteral (.float number) ∧ number.isFinite = false) ∧
    ((∃ sql, (query.compile dialect).value = .compiled sql) ↔
      query.tables ≠ [] ∧ ∀ condition ∈ query.conditions, condition.isRenderable →
        ∀ number, condition.HasLiteral (.float number) → number.isFinite = true) := by
  have reasons (error : Sql.QuoteError) :
      (query.compile dialect).value = .degraded (.unquotable error) ↔
        query.tables ≠ [] ∧ ∃ number, query.FirstNotFinite number ∧ error = .notFinite number := by
    rw [compile_eq_degraded_iff]
    simp [statement_eq_error_iff]
  refine ⟨reasons, ?degraded, ?compiled⟩
  case degraded =>
    have culprit : (∃ error, (query.compile dialect).value = .degraded (.unquotable error)) ↔
        query.tables ≠ [] ∧ ∃ number, query.FirstNotFinite number := by
      simp [reasons]
    rw [culprit, exists_firstNotFinite_iff]
    simp only [float_mem_literals_iff]
    apply and_congr_right
    intro _
    constructor
    · rintro ⟨number, ⟨condition, member, renderable, literal⟩, notFinite⟩
      exact ⟨condition, member, renderable, number, literal, notFinite⟩
    · rintro ⟨condition, member, renderable, number, literal, notFinite⟩
      exact ⟨number, ⟨condition, member, renderable, literal⟩, notFinite⟩
  case compiled =>
    have rendered : (∃ sql, (query.compile dialect).value = .compiled sql) ↔
        query.tables ≠ [] ∧ ∃ tokens, query.statement = .ok tokens := by
      simp [compile_eq_compiled_iff]
    rw [rendered, exists_statement_iff_finite]

end Query

end SemanticQuery
