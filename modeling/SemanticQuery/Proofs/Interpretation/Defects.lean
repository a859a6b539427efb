/-
This file lists the defects of a document. A strict interpretation fails with the first one of them
in the order in which it reads the parts of the document.
-/

import SemanticQuery.Proofs.Result
import SemanticQuery.Query.Interpretation

namespace SemanticQuery

namespace FailsFirst

variable {α β : Type}

/-- The faults of a list are those of its items. -/
theorem interpretAll {interpret : α → Except Defect β} {defects : α → List Defect}
    (fails : ∀ item, FailsFirst (interpret item) (defects item)) (items : List α) :
    FailsFirst (Document.interpretAll interpret items) (items.flatMap defects) := by
  induction items with
  | nil => exact ok []
  | cons item rest inductionHypothesis =>
      rw [List.flatMap_cons, Document.interpretAll]
      refine (fails item).bind fun first => ?_
      exact inductionHypothesis.map (first :: ·)

theorem orDefect (defect : Defect) (option : Option α) :
    FailsFirst (orDefect defect option) (if option.isSome then [] else [defect]) := by
  cases option with
  | none => exact error defect []
  | some value => exact ok value

end FailsFirst

namespace Document

/-- A keyword must be present and canonical. -/
def spellingDefects (α : Type) [Keyword α] (defect : Defect) (given : Option String) :
    List Defect :=
  if (given.bind (Keyword.canonical? α)).isSome then [] else [defect]

/-- A missing or unknown function is a defect. -/
def Aggregation.defects (aggregation : Aggregation) : List Defect :=
  spellingDefects AggregateFunction aggregation.defect aggregation.function

/-- A missing or unknown operator is a defect. -/
def Condition.operatorDefects (condition : Condition) : List Defect :=
  spellingDefects Operator (.operator condition.columnText condition.operator) condition.operator

/-- Only scalars may stand in a list. -/
def scalarDefects (column : String) : Json.Value → List Defect
  | .array _ => [.value column .nestedList]
  | .object _ => [.value column .object]
  | _ => []

/-- A value is a scalar or a list of scalars. -/
def valueDefects (column : String) : Json.Value → List Defect
  | .array items => items.flatMap (scalarDefects column)
  | value => scalarDefects column value

/-- A missing value is no defect. -/
def Condition.valueDefects (condition : Condition) : List Defect :=
  condition.value.elim [] (Document.valueDefects condition.columnText)

/-- An unknown type is a defect, but a missing one is not. -/
def Join.defects (join : Join) : List Defect :=
  join.type.elim [] fun text => spellingDefects JoinType (.joinType text) (some text)

/-- An unknown direction is a defect, but a missing one is not. -/
def OrderTerm.defects (term : OrderTerm) : List Defect :=
  term.direction.elim [] fun text =>
    spellingDefects Direction (.direction (term.column.getD "") text) (some text)

/-- A limit must be readable, unless it is missing or null. -/
def limitDefects : Option Json.Value → List Defect
  | none => []
  | some .null => []
  | some value => if (limit? .strict value).isSome then [] else [.limit value.compactText]

section Kinds

variable (document : Document)

/-- The defects of the aggregations. -/
def aggregationDefects : List Defect := document.aggregations.flatMap Aggregation.defects

/-- The defects of the operators of all conditions. -/
def operatorDefects : List Defect := document.conditions.flatMap Condition.operatorDefects

/-- The defects of the values of all conditions. -/
def operandDefects : List Defect := document.conditions.flatMap Condition.valueDefects

/-- A condition is read from its operator to its value before the next one is looked at. -/
def conditionDefects : List Defect :=
  document.conditions.flatMap fun condition => condition.operatorDefects ++ condition.valueDefects

/-- The defects of the joins. -/
def joinDefects : List Defect := document.joins.flatMap Join.defects

/-- The defects of the order terms. -/
def orderDefects : List Defect := (document.orderBy.getD []).flatMap OrderTerm.defects

/-- All defects in the order in which the parts of a document are read. -/
def defects : List Defect :=
  document.aggregationDefects ++ (document.conditionDefects ++ (document.joinDefects ++
    (document.orderDefects ++ limitDefects document.limit)))

end Kinds

section Parts

theorem Aggregation.isSome_read?_strict (aggregation : Aggregation) :
    (aggregation.read? .strict).isSome =
      (aggregation.function.bind (Keyword.canonical? AggregateFunction)).isSome := by
  obtain ⟨function, column, label⟩ := aggregation
  cases function with
  | none => rfl
  | some text =>
      simp only [read?, Mode.read?, Option.bind_eq_bind, Option.bind_some, Option.isSome_bind]
      cases Keyword.canonical? AggregateFunction text <;> rfl

theorem failsFirst_aggregations (aggregations : List Aggregation) :
    FailsFirst (interpretAggregations .strict aggregations).value
      (aggregations.flatMap Aggregation.defects) := by
  induction aggregations with
  | nil => exact .ok []
  | cons aggregation rest inductionHypothesis =>
      rw [List.flatMap_cons, Aggregation.defects, spellingDefects,
        ← aggregation.isSome_read?_strict]
      cases read : aggregation.read? .strict with
      | none =>
          simp only [interpretAggregations, read]
          exact .error aggregation.defect _
      | some readable =>
          simp only [interpretAggregations, read, Logged.value_bind, Logged.value_pure]
          exact inductionHypothesis.map (readable :: ·)

theorem failsFirst_scalar (column : String) (value : Json.Value) :
    FailsFirst (interpretScalar column value) (scalarDefects column value) := by
  cases value with
  | array items => exact .error _ []
  | object members => exact .error _ []
  | number number => cases number <;> exact .ok _
  | _ => exact .ok _

theorem failsFirst_value (column : String) (value : Json.Value) :
    FailsFirst (interpretValue column value) (valueDefects column value) := by
  cases value with
  | null => exact .ok none
  | array items => exact (FailsFirst.interpretAll (failsFirst_scalar column) items).map _
  | boolean value => exact .ok _
  | number number => exact (failsFirst_scalar column (.number number)).map _
  | string value => exact .ok _
  | object members => exact .error _ []

theorem Condition.failsFirst_interpret (condition : Condition) :
    FailsFirst (condition.interpret .strict)
      (condition.operatorDefects ++ condition.valueDefects) := by
  have operator : condition.operator? .strict =
      condition.operator.bind (Keyword.canonical? Operator) := by
    unfold Condition.operator?
    cases condition.operator <;> rfl
  have operand : FailsFirst condition.operand condition.valueDefects := by
    unfold Condition.operand Condition.valueDefects
    cases condition.value with
    | none => exact .ok none
    | some value => exact failsFirst_value condition.columnText value
  rw [Condition.interpret, operator]
  exact (FailsFirst.orDefect _ _).bind fun _ => operand.map _

theorem Join.failsFirst_interpret (join : Join) :
    FailsFirst (join.interpret .strict) join.defects := by
  obtain ⟨type, table1, table2, condition⟩ := join
  cases type with
  | none => exact .ok _
  | some text => exact (FailsFirst.orDefect _ (Keyword.canonical? JoinType text)).map _

theorem OrderTerm.failsFirst_interpret (term : OrderTerm) :
    FailsFirst (term.interpret .strict) term.defects := by
  obtain ⟨column, direction⟩ := term
  cases direction with
  | none => exact .ok _
  | some text => exact (FailsFirst.orDefect _ (Keyword.canonical? Direction text)).map _

theorem failsFirst_order (order : Option (List OrderTerm)) :
    FailsFirst (interpretOrder .strict order) ((order.getD []).flatMap OrderTerm.defects) := by
  cases order with
  | none => exact .ok none
  | some terms => exact (FailsFirst.interpretAll OrderTerm.failsFirst_interpret terms).map some

theorem failsFirst_limit (limit : Option Json.Value) :
    FailsFirst (interpretLimit .strict limit) (limitDefects limit) := by
  cases limit with
  | none => exact .ok none
  | some value =>
      cases value with
      | null => exact .ok none
      | number number => exact (FailsFirst.orDefect _ _).map some
      | string text => exact (FailsFirst.orDefect _ _).map some
      | _ => exact .error _ []

end Parts

/-- A strict interpretation fails with the first defect of the document. -/
theorem failsFirst_interpret (document : Document) :
    FailsFirst (document.interpret .strict).value document.defects := by
  refine (failsFirst_aggregations document.aggregations).bind fun aggregations => ?_
  refine (FailsFirst.interpretAll Condition.failsFirst_interpret document.conditions).bind
    fun conditions => ?_
  refine (FailsFirst.interpretAll Join.failsFirst_interpret document.joins).bind fun joins => ?_
  refine (failsFirst_order document.orderBy).bind fun orderBy => ?_
  exact (failsFirst_limit document.limit).map _

end Document

end SemanticQuery
