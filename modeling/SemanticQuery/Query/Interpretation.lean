/-
This file turns documents into typed queries. A strict interpretation wants every keyword in its
canonical spelling. A lenient one reads keywords loosely, takes a missing operator for equality,
and drops the aggregations that it cannot read.
-/

import SemanticQuery.Event
import SemanticQuery.Json.Printer
import SemanticQuery.Number.Natural

namespace SemanticQuery

/-- The mode says how keywords are read. -/
inductive Mode where
  | strict
  | lenient
deriving DecidableEq

/-- A keyword is read exactly in strict mode and loosely otherwise. -/
def Mode.read? (mode : Mode) (α : Type) [Keyword α] (text : String) : Option α :=
  match mode with
  | .strict => Keyword.canonical? α text
  | .lenient => Keyword.loose? α text

/-- The option is a result if it is not empty. -/
def orDefect (defect : Defect) : Option α → Except Defect α
  | none => .error defect
  | some value => .ok value

namespace Document

/-- Items are interpreted in their order, and the first defect decides. -/
def interpretAll (interpret : α → Except Defect β) : List α → Except Defect (List β)
  | [] => .ok []
  | item :: rest => do
      let item ← interpret item
      let rest ← interpretAll interpret rest
      return item :: rest

namespace Aggregation

/-- The column of an aggregation may be missing. -/
def columnText (aggregation : Aggregation) : String := aggregation.column.getD ""

/-- An aggregation is readable when its function is. -/
def read? (mode : Mode) (aggregation : Aggregation) : Option SemanticQuery.Aggregation := do
  let function ← aggregation.function
  let function ← mode.read? AggregateFunction function
  return ⟨function, aggregation.columnText, aggregation.label⟩

/-- An unreadable aggregation is a defect in strict mode. -/
def defect (aggregation : Aggregation) : Defect :=
  .aggregateFunction aggregation.columnText aggregation.function

/-- An unreadable aggregation is dropped in lenient mode, which is logged. -/
def dropped (aggregation : Aggregation) : Event :=
  .droppedAggregation aggregation.columnText aggregation.function

end Aggregation

/-- The aggregations are interpreted before everything else. -/
def interpretAggregations (mode : Mode) :
    List Aggregation → Logged (Except Defect (List SemanticQuery.Aggregation))
  | [] => pure (.ok [])
  | aggregation :: rest =>
      match aggregation.read? mode, mode with
      | some readable, _ => do
          let rest ← interpretAggregations mode rest
          return rest.map (readable :: ·)
      | none, .strict => pure (.error aggregation.defect)
      | none, .lenient => do
          Logged.emit [aggregation.dropped]
          interpretAggregations mode rest

/-- A scalar stands alone or in a list. -/
def interpretScalar (column : String) : Json.Value → Except Defect Scalar
  | .null => .ok .null
  | .boolean value => .ok (.boolean value)
  | .string value => .ok (.string value)
  | .number (.integer value) => .ok (.integer value)
  | .number (.real value _) => .ok (.float value)
  | .array _ => .error (.value column .nestedList)
  | .object _ => .error (.value column .object)

/-- A null value is no operand. -/
def interpretValue (column : String) : Json.Value → Except Defect (Option Operand)
  | .null => .ok none
  | .array items => (interpretAll (interpretScalar column) items).map fun items =>
      some (.list items)
  | value => (interpretScalar column value).map fun value => some (.scalar value)

namespace Condition

/-- The column of a condition may be missing. -/
def columnText (condition : Condition) : String := condition.column.getD ""

/-- A missing operator means equality, but not in strict mode. -/
def operator? (mode : Mode) (condition : Condition) : Option Operator :=
  match condition.operator, mode with
  | some text, mode => mode.read? Operator text
  | none, .strict => none
  | none, .lenient => some .equal

/-- A missing value is no operand. -/
def operand (condition : Condition) : Except Defect (Option Operand) :=
  match condition.value with
  | none => .ok none
  | some value => interpretValue condition.columnText value

/-- The operator is interpreted before the value. -/
def interpret (mode : Mode) (condition : Condition) :
    Except Defect SemanticQuery.Condition := do
  let operator ← orDefect (.operator condition.columnText condition.operator)
    (condition.operator? mode)
  let operand ← condition.operand
  return ⟨condition.columnText, operator, operand, condition.table⟩

end Condition

/-- A missing type means an inner join. -/
def Join.interpret (mode : Mode) (join : Join) : Except Defect SemanticQuery.Join := do
  let type ← orDefect (.joinType (join.type.getD "")) <|
    match join.type with
    | none => some .inner
    | some text => mode.read? JoinType text
  return ⟨type, join.table1.getD "", join.table2.getD "", join.condition.getD ""⟩

/-- A missing direction means an ascending order. -/
def OrderTerm.interpret (mode : Mode) (term : OrderTerm) :
    Except Defect SemanticQuery.OrderTerm := do
  let direction ← orDefect (.direction (term.column.getD "") (term.direction.getD "")) <|
    match term.direction with
    | none => some .ascending
    | some text => mode.read? Direction text
  return ⟨term.column.getD "", direction⟩

/-- The order may be absent altogether. -/
def interpretOrder (mode : Mode) :
    Option (List OrderTerm) → Except Defect (Option (List SemanticQuery.OrderTerm))
  | none => .ok none
  | some terms => (interpretAll (OrderTerm.interpret mode) terms).map some

/-- A limit is a natural number of 64 bits. It may be given by its text, and in lenient mode by a
double. -/
def limit? (mode : Mode) : Json.Value → Option UInt64
  | .number (.integer value) => value.toUInt64?
  | .number (.real value _) =>
      match mode with
      | .strict => none
      | .lenient => wholeUInt64? value
  | .string text => readUInt64? (Text.trimList text.toList)
  | _ => none

/-- A null limit is no limit. -/
def interpretLimit (mode : Mode) : Option Json.Value → Except Defect (Option UInt64)
  | none => .ok none
  | some .null => .ok none
  | some value => (orDefect (.limit value.compactText) (limit? mode value)).map some

/-- Conditions, joins, order and limit are interpreted one after the other. -/
def interpretRest (mode : Mode) (document : Document)
    (aggregations : List SemanticQuery.Aggregation) : Except Defect Query := do
  let conditions ← interpretAll (Condition.interpret mode) document.conditions
  let joins ← interpretAll (Join.interpret mode) document.joins
  let orderBy ← interpretOrder mode document.orderBy
  let limit ← interpretLimit mode document.limit
  return {
    tables := document.tables
    columns := document.columns
    conditions, aggregations, joins, orderBy
    groupBy := document.groupBy
    limit }

/-- The first defect decides. The aggregations that were dropped before it are logged. -/
def interpret (mode : Mode) (document : Document) : Logged (Except Defect Query) := do
  let aggregations ← interpretAggregations mode document.aggregations
  return aggregations >>= interpretRest mode document

end Document

end SemanticQuery
