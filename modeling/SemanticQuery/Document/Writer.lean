/-
This file writes documents as JSON values.
-/

import SemanticQuery.Json.Printer
import SemanticQuery.Document.Basic

namespace SemanticQuery

/-- An absent part is written as null. -/
def Json.Value.ofOption (write : α → Json.Value) : Option α → Json.Value
  | none => .null
  | some value => write value

/-- Every item is written in the same way. -/
def Json.Value.ofList (write : α → Json.Value) (items : List α) : Json.Value :=
  .array (items.map write)

namespace Document

open Json (Value)

/-- A text may be absent. -/
def optionalText : Option String → Value := Value.ofOption .string

/-- A condition has all its fields. -/
def Condition.toJson (condition : Condition) : Value :=
  .object [
    ("column", optionalText condition.column),
    ("operator", optionalText condition.operator),
    ("value", condition.value.getD .null),
    ("table", optionalText condition.table)]

/-- An aggregation has all its fields. -/
def Aggregation.toJson (aggregation : Aggregation) : Value :=
  .object [
    ("function", optionalText aggregation.function),
    ("column", optionalText aggregation.column),
    ("alias", optionalText aggregation.label)]

/-- A join has all its fields. -/
def Join.toJson (join : Join) : Value :=
  .object [
    ("type", optionalText join.type),
    ("table1", optionalText join.table1),
    ("table2", optionalText join.table2),
    ("condition", optionalText join.condition)]

/-- An order term has all its fields. -/
def OrderTerm.toJson (term : OrderTerm) : Value :=
  .object [
    ("column", optionalText term.column),
    ("direction", optionalText term.direction)]

/-- A document has all its fields, in the order in which an array would give them. -/
def toJson (document : Document) : Value :=
  .object [
    ("tables", Value.ofList .string document.tables),
    ("columns", Value.ofList .string document.columns),
    ("conditions", Value.ofList Condition.toJson document.conditions),
    ("aggregations", Value.ofList Aggregation.toJson document.aggregations),
    ("joins", Value.ofList Join.toJson document.joins),
    ("order_by", Value.ofOption (Value.ofList OrderTerm.toJson) document.orderBy),
    ("group_by", Value.ofOption (Value.ofList .string) document.groupBy),
    ("limit", document.limit.getD .null)]

end Document

end SemanticQuery
