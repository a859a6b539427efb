/-
This file gives the JSON form of a query and its fingerprint.
-/

import SemanticQuery.Document.Writer
import SemanticQuery.Hash.Sha256
import SemanticQuery.Query.Basic

namespace SemanticQuery

open Json (Value)

/-- JSON has no number for a double that is not finite, so null stands for it. -/
def Scalar.toJson : Scalar → Value
  | .string value => .string value
  | .integer value => .number (.integer value)
  | .float value => if finite : value.isFinite then .number (.real value finite) else .null
  | .boolean value => .boolean value
  | .null => .null

/-- A list of scalars is an array. -/
def Operand.toJson : Operand → Value
  | .scalar value => value.toJson
  | .list items => Value.ofList Scalar.toJson items

/-- A keyword is written in its canonical spelling. -/
def Keyword.toJson [Keyword α] (keyword : α) : Value := .string (Keyword.spelling keyword)

/-- An absent text has no member at all. -/
def optionalMember (key : String) : Option String → List (String × Value)
  | none => []
  | some text => [(key, .string text)]

/-- An absent operand is null, and an absent table is left out. -/
def Condition.toJson (condition : Condition) : Value :=
  .object <| [
    ("column", .string condition.column),
    ("operator", Keyword.toJson condition.operator),
    ("value", Value.ofOption Operand.toJson condition.operand)] ++
      optionalMember "table" condition.table

/-- An absent label is left out. -/
def Aggregation.toJson (aggregation : Aggregation) : Value :=
  .object <| [
    ("function", Keyword.toJson aggregation.function),
    ("column", .string aggregation.column)] ++
      optionalMember "alias" aggregation.label

/-- A join has all its parts. -/
def Join.toJson (join : Join) : Value :=
  .object [
    ("type", Keyword.toJson join.type),
    ("table1", .string join.table1),
    ("table2", .string join.table2),
    ("condition", .string join.condition)]

/-- An order term has all its parts. -/
def OrderTerm.toJson (term : OrderTerm) : Value :=
  .object [
    ("column", .string term.column),
    ("direction", Keyword.toJson term.direction)]

namespace Query

/-- The form of a query is itself a document. -/
def toJson (query : Query) : Value :=
  .object [
    ("tables", Value.ofList .string query.tables),
    ("columns", Value.ofList .string query.columns),
    ("conditions", Value.ofList Condition.toJson query.conditions),
    ("aggregations", Value.ofList Aggregation.toJson query.aggregations),
    ("joins", Value.ofList Join.toJson query.joins),
    ("order_by", Value.ofOption (Value.ofList OrderTerm.toJson) query.orderBy),
    ("group_by", Value.ofOption (Value.ofList .string) query.groupBy),
    ("limit", Value.ofOption (fun limit => .number (.integer (.ofUInt64 limit))) query.limit)]

/-- The compact text of the form identifies the query. -/
def jsonText (query : Query) : String := query.toJson.compactText

/-- Equal queries have equal fingerprints. -/
def fingerprint (query : Query) : String := Sha256.hash query.jsonText

end Query

end SemanticQuery
