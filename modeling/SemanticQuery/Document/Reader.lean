/-
This file reads documents from JSON texts.
-/

import SemanticQuery.Json.Record
import SemanticQuery.Document.Basic
import SemanticQuery.Document.Embedded

namespace SemanticQuery.Document

open Json (FieldReader Reader Tree)

/-- A raw value inside of an array or object has so many levels less for itself. -/
def rawValue (levels : Nat) : Reader Json.Value :=
  Tree.value (Tree.maximumDepth - levels)

/-- A condition is nested in the list of conditions and in the document. -/
def Condition.fields : List (FieldReader Condition) := [
  .of "column" (.optional .text) fun column record => { record with column },
  .of "operator" (.optional .text) fun operator record => { record with operator },
  .of "value" (.optional (rawValue 3)) fun value record => { record with value },
  .of "table" (.optional .text) fun table record => { record with table }]

/-- All fields of an aggregation are texts. -/
def Aggregation.fields : List (FieldReader Aggregation) := [
  .of "function" (.optional .text) fun function record => { record with function },
  .of "column" (.optional .text) fun column record => { record with column },
  .of "alias" (.optional .text) fun label record => { record with label }]

/-- All fields of a join are texts. -/
def Join.fields : List (FieldReader Join) := [
  .of "type" (.optional .text) fun type record => { record with type },
  .of "table1" (.optional .text) fun table1 record => { record with table1 },
  .of "table2" (.optional .text) fun table2 record => { record with table2 },
  .of "condition" (.optional .text) fun condition record => { record with condition }]

/-- All fields of an order term are texts. -/
def OrderTerm.fields : List (FieldReader OrderTerm) := [
  .of "column" (.optional .text) fun column record => { record with column },
  .of "direction" (.optional .text) fun direction record => { record with direction }]

/-- The lists of a document may be null, which leaves them empty. The order and the groups may
be absent altogether. -/
def fields : List (FieldReader Document) := [
  .of "tables" (.listOrNull .text) fun tables record => { record with tables },
  .of "columns" (.listOrNull .text) fun columns record => { record with columns },
  .of "conditions" (.listOrNull (.record Condition.fields ⟨none, none, none, none⟩))
    fun conditions record => { record with conditions },
  .of "aggregations" (.listOrNull (.record Aggregation.fields ⟨none, none, none⟩))
    fun aggregations record => { record with aggregations },
  .of "joins" (.listOrNull (.record Join.fields ⟨none, none, none, none⟩))
    fun joins record => { record with joins },
  .of "order_by" (.optional (.list (.record OrderTerm.fields ⟨none, none⟩)))
    fun orderBy record => { record with orderBy },
  .of "group_by" (.optional (.list .text)) fun groupBy record => { record with groupBy },
  .of "limit" (.optional (rawValue 1)) fun limit record => { record with limit }]

/-- A document is read like any other record. -/
def reader : Reader Document := .record fields empty

/-- The whole text must be one document. -/
def ofJson (text : String) : Except Error Document :=
  (Json.readText reader text).mapError .invalid

/-- The document may stand anywhere in the text. -/
def ofResponse (text : String) : Except Error Document :=
  match embedded? text with
  | none => .error .noObject
  | some object => ofJson object

end SemanticQuery.Document
