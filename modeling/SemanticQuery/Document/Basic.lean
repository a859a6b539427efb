/-
This file defines the loosely typed document that describes a query.
-/

import SemanticQuery.Json.Equality

namespace SemanticQuery

namespace Document

/-- A condition compares a column with a value. -/
structure Condition where
  column : Option String
  operator : Option String
  value : Option Json.Value
  table : Option String
deriving DecidableEq

/-- An aggregation applies a function to a column. -/
structure Aggregation where
  function : Option String
  column : Option String
  label : Option String
deriving DecidableEq

/-- A join relates two tables by a condition. -/
structure Join where
  type : Option String
  table1 : Option String
  table2 : Option String
  condition : Option String
deriving DecidableEq

/-- An order term sorts by a column. -/
structure OrderTerm where
  column : Option String
  direction : Option String
deriving DecidableEq

end Document

/-- Every part of a document may be missing, and keywords are plain texts. -/
structure Document where
  tables : List String
  columns : List String
  conditions : List Document.Condition
  aggregations : List Document.Aggregation
  joins : List Document.Join
  orderBy : Option (List Document.OrderTerm)
  groupBy : Option (List String)
  limit : Option Json.Value
deriving DecidableEq

namespace Document

/-- The empty document names nothing. -/
def empty : Document where
  tables := []
  columns := []
  conditions := []
  aggregations := []
  joins := []
  orderBy := none
  groupBy := none
  limit := none

/-- A text is no document for one of these reasons. -/
inductive Error where
  | noObject
  | invalid (fault : Json.Fault)
deriving DecidableEq

/-- The message of an error names its reason. -/
def Error.message : Error → String
  | .noObject => "No JSON object found in response"
  | .invalid .malformed => "Invalid semantic query document: malformed JSON"
  | .invalid .mistyped => "Invalid semantic query document: a value of the wrong type"
  | .invalid .truncated => "Invalid semantic query document: unexpected end of text"

end Document

end SemanticQuery
