/-
This file defines typed queries and builds them step by step.
-/

import SemanticQuery.Query.Keyword
import SemanticQuery.Query.Operand

namespace SemanticQuery

/-- A condition without an operand has nothing to compare with. -/
structure Condition where
  column : String
  operator : Operator
  operand : Option Operand
  table : Option String
deriving DecidableEq

namespace Condition

/-- Only such a condition becomes part of a statement. -/
def isRenderable (condition : Condition) : Bool :=
  condition.column != "" &&
    match condition.operand with
    | none => false
    | some (.scalar _) => true
    | some (.list items) => condition.operator != .oneOf || !items.isEmpty

/-- This condition asks for a list of two items and has something else. -/
def isMalformedRange (condition : Condition) : Bool :=
  condition.operator == .between &&
    match condition.operand with
    | some (.list [_, _]) => false
    | _ => true

end Condition

/-- An aggregation describes a column and has no effect on a statement. -/
structure Aggregation where
  function : AggregateFunction
  column : String
  label : Option String
deriving DecidableEq

/-- The text of an aggregation is a function call, with its name if it has one. -/
def Aggregation.text (aggregation : Aggregation) : String :=
  Keyword.spelling aggregation.function ++ "(" ++ aggregation.column ++ ")" ++
    match aggregation.label with
    | none => ""
    | some label => " as " ++ label

/-- A join is an edge between two tables. Its condition is SQL text. -/
structure Join where
  type : JoinType
  table1 : String
  table2 : String
  condition : String
deriving DecidableEq

/-- A join with an empty part is never used. -/
def Join.isComplete (join : Join) : Bool :=
  join.table1 != "" && join.table2 != "" && join.condition != ""

/-- An order term sorts by one column. -/
structure OrderTerm where
  column : String
  direction : Direction
deriving DecidableEq

/-- A query without columns selects all of them. -/
structure Query where
  tables : List String
  columns : List String
  conditions : List Condition
  aggregations : List Aggregation
  joins : List Join
  orderBy : Option (List OrderTerm)
  groupBy : Option (List String)
  limit : Option UInt64
deriving DecidableEq

namespace Query

/-- A query over these tables has nothing else. -/
def ofTables (tables : List String) : Query where
  tables := tables
  columns := []
  conditions := []
  aggregations := []
  joins := []
  orderBy := none
  groupBy := none
  limit := none

/-- The columns take the place of those chosen before. -/
def select (query : Query) (columns : List String) : Query := { query with columns }

/-- One more condition must hold. -/
def filter (query : Query) (condition : Condition) : Query :=
  { query with conditions := query.conditions ++ [condition] }

/-- One more aggregation is described. -/
def aggregate (query : Query) (aggregation : Aggregation) : Query :=
  { query with aggregations := query.aggregations ++ [aggregation] }

/-- One more join is available. -/
def join (query : Query) (join : Join) : Query :=
  { query with joins := query.joins ++ [join] }

/-- The groups take the place of those chosen before. -/
def group (query : Query) (columns : List String) : Query :=
  { query with groupBy := some columns }

/-- The order takes the place of the one chosen before. -/
def order (query : Query) (terms : List OrderTerm) : Query :=
  { query with orderBy := some terms }

/-- The limit takes the place of the one chosen before. -/
def take (query : Query) (limit : UInt64) : Query := { query with limit := some limit }

/-- The first table is the one from which all joins start. -/
def anchor? (query : Query) : Option String := query.tables.head?

/-- A limit of zero is no limit. -/
def effectiveLimit? (query : Query) : Option UInt64 := query.limit.filter (· ≠ 0)

end Query

end SemanticQuery
