/-
This file narrates an outcome.
-/

import SemanticQuery.Document.Basic
import SemanticQuery.Query.Basic
import SemanticQuery.Statement.Outcome

namespace SemanticQuery

/-- A summary says what a statement touches. -/
structure Summary where
  tables : List String
  columns : List String
  conditions : Nat
  aggregations : Nat
  joins : Nat
  dialect : Dialect
  outcome : Outcome

namespace Summary

/-- The parts of a query are counted. -/
def ofQuery (dialect : Dialect) (query : Query) (outcome : Outcome) : Summary where
  tables := query.tables
  columns := query.columns
  conditions := query.conditions.length
  aggregations := query.aggregations.length
  joins := query.joins.length
  dialect := dialect
  outcome := outcome

/-- The parts of a document are counted as they are, because it may have no interpretation. -/
def ofDocument (dialect : Dialect) (document : Document) (outcome : Outcome) : Summary where
  tables := document.tables
  columns := document.columns
  conditions := document.conditions.length
  aggregations := document.aggregations.length
  joins := document.joins.length
  dialect := dialect
  outcome := outcome

/-- An empty list has a text of its own. -/
def listText (none : String) (items : List String) : String :=
  if items.isEmpty then none else ", ".intercalate items

/-- A count of zero is not mentioned. -/
def countLine (name : String) (count : Nat) : List String :=
  if count = 0 then [] else ["- " ++ name ++ ": " ++ toString count]

/-- The statement stands in a fenced block. -/
def lines (summary : Summary) : List String :=
  ["Semantic query:",
    "- Tables: " ++ listText "none specified" summary.tables,
    "- Columns: " ++ listText "all columns" summary.columns] ++
  countLine "Conditions" summary.conditions ++
  countLine "Aggregations" summary.aggregations ++
  countLine "Joins" summary.joins ++
  ["", "SQL (" ++ summary.dialect.name ++ "):", "```sql", summary.outcome.sql, "```"] ++
    match summary.outcome.reason? with
    | none => []
    | some reason => ["", "Note: " ++ reason.message]

/-- The last line has no line break. -/
def text (summary : Summary) : String := "\n".intercalate summary.lines

end Summary

end SemanticQuery
