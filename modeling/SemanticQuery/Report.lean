/-
This file reports what a compilation would leave out of a document or what a database would
refuse.
-/

import SemanticQuery.Query.Interpretation

namespace SemanticQuery

namespace Report

/-- A document has no report for one of these reasons. -/
inductive Failure where
  | noTables
  | uninterpretable (defect : Defect)
deriving DecidableEq

/-- The message of a failure quotes a missing keyword like any other one. -/
def Failure.message : Failure → String
  | .noTables => "No tables specified"
  | .uninterpretable defect => defect.messageWith "'(missing)'"

/-- A warning names a join or a condition by its position. -/
inductive Warning where
  | unlistedTable (join : Nat) (table : String)
  | incompleteJoin (join : Nat)
  | redundantJoin (join : Nat)
  | disconnectedJoin (join : Nat) (anchor : String)
  | unsupportedJoin (join : Nat) (type : JoinType) (dialect : Dialect)
  | skippedCondition (condition : Nat) (column : String)
  | malformedRange (condition : Nat) (column : String)
deriving DecidableEq

namespace Warning

/-- A join is named by its position. -/
def joinText (index : Nat) : String := "join #" ++ toString index ++ ": "

/-- A condition is named by its position and its column. -/
def conditionText (index : Nat) (column : String) : String :=
  "condition #" ++ toString index ++ " on '" ++ column ++ "': "

/-- The message of a warning says what will happen. -/
def message : Warning → String
  | .unlistedTable join table =>
      joinText join ++ "table '" ++ table ++ "' is not listed in tables"
  | .incompleteJoin join => joinText join ++ "missing table or condition, skipped"
  | .redundantJoin join => joinText join ++ "both tables already joined, skipped"
  | .disconnectedJoin join anchor =>
      joinText join ++ "does not connect to anchor table '" ++ anchor ++ "', skipped"
  | .unsupportedJoin join type dialect =>
      joinText join ++ Keyword.spelling type ++ " JOIN is not supported by " ++ dialect.name
  | .skippedCondition condition column =>
      conditionText condition column ++ "nothing to compare, skipped"
  | .malformedRange condition column =>
      conditionText condition column ++
        "BETWEEN needs exactly two values, compared against a single literal"

end Warning

/-- The table is new when it has a name, is not listed, and was not reported before. -/
def newTables (listed reported : List String) : List String → List String
  | [] => []
  | table :: rest =>
      if table ≠ "" ∧ table ∉ listed ∧ table ∉ reported then
        table :: newTables listed (table :: reported) rest
      else newTables listed reported rest

/-- The dialect may not know the type of the join. -/
def unsupported (dialect : Dialect) (edge : Edge) : List Warning :=
  if edge.join.type = .full ∧ !dialect.hasFullJoin then
    [.unsupportedJoin edge.index edge.join.type dialect]
  else []

/-- Every unlisted table is reported once, at the first join that names it. -/
def tableWarnings (dialect : Dialect) (listed : List String) :
    List String → List Edge → List Warning
  | _, [] => []
  | reported, edge :: rest =>
      let tables := newTables listed reported [edge.join.table1, edge.join.table2]
      tables.map (.unlistedTable edge.index) ++ unsupported dialect edge ++
        tableWarnings dialect listed (tables ++ reported) rest

/-- A skipped join is reported with its reason. -/
def skipWarning (anchor : String) (skipped : Plan.Skipped) : Warning :=
  match skipped.reason with
  | .incomplete => .incompleteJoin skipped.index
  | .redundant => .redundantJoin skipped.index
  | .disconnected => .disconnectedJoin skipped.index anchor

/-- The joins that a statement leaves out are those of its plan. -/
def skipWarnings (query : Query) : List Warning :=
  match query.anchor? with
  | none => []
  | some anchor => (Plan.ofJoins anchor query.joins).skipped.map (skipWarning anchor)

/-- A condition is left out, or it compares a column with a text in place of a range. -/
def conditionWarning? (condition : Condition) (index : Nat) : Option Warning :=
  if !condition.isRenderable then some (.skippedCondition index condition.column)
  else if condition.isMalformedRange then some (.malformedRange index condition.column)
  else none

/-- The conditions are checked in their order. -/
def conditionWarnings (conditions : List Condition) : List Warning :=
  conditions.zipIdx.filterMap fun pair => conditionWarning? pair.1 pair.2

/-- Tables and types of joins come first, then skipped joins, then conditions. -/
def warningsFor (dialect : Dialect) (query : Query) : List Warning :=
  tableWarnings dialect query.tables [] (Plan.edges query.joins) ++ skipWarnings query ++
    conditionWarnings query.conditions

end Report

/-- A report holds the query of a document and the warnings about it. -/
structure Report where
  query : Query
  warnings : List Report.Warning

namespace Report

/-- A clean report has no warnings. -/
def isClean (report : Report) : Bool := report.warnings.isEmpty

/-- A document must name a table and have a strict interpretation. -/
def ofDocument (dialect : Dialect) (document : Document) : Except Failure Report :=
  if document.tables.isEmpty then .error .noTables
  else
    match (document.interpret .strict).value with
    | .error defect => .error (.uninterpretable defect)
    | .ok query => .ok ⟨query, warningsFor dialect query⟩

end Report

end SemanticQuery
