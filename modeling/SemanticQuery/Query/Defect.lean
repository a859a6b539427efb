/-
This file says why a document is no typed query.
-/

namespace SemanticQuery

/-- A value cannot become an operand for one of these reasons. -/
inductive ValueDefect where
  | nestedList
  | object
deriving DecidableEq

/-- The message names the kind of value that is not accepted. -/
def ValueDefect.message : ValueDefect → String
  | .nestedList => "nested sequence"
  | .object => "objects are not literals"

/-- A defect names the part of the document that cannot be understood. -/
inductive Defect where
  | aggregateFunction (column : String) (given : Option String)
  | operator (column : String) (given : Option String)
  | joinType (given : String)
  | direction (column : String) (given : String)
  | value (column : String) (reason : ValueDefect)
  | limit (given : String)
deriving DecidableEq

namespace Defect

/-- A missing keyword has a text of its own, and any other one stands between quotes. -/
def describe (missing : String) : Option String → String
  | none => missing
  | some text => "'" ++ text ++ "'"

/-- The message of a defect depends only on how a missing keyword is described. -/
def messageWith (missing : String) : Defect → String
  | .aggregateFunction column given =>
      "Invalid aggregation function " ++ describe missing given ++ " on column '" ++ column ++ "'"
  | .operator column given =>
      "Invalid operator " ++ describe missing given ++ " on column '" ++ column ++ "'"
  | .joinType given => "Invalid join type '" ++ given ++ "'"
  | .direction column given =>
      "Invalid sort direction '" ++ given ++ "' on column '" ++ column ++ "'"
  | .value column reason =>
      "Invalid value for column '" ++ column ++ "': " ++ reason.message
  | .limit given => "Invalid limit: " ++ given

/-- The message of a defect sets a missing keyword apart from every text. -/
def message : Defect → String := messageWith "(missing)"

end Defect

end SemanticQuery
