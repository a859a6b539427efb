/-
This file defines what a condition compares with.
-/

import SemanticQuery.Number.Integer
import SemanticQuery.Number.Layout

namespace SemanticQuery

/-- A scalar is a single literal. A double of a query need not be finite. -/
inductive Scalar where
  | string (value : String)
  | integer (value : Integer)
  | float (value : Float)
  | boolean (value : Bool)
  | null
deriving DecidableEq

/-- The display of a scalar stands inside of a larger text. -/
def Scalar.display : Scalar → String
  | .string value => value
  | .integer value => value.text
  | .float value => displayFloat value
  | .boolean value => if value then "true" else "false"
  | .null => "null"

/-- The operand of a condition is a scalar or a list of scalars. -/
inductive Operand where
  | scalar (value : Scalar)
  | list (items : List Scalar)
deriving DecidableEq

/-- The display of a list is bracketed. -/
def Operand.display : Operand → String
  | .scalar value => value.display
  | .list items => "[" ++ ", ".intercalate (items.map Scalar.display) ++ "]"

end SemanticQuery
