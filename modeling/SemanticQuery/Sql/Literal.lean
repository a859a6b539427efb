/-
This file turns scalars and operands into literals.
-/

import SemanticQuery.Query.Keyword
import SemanticQuery.Query.Operand
import SemanticQuery.Sql.Token

namespace SemanticQuery.Sql

/-- The only value without a literal is a double that is not finite. -/
inductive QuoteError where
  | notFinite (value : Float)
deriving DecidableEq

/-- The message shows the value. -/
def QuoteError.message : QuoteError → String
  | .notFinite value =>
      "cannot render non-finite number " ++ displayFloat value ++ " as a SQL literal"

/-- A scalar becomes one literal. -/
def literal : Scalar → Except QuoteError Token
  | .string value => .ok (.string value)
  | .integer value => .ok (.integer value)
  | .float value =>
      match magnitude value with
      | .finite number => .ok (.float number)
      | _ => .error (.notFinite value)
  | .boolean value => .ok (.boolean value)
  | .null => .ok .null

/-- The first scalar without a literal decides. -/
def literals : List Scalar → Except QuoteError (List Token)
  | [] => .ok []
  | item :: rest => do
      let item ← literal item
      let rest ← literals rest
      return item :: rest

/-- The literals of a list stand between parentheses. -/
def parenthesized (items : List Scalar) : Except QuoteError (List Token) := do
  let tokens ← literals items
  return [.mark .openParenthesis] ++ commaSeparated (tokens.map ([·])) ++
    [.mark .closeParenthesis]

/-- A range has two bounds. -/
def range (low high : Scalar) : Except QuoteError (List Token) := do
  let low ← literal low
  let high ← literal high
  return [low, space, .word .and, space, high]

/-- A list that stands where one literal must stand is quoted as the text of its display. -/
def operand : Operator → Operand → Except QuoteError (List Token)
  | .oneOf, .list items => parenthesized items
  | .oneOf, .scalar value => parenthesized [value]
  | .between, .list [low, high] => range low high
  | _, .scalar value => (literal value).map ([·])
  | _, .list items => .ok [.string (Operand.list items).display]

/-- An operator is a word or a mark. -/
def operatorToken : Operator → Token
  | .equal => .mark .equal
  | .notEqual => .mark .notEqual
  | .greater => .mark .greater
  | .less => .mark .less
  | .greaterEqual => .mark .greaterEqual
  | .lessEqual => .mark .lessEqual
  | .like => .word .like
  | .oneOf => .word .oneOf
  | .between => .word .between

end SemanticQuery.Sql
