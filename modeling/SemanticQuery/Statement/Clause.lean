/-
This file builds the clauses of a statement. A clause that would be empty is absent.
-/

import SemanticQuery.Plan
import SemanticQuery.Sql.Literal

namespace SemanticQuery.Clause

open Sql (Token QuoteError space commaSeparated andSeparated)

/-- Empty texts do not become fragments. -/
def fragments (texts : List String) : List (List Token) :=
  (texts.filter (· ≠ "")).map fun text => [.fragment text]

/-- All columns are selected when none is named. -/
def select (columns : List String) : List Token :=
  let items := fragments columns
  [.word .select, space] ++ if items.isEmpty then [.mark .star] else commaSeparated items

/-- The tables that no join brings in are only the first one, if there are joins. -/
def listed (tables : List String) (hasJoins : Bool) : List String :=
  if hasJoins then tables.take 1 else tables

/-- The tables of the statement are listed after the columns. -/
def «from» (tables : List String) (hasJoins : Bool) : Option (List Token) :=
  let items := fragments (listed tables hasJoins)
  if items.isEmpty then none else some ([.word .from, space] ++ commaSeparated items)

/-- The type of a join is a word. -/
def joinWord : JoinType → Sql.Word
  | .inner => .inner
  | .left => .left
  | .right => .right
  | .full => .full

/-- A step names the table that it brings in and the condition of its edge. -/
def join (step : Plan.Step) : List Token :=
  [.word (joinWord step.edge.join.type), space, .word .join, space, .fragment step.table, space,
    .word .on, space, .fragment step.edge.join.condition]

/-- The steps follow each other in the order of the plan. -/
def joins (steps : List Plan.Step) : Option (List Token) :=
  if steps.isEmpty then none else some (List.intercalate [space] (steps.map join))

/-- A predicate compares a column with an operand. -/
def predicate (column : String) (operator : Operator) (operand : Operand) :
    Except QuoteError (List Token) := do
  let tokens ← Sql.operand operator operand
  return [.fragment column, space, Sql.operatorToken operator, space] ++ tokens

/-- A condition that cannot be rendered has no predicate. -/
def predicate? (condition : Condition) : Except QuoteError (Option (List Token)) :=
  if condition.isRenderable then
    match condition.operand with
    | none => .ok none
    | some operand => (predicate condition.column condition.operator operand).map some
  else .ok none

/-- The predicates come in the order of the conditions, and the first error decides. -/
def predicates : List Condition → Except QuoteError (List (List Token))
  | [] => .ok []
  | condition :: rest => do
      let first ← predicate? condition
      let rest ← predicates rest
      return first.toList ++ rest

/-- All predicates must hold. -/
def «where» (conditions : List Condition) : Except QuoteError (Option (List Token)) := do
  let items ← predicates conditions
  return if items.isEmpty then none else some ([.word .where, space] ++ andSeparated items)

/-- Groups are named by columns. -/
def groupBy (columns : Option (List String)) : Option (List Token) :=
  let items := fragments (columns.getD [])
  if items.isEmpty then none else some ([.word .groupBy, space] ++ commaSeparated items)

/-- The direction of an order is a word. -/
def directionWord : Direction → Sql.Word
  | .ascending => .ascending
  | .descending => .descending

/-- A term has its column and its direction. -/
def orderTerm (term : OrderTerm) : List Token :=
  [.fragment term.column, space, .word (directionWord term.direction)]

/-- A term without a column does not take part. -/
def orderBy (terms : Option (List OrderTerm)) : Option (List Token) :=
  let items := ((terms.getD []).filter (·.column ≠ "")).map orderTerm
  if items.isEmpty then none else some ([.word .orderBy, space] ++ commaSeparated items)

/-- A limit is written as a number. -/
def limitTokens (limit : UInt64) : List Token :=
  [.word .limit, space, .integer (.ofUInt64 limit)]

/-- The limit is the last clause. -/
def limit (limit : Option UInt64) : Option (List Token) := limit.map limitTokens

end SemanticQuery.Clause
