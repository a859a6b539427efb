/-
This file defines the tokens of a statement and their texts.
-/

import SemanticQuery.Number.Integer
import SemanticQuery.Number.Layout
import SemanticQuery.Sql.Dialect
import SemanticQuery.Text.Control

namespace SemanticQuery.Sql

/-- A word of SQL is written in upper case. -/
inductive Word where
  | select
  | «from»
  | «where»
  | and
  | on
  | join
  | inner
  | left
  | right
  | full
  | groupBy
  | orderBy
  | ascending
  | descending
  | limit
  | oneOf
  | between
  | like
deriving DecidableEq

/-- A word may consist of two words. -/
def Word.text : Word → String
  | .select => "SELECT"
  | .from => "FROM"
  | .where => "WHERE"
  | .and => "AND"
  | .on => "ON"
  | .join => "JOIN"
  | .inner => "INNER"
  | .left => "LEFT"
  | .right => "RIGHT"
  | .full => "FULL"
  | .groupBy => "GROUP BY"
  | .orderBy => "ORDER BY"
  | .ascending => "ASC"
  | .descending => "DESC"
  | .limit => "LIMIT"
  | .oneOf => "IN"
  | .between => "BETWEEN"
  | .like => "LIKE"

/-- A mark is not a word. -/
inductive Mark where
  | comma
  | star
  | openParenthesis
  | closeParenthesis
  | semicolon
  | equal
  | notEqual
  | less
  | greater
  | lessEqual
  | greaterEqual
  | space
deriving DecidableEq

/-- A mark is one or two characters. -/
def Mark.text : Mark → String
  | .comma => ","
  | .star => "*"
  | .openParenthesis => "("
  | .closeParenthesis => ")"
  | .semicolon => ";"
  | .equal => "="
  | .notEqual => "!="
  | .less => "<"
  | .greater => ">"
  | .lessEqual => "<="
  | .greaterEqual => ">="
  | .space => " "

/-- A statement is a list of tokens. Values reach it as literals only, and a fragment is SQL
text of the query itself. -/
inductive Token where
  | word (word : Word)
  | mark (mark : Mark)
  | integer (value : Integer)
  | float (value : Dyadic)
  | string (value : String)
  | boolean (value : Bool)
  | null
  | comment (content : String)
  | fragment (content : String)
deriving DecidableEq

/-- A comment goes to the end of its line, so it is flattened. -/
def Token.text (dialect : Dialect) : Token → String
  | .word kind => kind.text
  | .mark kind => kind.text
  | .integer value => value.text
  | .float value => Layout.literal.text value
  | .string value => dialect.literal value
  | .boolean value => dialect.boolean value
  | .null => dialect.null
  | .comment content => "-- " ++ Text.flatten content
  | .fragment content => content

/-- The tokens of a list follow each other without space. -/
def text (dialect : Dialect) (tokens : List Token) : String :=
  String.join (tokens.map (Token.text dialect))

/-- A space stands between two tokens that would otherwise run together. -/
def space : Token := .mark .space

/-- Items of a list are separated by a comma and a space. -/
def commaSeparated (items : List (List Token)) : List Token :=
  List.intercalate [.mark .comma, space] items

/-- Conditions that must all hold are separated by a word. -/
def andSeparated (items : List (List Token)) : List Token :=
  List.intercalate [space, .word .and, space] items

end SemanticQuery.Sql
