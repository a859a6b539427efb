/-
This file defines the dialects of SQL and their string literals.
-/

namespace SemanticQuery

/-- A statement is written in one of these dialects. -/
inductive Dialect where
  | mysql
  | postgres
  | duckdb
deriving DecidableEq

namespace Dialect

/-- All dialects have a name. -/
def all : List Dialect := [.mysql, .postgres, .duckdb]

/-- The name of a dialect is in lower case. -/
def name : Dialect → String
  | .mysql => "mysql"
  | .postgres => "postgres"
  | .duckdb => "duckdb"

/-- Only the exact name is the name of a dialect. -/
def ofName? (name : String) : Option Dialect := all.find? (·.name = name)

/-- The join of all rows of both sides is not known to every dialect. -/
def hasFullJoin : Dialect → Bool
  | .mysql => false
  | .postgres => true
  | .duckdb => true

end Dialect

/-- The characters that a literal doubles depend on the dialect. -/
def quoteWith (special : Char → Bool) (characters : List Char) : List Char :=
  '\'' :: characters.flatMap
    (fun character => if special character then [character, character] else [character]) ++ ['\'']

/-- A standard literal doubles quotes. -/
def quoteStandard : List Char → List Char := quoteWith (· == '\'')

/-- A literal with escapes doubles quotes and backslashes. -/
def quoteBackslash : List Char → List Char :=
  quoteWith fun character => character == '\'' || character == '\\'

namespace Dialect

/-- A backslash takes the next character in a literal of MySQL, so it is doubled there. -/
def quote : Dialect → List Char → List Char
  | .mysql => quoteBackslash
  | .postgres => quoteStandard
  | .duckdb => quoteStandard

/-- A string literal stands between quotes. -/
def literal (dialect : Dialect) (text : String) : String :=
  String.ofList (dialect.quote text.toList)

/-- Truth values are the same literals in all dialects. -/
def boolean (_ : Dialect) (value : Bool) : String := if value then "true" else "false"

/-- The missing value is the same literal in all dialects. -/
def null (_ : Dialect) : String := "NULL"

end Dialect

end SemanticQuery
