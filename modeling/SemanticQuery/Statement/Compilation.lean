/-
This file compiles queries and documents to statements. A compilation never fails.
-/

import SemanticQuery.Query.Interpretation
import SemanticQuery.Query.Json
import SemanticQuery.Statement.Clause

namespace SemanticQuery

namespace Query

/-- The clauses of a statement stand in this order. -/
def clauses (query : Query) : Except Sql.QuoteError (List (List Sql.Token)) := do
  let predicates ← Clause.where query.conditions
  return [
    some (Clause.select query.columns),
    Clause.from query.tables (!query.joins.isEmpty),
    Clause.joins (Plan.ofQuery query).steps,
    predicates,
    Clause.groupBy query.groupBy,
    Clause.orderBy query.orderBy,
    Clause.limit query.effectiveLimit?].filterMap id

/-- One space stands between two clauses. -/
def statement (query : Query) : Except Sql.QuoteError (List Sql.Token) :=
  query.clauses.map (List.intercalate [Sql.space])

/-- A degraded compilation is logged with its reason. -/
def degrade (dialect : Dialect) (reason : DegradeReason) : Logged Outcome :=
  .single (.degraded reason) (.degraded dialect reason)

/-- The skipped joins are logged before the statement is rendered. -/
def compile (dialect : Dialect) (query : Query) : Logged Outcome :=
  if query.tables.isEmpty then degrade dialect .noTables
  else do
    Logged.emit ((Plan.ofQuery query).skipped.map .skippedJoin)
    match query.statement with
    | .ok tokens =>
        .single (.compiled (Sql.text dialect tokens)) (.compiled dialect query.fingerprint)
    | .error error => degrade dialect (.unquotable error)

end Query

/-- A document is interpreted leniently and then compiled. -/
def Document.compile (dialect : Dialect) (document : Document) : Logged Outcome :=
  if document.tables.isEmpty then Query.degrade dialect .noTables
  else do
    match ← document.interpret .lenient with
    | .ok query => query.compile dialect
    | .error defect => Query.degrade dialect (.uninterpretable defect)

end SemanticQuery
