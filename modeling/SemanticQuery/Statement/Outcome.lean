/-
This file defines the outcomes of a compilation.
-/

import SemanticQuery.Query.Defect
import SemanticQuery.Sql.Literal

namespace SemanticQuery

/-- A compilation degrades for one of these reasons. -/
inductive DegradeReason where
  | noTables
  | unquotable (error : Sql.QuoteError)
  | uninterpretable (defect : Defect)
deriving DecidableEq

/-- The message of a reason appears in the statement. -/
def DegradeReason.message : DegradeReason → String
  | .noTables => "No tables specified"
  | .unquotable error => "Error generating SQL: " ++ error.message
  | .uninterpretable defect => "Error generating SQL: " ++ defect.message

/-- Every outcome has a statement. -/
inductive Outcome where
  | compiled (sql : String)
  | degraded (reason : DegradeReason)
deriving DecidableEq

namespace Outcome

/-- A harmless statement with the reason in a comment is the same in every dialect. -/
def fallback (reason : DegradeReason) : List Sql.Token :=
  [.word .select, Sql.space, .integer ⟨1, by decide, by decide⟩, .mark .semicolon, Sql.space,
    .comment reason.message]

/-- The statement of a degraded outcome does nothing. -/
def sql : Outcome → String
  | .compiled sql => sql
  | .degraded reason => Sql.text .mysql (fallback reason)

/-- A degraded outcome has a reason. -/
def reason? : Outcome → Option DegradeReason
  | .compiled _ => none
  | .degraded reason => some reason

/-- Only a degraded outcome has a fallback statement. -/
def isDegraded (outcome : Outcome) : Bool := outcome.reason?.isSome

end Outcome

end SemanticQuery
