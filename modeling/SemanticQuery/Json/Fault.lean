/-
This file names the ways in which reading a JSON text can fail.
-/

namespace SemanticQuery.Json

/-- The first fault from left to right decides a failed reading. -/
inductive Fault where
  /-- The text is not JSON, nests too deeply, or holds a number that no double can. -/
  | malformed
  /-- The text so far is JSON, but a value has the wrong type or a field is repeated. -/
  | mistyped
  /-- The text ends inside a value. -/
  | truncated
deriving DecidableEq, Repr

end SemanticQuery.Json
