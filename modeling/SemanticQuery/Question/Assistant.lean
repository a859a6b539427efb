/-
This file answers questions by statements with the help of an inference service.
-/

import SemanticQuery.Document.Reader
import SemanticQuery.Question.Prompt
import SemanticQuery.Statement.Compilation
import SemanticQuery.Summary

namespace SemanticQuery

/-- The service gives no response for one of these reasons. -/
inductive InferenceError where
  | unavailable (detail : String)
  | request (detail : String)
deriving DecidableEq

/-- The message of an error ends with its detail. -/
def InferenceError.message : InferenceError → String
  | .unavailable detail => "Inference service unavailable: " ++ detail
  | .request detail => "Inference request failed: " ++ detail

/-- An assistant asks a service for documents about one database. -/
structure Assistant where
  inference : String → Except InferenceError String
  dialect : Dialect
  schema : Option String

/-- An answer without a document of its own says why it has none. -/
structure Answer where
  question : String
  document : Document
  fallbackReason : Option String
  outcome : Outcome
  dialect : Dialect
deriving DecidableEq

/-- The summary of an answer is that of its document. -/
def Answer.summary (answer : Answer) : Summary :=
  .ofDocument answer.dialect answer.document answer.outcome

namespace Assistant

/-- The response to the prompt holds a document, or there is a reason why not. -/
def request (assistant : Assistant) (prompt : String) :
    Logged (Except String Document) :=
  match assistant.inference prompt with
  | .error error => pure (.error error.message)
  | .ok response =>
      .single ((Document.ofResponse response).mapError Document.Error.message)
        (.responseReceived response.utf8ByteSize)

/-- There is always an answer, because the empty document takes the place of a missing one. -/
def answer (assistant : Assistant) (question : String) : Logged Answer := do
  let prompt := Prompt.text question assistant.schema
  match ← assistant.request prompt with
  | .ok document =>
      let outcome ← document.compile assistant.dialect
      return ⟨question, document, none, outcome, assistant.dialect⟩
  | .error reason =>
      Logged.emit [.unanswered reason]
      let outcome ← Document.empty.compile assistant.dialect
      return ⟨question, .empty, some reason, outcome, assistant.dialect⟩

end Assistant

end SemanticQuery
