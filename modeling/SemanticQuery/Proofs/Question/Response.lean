/-
This file shows that an answer depends on the object in a response only, and not on the text around
that object.
-/

import SemanticQuery.Proofs.Document.Embedded
import SemanticQuery.Question.Assistant

namespace SemanticQuery

/-- The first object of a response is embedded there. -/
theorem Document.embedded?_append {before object : String} (noBrace : '{' ∉ before.toList)
    (written : Json.Grammar.IsObject object.toList) (after : String) :
    embedded? (before ++ object ++ after) = some object := by
  rw [embedded?, String.toList_append, String.toList_append,
    firstObject_append noBrace written after.toList, Option.map_some, String.ofList_toList]

/-- The response is read as if the object stood alone. -/
theorem Document.ofResponse_append {before object : String} (noBrace : '{' ∉ before.toList)
    (written : Json.Grammar.IsObject object.toList) (after : String) :
    ofResponse (before ++ object ++ after) = ofJson object := by
  rw [ofResponse, embedded?_append noBrace written after]

theorem Outcome.sql_noTables :
    (Outcome.degraded .noTables).sql = "SELECT 1; -- No tables specified" := by decide

namespace Assistant

open Json.Grammar (IsContent IsObject isBlank_nil isContent_of_plain isObject_single
  writes_element)

/-- The response of the service decides about the answer. -/
theorem value_answer {assistant : Assistant} {question response : String}
    (responds : assistant.inference (Prompt.text question assistant.schema) = .ok response) :
    (assistant.answer question).value =
      match Document.ofResponse response with
      | .ok document =>
          ⟨question, document, none, (document.compile assistant.dialect).value,
            assistant.dialect⟩
      | .error error =>
          ⟨question, .empty, some error.message, .degraded .noTables, assistant.dialect⟩ := by
  simp only [answer, request, responds, Logged.value_bind, Logged.value_single]
  cases Document.ofResponse response with
  | ok document => rfl
  | error error => rfl

/-- The object of a response is found, it is read as if it stood alone, and the answer is made from
the document that it holds. An object that holds none leaves an answer without tables. -/
theorem answer_append {before object : String} (noBrace : '{' ∉ before.toList)
    (written : IsObject object.toList) (after : String) :
    Document.embedded? (before ++ object ++ after) = some object ∧
      Document.ofResponse (before ++ object ++ after) = Document.ofJson object ∧
      ∀ (assistant : Assistant) (question : String),
        assistant.inference (Prompt.text question assistant.schema) =
          .ok (before ++ object ++ after) →
        (∀ document, Document.ofJson object = .ok document →
          (assistant.answer question).value =
            ⟨question, document, none, (document.compile assistant.dialect).value,
              assistant.dialect⟩) ∧
        ∀ error, Document.ofJson object = .error error →
          (assistant.answer question).value =
              ⟨question, .empty, some error.message, .degraded .noTables, assistant.dialect⟩ ∧
            (assistant.answer question).value.outcome.sql =
              "SELECT 1; -- No tables specified" := by
  have read := Document.ofResponse_append noBrace written after
  refine ⟨Document.embedded?_append noBrace written after, read, ?_⟩
  intro assistant question responds
  have answered := value_answer responds
  rw [read] at answered
  constructor
  · intro document accepted
    rw [answered, accepted]
  · intro error refused
    rw [refused] at answered
    rw [answered]
    exact ⟨rfl, Outcome.sql_noTables⟩

/-- The only table of this object has braces and a quote in its name. -/
def tricky : String := "\x7b\"tables\":[\"\x7d\\\"\x7b\"]\x7d"

/-- The tables of this object are no list, so it holds no document. -/
def refused : String := "\x7b\"tables\":\x7b\x7d\x7d"

/-- This assistant always gets the same response, with the object in the middle. -/
def parrot (object : String) : Assistant where
  inference _ := .ok ("Here: \"" ++ object ++ "\" \x7d\x7b")
  dialect := .mysql
  schema := none

/-- Braces and quotes around an object and in its strings change nothing about the answer. -/
theorem answer_append_tricky :
    ((parrot tricky).answer "all").value =
        ⟨"all", { Document.empty with tables := ["\x7d\"\x7b"] }, none,
          (Document.compile .mysql { Document.empty with tables := ["\x7d\"\x7b"] }).value,
          .mysql⟩ ∧
      ((parrot refused).answer "all").value.document = .empty := by
  have name : IsContent ['t', 'a', 'b', 'l', 'e', 's'] := isContent_of_plain (by decide)
  have content : IsContent ['}', '\\', '"', '{'] :=
    .plain (by decide) (.letter (by decide) (isContent_of_plain (by decide)))
  have trickyWritten : IsObject tricky.toList :=
    isObject_single name (.array (.lastElement (writes_element (.string (.quoted content)))))
  have refusedWritten : IsObject refused.toList :=
    isObject_single name (.nested (.emptyObject isBlank_nil))
  have noBrace : '{' ∉ "Here: \"".toList := by decide
  have accepted : Document.ofJson tricky =
      .ok { Document.empty with tables := ["\x7d\"\x7b"] } := by decide +kernel
  have mistyped : Document.ofJson refused = .error (.invalid .mistyped) := by decide +kernel
  have answeredTricky :=
    (answer_append noBrace trickyWritten "\" \x7d\x7b").2.2 (parrot tricky) "all" rfl
  have answeredRefused :=
    (answer_append noBrace refusedWritten "\" \x7d\x7b").2.2 (parrot refused) "all" rfl
  exact ⟨answeredTricky.1 _ accepted,
    congrArg Answer.document (answeredRefused.2 _ mistyped).1⟩

end Assistant

end SemanticQuery
