/-
This file defines the events that a program can follow.
-/

import SemanticQuery.Document.Basic
import SemanticQuery.Plan
import SemanticQuery.Settings.Level
import SemanticQuery.Statement.Outcome
import SemanticQuery.Text.Quoted

namespace SemanticQuery

/-- An event says what was done with a document or a query. -/
inductive Event where
  | droppedAggregation (column : String) (function : Option String)
  | skippedJoin (skipped : Plan.Skipped)
  | degraded (dialect : Dialect) (reason : DegradeReason)
  | compiled (dialect : Dialect) (fingerprint : String)
  | unreadableDocument (error : Document.Error)
  | responseReceived (bytes : Nat)
  | unanswered (reason : String)
deriving DecidableEq

namespace Event

/-- An absent text is told apart from every text. -/
def optionalText : Option String → String
  | none => "None"
  | some text => "Some(" ++ Text.quoted text ++ ")"

/-- What is left out or replaced is worth a warning. -/
def level : Event → LogLevel
  | .droppedAggregation .. => .debug
  | .skippedJoin .. => .warn
  | .degraded .. => .warn
  | .compiled .. => .debug
  | .unreadableDocument .. => .warn
  | .responseReceived .. => .debug
  | .unanswered .. => .warn

/-- The details of an event follow its description. -/
def text : Event → String
  | .droppedAggregation column function =>
      "dropping unreadable aggregation column=" ++ column ++ " function=" ++ optionalText function
  | .skippedJoin skipped =>
      "skipping join index=" ++ toString skipped.index ++ " reason=" ++ skipped.reason.name
  | .degraded dialect reason =>
      "degraded compile dialect=" ++ dialect.name ++ " reason=" ++ reason.message
  | .compiled dialect fingerprint =>
      "compiled semantic query dialect=" ++ dialect.name ++ " fingerprint=" ++ fingerprint
  | .unreadableDocument error =>
      "falling back to empty semantic query error=" ++ error.message
  | .responseReceived bytes => "inference response received bytes=" ++ toString bytes
  | .unanswered reason => "falling back to empty semantic query reason=" ++ reason

/-- The line of an event starts with its level. -/
def line (event : Event) : String := event.level.name ++ " " ++ event.text

end Event

/-- A logged value comes with the events that led to it, in their order. -/
@[ext]
structure Logged (α : Type) where
  value : α
  events : List Event

namespace Logged

/-- A value is logged together with one event. -/
def single (value : α) (event : Event) : Logged α := ⟨value, [event]⟩

instance : Monad Logged where
  pure value := ⟨value, []⟩
  bind first next :=
    let second := next first.value
    ⟨second.value, first.events ++ second.events⟩

/-- The events of a list are logged without a value. -/
def emit (events : List Event) : Logged Unit := ⟨(), events⟩

@[simp]
theorem value_pure (value : α) : (pure value : Logged α).value = value := rfl

@[simp]
theorem events_pure (value : α) : (pure value : Logged α).events = [] := rfl

@[simp]
theorem value_bind (first : Logged α) (next : α → Logged β) :
    (first >>= next).value = (next first.value).value := rfl

@[simp]
theorem events_bind (first : Logged α) (next : α → Logged β) :
    (first >>= next).events = first.events ++ (next first.value).events := rfl

@[simp]
theorem value_single (value : α) (event : Event) : (single value event).value = value := rfl

@[simp]
theorem events_single (value : α) (event : Event) : (single value event).events = [event] := rfl

@[simp]
theorem events_emit (events : List Event) : (emit events).events = events := rfl

instance : LawfulMonad Logged :=
  LawfulMonad.mk' Logged
    (fun logged => Logged.ext rfl (List.append_nil logged.events))
    (fun _ _ => rfl)
    (fun first _ _ => Logged.ext rfl (List.append_assoc first.events _ _))

end Logged

/-- A response that holds no document counts as the empty document, which is logged. -/
def Document.orEmpty (read : Except Document.Error Document) : Logged Document :=
  match read with
  | .ok document => pure document
  | .error error => .single .empty (.unreadableDocument error)

end SemanticQuery
