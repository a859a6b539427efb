/-
This file says how a run of the compile command ends. The code tells a refused input, a degraded
statement and a compiled one apart, and only a refused input prints nothing.
-/

import SemanticQuery.Command.Run
import SemanticQuery.Proofs.Command.Narration
import SemanticQuery.Proofs.Document.RoundTrip
import SemanticQuery.Proofs.Report.Agreement

namespace SemanticQuery

/-- The text of an input is a document. A raw text may hold one, and it counts as the empty document
if it does not. -/
def Document.ofInput (raw : Bool) (text : String) : Except Document.Error Document :=
  if raw then .ok (Document.orEmpty (Document.ofResponse text)).value else Document.ofJson text

namespace Command

/-- A compile command refuses its input for one of these reasons. -/
inductive Refuses (environment : Environment) (file : Option String) (dialect : Dialect)
    (strict raw : Bool) : Prop where
  | unreadable {reason : String} (unread : readInput environment file = .error reason)
  | unparsable {text : String} {error : Document.Error}
      (read : readInput environment file = .ok text) (whole : raw = false)
      (unparsed : Document.ofJson text = .error error)
  | invalid {text : String} {document : Document} {failure : Report.Failure}
      (read : readInput environment file = .ok text)
      (parsed : Document.ofInput raw text = .ok document) (checked : strict = true)
      (failed : Report.ofDocument dialect document = .error failure)

/-- A compile command that does not refuse its input has a document, which it has checked if it is
strict. -/
structure Accepts (environment : Environment) (file : Option String) (dialect : Dialect)
    (strict raw : Bool) (document : Document) : Prop where
  parsed : ∃ text, readInput environment file = .ok text ∧
    Document.ofInput raw text = .ok document
  checked : strict = true → ∃ report, Report.ofDocument dialect document = .ok report

section Loading

variable {environment : Environment} {file : Option String} {dialect : Dialect}
variable {strict raw : Bool} {document : Document}

/-- An accepted input is not refused. -/
theorem Accepts.not_refuses (accepts : Accepts environment file dialect strict raw document) :
    ¬Refuses environment file dialect strict raw := by
  obtain ⟨⟨text, read, parsed⟩, checked⟩ := accepts
  intro refuses
  cases refuses with
  | unreadable unread =>
      rw [read] at unread
      cases unread
  | unparsable other whole unparsed =>
      rw [read] at other
      cases other
      rw [whole, Document.ofInput, if_neg Bool.false_ne_true, unparsed] at parsed
      cases parsed
  | invalid other again isStrict failed =>
      rw [read] at other
      cases other
      rw [parsed] at again
      cases again
      obtain ⟨report, accepted⟩ := checked isStrict
      rw [accepted] at failed
      cases failed

/-- A document is loaded from the text of the input. -/
theorem ofInput_of_loadDocument {logged : Logged Document}
    (loaded : loadDocument environment file raw = .ok logged) :
    ∃ text, readInput environment file = .ok text ∧
      Document.ofInput raw text = .ok logged.value := by
  simp only [loadDocument, bind_eq_ok_iff] at loaded
  obtain ⟨text, read, loaded⟩ := loaded
  refine ⟨text, read, ?_⟩
  unfold Document.ofInput
  cases raw with
  | true =>
      cases loaded
      rfl
  | false =>
      rw [if_neg Bool.false_ne_true] at loaded ⊢
      cases parsed : Document.ofJson text with
      | error error =>
          rw [parsed] at loaded
          cases loaded
      | ok document =>
          rw [parsed] at loaded
          cases loaded
          rfl

/-- An input from which no document is loaded is refused. -/
theorem refuses_of_loadDocument {message : String}
    (failed : loadDocument environment file raw = .error message) :
    Refuses environment file dialect strict raw := by
  simp only [loadDocument, bind_eq_error_iff] at failed
  rcases failed with unread | ⟨text, read, failed⟩
  · exact .unreadable unread
  · cases raw with
    | true => cases failed
    | false =>
        rw [if_neg Bool.false_ne_true] at failed
        cases parsed : Document.ofJson text with
        | error error => exact .unparsable read rfl parsed
        | ok document =>
            rw [parsed] at failed
            cases failed

/-- A compile command refuses its input with a failure, or it prints the outcome of its document. -/
theorem runCompile_ends (level : LogLevel) (output : OutputFormat) :
    (Refuses environment file dialect strict raw ∧ ∃ messages,
      runCompile environment level file dialect output strict raw = .failure messages) ∨
    ∃ document messages, Accepts environment file dialect strict raw document ∧
      runCompile environment level file dialect output strict raw =
        ⟨if (document.compile dialect).value.isDegraded then 2 else 0,
          printed output dialect document (document.compile dialect).value, messages⟩ := by
  unfold runCompile
  split
  · next message failed => exact .inl ⟨refuses_of_loadDocument failed, _, rfl⟩
  · next document events loaded =>
      have parsed := ofInput_of_loadDocument loaded
      cases strict with
      | false => exact .inr ⟨document, _, ⟨parsed, nofun⟩, rfl⟩
      | true =>
          dsimp only
          rw [if_pos rfl]
          split
          · next failure failed =>
              obtain ⟨text, read, parsed⟩ := parsed
              exact .inl ⟨.invalid read parsed rfl failed, _, rfl⟩
          · next report accepted =>
              exact .inr ⟨document, _, ⟨parsed, fun _ => ⟨report, accepted⟩⟩, rfl⟩

/-- A strict command accepts only documents that compile. -/
theorem Accepts.compiles (accepts : Accepts environment file dialect true raw document) :
    ∃ sql, (document.compile dialect).value = .compiled sql := by
  obtain ⟨report, accepted⟩ := accepts.checked rfl
  obtain ⟨tables, strict, _⟩ := Report.ofDocument_eq_ok_iff.1 accepted
  -- Numbers that were read are finite, so every literal of the query can be rendered.
  obtain ⟨tokens, _, compiled⟩ :=
    (Document.interpret_eq_ok_iff.1 strict).compiles tables dialect
  exact ⟨_, Document.compile_eq_compile dialect tables strict ▸ compiled⟩

end Loading

end Command

/-- The output shows a statement alone, in the fenced block of a summary, or as a member of a JSON
object that also says whether the statement is degraded. -/
def OutputFormat.Shows (format : OutputFormat) (summary : Summary) (isDegraded : Bool)
    (output : String) : Prop :=
  match format with
  | .sql => output = summary.outcome.sql ++ "\n"
  | .verbose => summary.IsPrintedAs output
  | .json => ∃ members, Json.Value.ofText output = .ok (.object members) ∧
      members.lookup "sql" = some (.string summary.outcome.sql) ∧
      members.lookup "degraded" = some (.boolean isDegraded)

namespace Command

/-- These members tell the outcome in the JSON format. -/
def outcomeMembers (dialect : Dialect) (outcome : Outcome) : List (String × Json.Value) := [
  ("degraded", .boolean outcome.isDegraded),
  ("dialect", .string dialect.name),
  ("reason", .ofOption (fun reason => .string reason.message) outcome.reason?),
  ("sql", .string outcome.sql)]

/-- Their object is read back from the line that it is printed on. -/
theorem ofText_outcomeMembers (dialect : Dialect) (outcome : Outcome) :
    Json.Value.ofText ((Json.Value.object (outcomeMembers dialect outcome)).prettyText ++ "\n") =
      .ok (.object (outcomeMembers dialect outcome)) := by
  have reason : Json.Value.Fits 126
        (.ofOption (fun reason => .string reason.message) outcome.reason?) ∧
      (Json.Value.ofOption (fun reason => .string reason.message) outcome.reason?).isExact =
        true := by
    cases outcome.reason? with
    | none => exact ⟨.null, rfl⟩
    | some reason => exact ⟨.string _, rfl⟩
  -- The members stand one level below the object itself, and their keys are sorted.
  have inside : ∀ member ∈ outcomeMembers dialect outcome,
      Json.Value.Fits 126 member.2 ∧ member.2.isExact = true := by
    simp only [outcomeMembers, List.forall_mem_cons]
    exact ⟨⟨.boolean _, rfl⟩, ⟨.string _, rfl⟩, reason, ⟨.string _, rfl⟩, List.forall_mem_nil _⟩
  have keys : ["degraded", "dialect", "reason", "sql"].Pairwise (· < ·) := by decide
  have sorted : (outcomeMembers dialect outcome).Pairwise fun first second =>
      first.1 < second.1 := List.pairwise_map.1 keys
  exact Json.Value.ofText_line (.object (fun member found => (inside member found).1) sorted)
    (Json.Value.haveExact_eq_true_iff.2 fun member found => (inside member found).2)

/-- What is printed shows the statement of the outcome in every format. -/
theorem shows_printed (format : OutputFormat) (dialect : Dialect) (document : Document)
    (outcome : Outcome) :
    format.Shows (Summary.ofDocument dialect document outcome) outcome.isDegraded
      (printed format dialect document outcome) := by
  cases format with
  | sql => rfl
  | verbose => exact (Summary.ofDocument dialect document outcome).isPrintedAs_text
  | json => exact ⟨_, ofText_outcomeMembers dialect outcome, rfl, rfl⟩

end Command

/-- The summary of a document has the outcome of the document. -/
def Document.summary (dialect : Dialect) (document : Document) : Summary :=
  Summary.ofDocument dialect document (document.compile dialect).value

theorem Document.summary_eq {dialect : Dialect} {document : Document} {outcome : Outcome}
    (compiled : (document.compile dialect).value = outcome) :
    document.summary dialect = Summary.ofDocument dialect document outcome :=
  congrArg (Summary.ofDocument dialect document) compiled

/-- A run with a summary ends with a code for its outcome and shows the statement. -/
structure Finish.Tells (finish : Finish) (format : OutputFormat) (summary : Summary) : Prop where
  degraded : finish.code = 2 ↔ ∃ reason, summary.outcome = .degraded reason
  compiled : finish.code = 0 ↔ ∃ sql, summary.outcome = .compiled sql
  printed : format.Shows summary (finish.code = 2) finish.output

/-- The code and the text of a run belong to the same outcome. -/
theorem Finish.tells_printed (format : OutputFormat) (dialect : Dialect) (document : Document)
    (outcome : Outcome) (messages : List String) :
    (Finish.mk (if outcome.isDegraded then 2 else 0)
      (Command.printed format dialect document outcome) messages).Tells format
        (Summary.ofDocument dialect document outcome) := by
  have shown := Command.shows_printed format dialect document outcome
  have different : (0 : UInt8) ≠ 2 := by decide
  cases outcome with
  | compiled sql => exact ⟨iff_of_false different nofun, iff_of_true rfl ⟨sql, rfl⟩, shown⟩
  | degraded reason =>
      exact ⟨iff_of_true rfl ⟨reason, rfl⟩, iff_of_false different.symm nofun, shown⟩

/-- The input of this environment is a response without a document, and there are no files. -/
def unhelpful : Environment := ⟨fun _ => .absent "", "I cannot answer that.".toUTF8, none, none⟩

end SemanticQuery
