/-
This file says which runs of the program end with which code. A fallback statement shares its code
with misuse of the program, and with nothing else.
-/

import SemanticQuery.Proofs.Command.Exit

namespace SemanticQuery

namespace Command

section Accepted

variable {environment : Environment} {file : Option String} {dialect : Dialect}
variable {strict raw : Bool}

/-- At most one document is accepted. -/
theorem Accepts.unique {first second : Document}
    (accepts : Accepts environment file dialect strict raw first)
    (acceptsOther : Accepts environment file dialect strict raw second) : first = second := by
  obtain ⟨text, read, parsed⟩ := accepts.parsed
  obtain ⟨other, readOther, parsedOther⟩ := acceptsOther.parsed
  rw [read] at readOther
  cases readOther
  rw [parsed] at parsedOther
  cases parsedOther
  rfl

/-- A validation refuses its input like a strict compile command. -/
theorem runValidate_ends (level : LogLevel) :
    (Refuses environment file dialect true raw ∧ ∃ messages,
      runValidate environment level file dialect raw = .failure messages) ∨
    ∃ document, Accepts environment file dialect true raw document ∧
      (runValidate environment level file dialect raw).code = 0 := by
  unfold runValidate
  split
  · next message failed => exact .inl ⟨refuses_of_loadDocument failed, _, rfl⟩
  · next document events loaded =>
      obtain ⟨text, read, parsed⟩ := ofInput_of_loadDocument loaded
      split
      · next failure failed => exact .inl ⟨.invalid read parsed rfl failed, _, rfl⟩
      · next report accepted =>
          exact .inr ⟨document, ⟨⟨text, read, parsed⟩, fun _ => ⟨report, accepted⟩⟩, rfl⟩

end Accepted

/-- A command fails when it refuses its input. An extraction refuses a text without a document. -/
inductive Fails (environment : Environment) (settings : Settings) : Command → Prop where
  | compile {file : Option String} {dialect : Option Dialect} {output : OutputFormat}
      {strict raw : Bool}
      (refuses : Refuses environment file (dialect.getD settings.dialect)
        (strict || settings.strict) raw) :
      Fails environment settings (.compile file dialect output strict raw)
  | validate {file : Option String} {dialect : Option Dialect} {raw : Bool}
      (refuses : Refuses environment file (dialect.getD settings.dialect) true raw) :
      Fails environment settings (.validate file dialect raw)
  | unreadable {file : Option String} {reason : String}
      (unread : readInput environment file = .error reason) :
      Fails environment settings (.extract file)
  | unparsable {file : Option String} {text : String} {error : Document.Error}
      (read : readInput environment file = .ok text)
      (unparsed : Document.ofResponse text = .error error) :
      Fails environment settings (.extract file)

/-- Only a compile command prints a fallback statement. It does so in the format that is asked for,
and when the document of its input degrades. -/
inductive PrintsFallback (environment : Environment) (settings : Settings) (printed : String) :
    Command → Prop where
  | compile {file : Option String} {dialect : Option Dialect} {output : OutputFormat}
      {strict raw : Bool} {document : Document} {reason : DegradeReason}
      (accepts : Accepts environment file (dialect.getD settings.dialect)
        (strict || settings.strict) raw document)
      (degraded : (document.compile (dialect.getD settings.dialect)).value = .degraded reason)
      (shown : output.Shows (document.summary (dialect.getD settings.dialect)) true printed) :
      PrintsFallback environment settings printed (.compile file dialect output strict raw)

end Command

/-- The code of a run is one for a failure, two for a fallback statement, and zero otherwise. A
failure prints nothing. -/
structure Finish.Codes (finish : Finish) (failed fallback : Prop) : Prop where
  one : finish.code = 1 ↔ failed
  two : finish.code = 2 ↔ fallback
  zero : finish.code = 0 ↔ ¬failed ∧ ¬fallback
  silent : failed → finish.output = ""

namespace Finish

variable {finish : Finish} {failed fallback : Prop}

theorem codes_failure (messages : List String) (holds : failed) (other : ¬fallback) :
    (Finish.failure messages).Codes failed fallback where
  one := iff_of_true rfl holds
  two := iff_of_false (by decide : (1 : UInt8) ≠ 2) other
  zero := iff_of_false (by decide : (1 : UInt8) ≠ 0) fun neither => neither.1 holds
  silent _ := rfl

theorem codes_of_two (two : finish.code = 2) (succeeded : ¬failed) (holds : fallback) :
    finish.Codes failed fallback where
  one := iff_of_false (by rw [two]; decide) succeeded
  two := iff_of_true two holds
  zero := iff_of_false (by rw [two]; decide) fun neither => neither.2 holds
  silent holds := absurd holds succeeded

theorem codes_of_zero (zero : finish.code = 0) (succeeded : ¬failed) (other : ¬fallback) :
    finish.Codes failed fallback where
  one := iff_of_false (by rw [zero]; decide) succeeded
  two := iff_of_false (by rw [zero]; decide) other
  zero := iff_of_true zero ⟨succeeded, other⟩
  silent holds := absurd holds succeeded

end Finish

namespace Command

variable (environment : Environment) (settings : Settings) (level : LogLevel)

/-- What a compile command prints decides between the codes of a run that does not fail. -/
theorem codes_compile (file : Option String) (dialect : Option Dialect) (output : OutputFormat)
    (strict raw : Bool) :
    ((Command.compile file dialect output strict raw).run environment settings level).Codes
      (Fails environment settings (.compile file dialect output strict raw))
      (PrintsFallback environment settings
        ((Command.compile file dialect output strict raw).run environment settings level).output
        (.compile file dialect output strict raw)) := by
  rw [run]
  rcases runCompile_ends level output with ⟨refuses, messages, failed⟩ |
    ⟨document, messages, accepts, finished⟩
  · rw [failed]
    refine Finish.codes_failure messages (.compile refuses) fun fallback => ?_
    cases fallback with
    | compile accepts degraded shown => exact accepts.not_refuses refuses
  · rw [finished]
    have tells := Finish.tells_printed output (dialect.getD settings.dialect) document
      (document.compile (dialect.getD settings.dialect)).value messages
    have succeeded : ¬Fails environment settings (.compile file dialect output strict raw) := by
      intro fails
      cases fails with
      | compile refuses => exact accepts.not_refuses refuses
    cases outcome : (document.compile (dialect.getD settings.dialect)).value with
    | compiled sql =>
        rw [outcome] at tells
        refine Finish.codes_of_zero (tells.compiled.2 ⟨sql, rfl⟩) succeeded fun fallback => ?_
        -- A fallback statement would come from this document, as no other one is accepted.
        cases fallback with
        | compile acceptsOther degraded shown =>
            rw [acceptsOther.unique accepts, outcome] at degraded
            cases degraded
    | degraded reason =>
        rw [outcome] at tells
        have two := tells.degraded.2 ⟨reason, rfl⟩
        have shown := tells.printed
        rw [two, ← Document.summary_eq outcome] at shown
        exact Finish.codes_of_two two succeeded (.compile accepts outcome shown)

theorem codes_validate (file : Option String) (dialect : Option Dialect) (raw : Bool) :
    ((Command.validate file dialect raw).run environment settings level).Codes
      (Fails environment settings (.validate file dialect raw))
      (PrintsFallback environment settings
        ((Command.validate file dialect raw).run environment settings level).output
        (.validate file dialect raw)) := by
  rw [run]
  rcases runValidate_ends level with ⟨refuses, messages, failed⟩ | ⟨document, accepts, zero⟩
  · rw [failed]
    exact Finish.codes_failure messages (.validate refuses) nofun
  · refine Finish.codes_of_zero zero (fun fails => ?_) nofun
    cases fails with
    | validate refuses => exact accepts.not_refuses refuses

theorem codes_extract (file : Option String) :
    ((Command.extract file).run environment settings level).Codes
      (Fails environment settings (.extract file))
      (PrintsFallback environment settings
        ((Command.extract file).run environment settings level).output (.extract file)) := by
  rw [run]
  unfold runExtract
  split
  · next message unread => exact Finish.codes_failure _ (.unreadable unread) nofun
  · next text read =>
      split
      · next error unparsed => exact Finish.codes_failure _ (.unparsable read unparsed) nofun
      · next document parsed =>
          refine Finish.codes_of_zero rfl (fun fails => ?_) nofun
          cases fails with
          | unreadable unread =>
              rw [read] at unread
              cases unread
          | unparsable other unparsed =>
              rw [read] at other
              cases other
              rw [parsed] at unparsed
              cases unparsed

/-- The code of a command tells whether it failed and whether it printed a fallback statement. -/
theorem codes_run (command : Command) :
    (command.run environment settings level).Codes (command.Fails environment settings)
      (command.PrintsFallback environment settings
        (command.run environment settings level).output) := by
  cases command with
  | compile file dialect output strict raw =>
      exact codes_compile environment settings level file dialect output strict raw
  | validate file dialect raw => exact codes_validate environment settings level file dialect raw
  | extract file => exact codes_extract environment settings level file

end Command

namespace Request

/-- A request fails when the program is misused, when there are no settings, and when the command
fails. -/
inductive Fails (environment : Environment) : Request → Prop where
  | misuse : Fails environment .misuse
  | unsettled {invocation : Invocation} {error : Settings.Error}
      (unloaded : invocation.settings environment = .error error) :
      Fails environment (.invoke invocation)
  | command {invocation : Invocation} {settings : Settings} {level : LogLevel}
      (loaded : invocation.settings environment = .ok (settings, level))
      (fails : invocation.command.Fails environment settings) :
      Fails environment (.invoke invocation)

/-- A request prints a fallback statement when its command does. -/
inductive PrintsFallback (environment : Environment) (printed : String) : Request → Prop where
  | command {invocation : Invocation} {settings : Settings} {level : LogLevel}
      (loaded : invocation.settings environment = .ok (settings, level))
      (prints : invocation.command.PrintsFallback environment settings printed) :
      PrintsFallback environment printed (.invoke invocation)

/-- The codes keep their meaning when code two stands for a fallback statement alone and every
failure has code one. -/
structure KeepsCodes (environment : Environment) (request : Request) (finish : Finish) : Prop where
  fallback : finish.code = 2 → request.PrintsFallback environment finish.output
  failure : request.Fails environment → finish.code = 1

section Settled

variable {environment : Environment} {invocation : Invocation} {settings : Settings}
variable {level : LogLevel}

/-- With settings it is up to the command whether an invocation fails. -/
theorem fails_invoke_iff (loaded : invocation.settings environment = .ok (settings, level)) :
    Fails environment (.invoke invocation) ↔ invocation.command.Fails environment settings := by
  constructor
  · intro failed
    cases failed with
    | unsettled unloaded =>
        rw [loaded] at unloaded
        cases unloaded
    | command other fails =>
        rw [loaded] at other
        cases other
        exact fails
  · exact .command loaded

/-- The same holds for the fallback statement. -/
theorem printsFallback_invoke_iff {printed : String}
    (loaded : invocation.settings environment = .ok (settings, level)) :
    PrintsFallback environment printed (.invoke invocation) ↔
      invocation.command.PrintsFallback environment settings printed := by
  constructor
  · intro fallback
    cases fallback with
    | command other prints =>
        rw [loaded] at other
        cases other
        exact prints
  · exact .command loaded

end Settled

/-- The code of a request that is no misuse tells the same of it. -/
theorem codes_run (environment : Environment) {request : Request} (used : request ≠ .misuse) :
    (request.run environment).Codes (request.Fails environment)
      (request.PrintsFallback environment (request.run environment).output) := by
  cases request with
  | misuse => exact absurd rfl used
  | help => exact Finish.codes_of_zero rfl nofun nofun
  | version => exact Finish.codes_of_zero rfl nofun nofun
  | invoke invocation =>
      rw [run, Invocation.run]
      cases loaded : invocation.settings environment with
      | error error =>
          refine Finish.codes_failure _ (.unsettled loaded) fun fallback => ?_
          cases fallback with
          | command other prints =>
              rw [loaded] at other
              cases other
      | ok settled =>
          rw [fails_invoke_iff loaded, printsFallback_invoke_iff loaded]
          exact invocation.command.codes_run environment settled.1 settled.2

end Request

/-- Code two stands for misuse of the program, or for a fallback statement that a compile command
has printed. Code one stands for all other failures, and code zero for everything else. A failure
prints nothing. So the codes keep their meaning exactly when the program is not misused. -/
theorem runProgram_codes (environment : Environment) (arguments : List String) :
    ((runProgram environment arguments).code = 2 ↔
      Request.ofArguments arguments = .misuse ∨
        (Request.ofArguments arguments).PrintsFallback environment
          (runProgram environment arguments).output) ∧
    ((runProgram environment arguments).code = 1 ↔
      Request.ofArguments arguments ≠ .misuse ∧
        (Request.ofArguments arguments).Fails environment) ∧
    ((runProgram environment arguments).code = 0 ↔
      ¬(Request.ofArguments arguments).Fails environment ∧
        ¬(Request.ofArguments arguments).PrintsFallback environment
          (runProgram environment arguments).output) ∧
    ((Request.ofArguments arguments).Fails environment →
      (runProgram environment arguments).output = "") ∧
    ((Request.ofArguments arguments).KeepsCodes environment (runProgram environment arguments) ↔
      Request.ofArguments arguments ≠ .misuse) := by
  rw [runProgram]
  generalize Request.ofArguments arguments = request
  by_cases misused : request = .misuse
  · subst misused
    have different : (2 : UInt8) ≠ 0 ∧ (2 : UInt8) ≠ 1 := by decide
    exact ⟨iff_of_true rfl (.inl rfl), iff_of_false different.2 fun parts => parts.1 rfl,
      iff_of_false different.1 fun neither => neither.1 .misuse, fun _ => rfl,
      iff_of_false (fun keeps => different.2 (keeps.failure .misuse)) fun used => used rfl⟩
  · have codes := request.codes_run environment misused
    refine ⟨?two, ?one, codes.zero, codes.silent,
      iff_of_true ⟨codes.two.1, codes.one.2⟩ misused⟩
    case two => rw [codes.two, or_iff_right misused]
    case one => rw [codes.one, and_iff_right misused]

/-- The name of an unknown dialect has the code of a fallback statement, although nothing is printed,
and so has misuse of any other kind. -/
theorem not_keepsCodes_misuse :
    (Request.ofArguments ["compile", "--dialect", "oracle"]).Fails unhelpful ∧
      (runProgram unhelpful ["compile", "--dialect", "oracle"]).code = 2 ∧
      (runProgram unhelpful ["compile", "--dialect", "oracle"]).output = "" ∧
      ¬(Request.ofArguments ["compile", "--dialect", "oracle"]).KeepsCodes unhelpful
        (runProgram unhelpful ["compile", "--dialect", "oracle"]) ∧
      [["compile", "--unknown"], ["explain"], ["compile", "--output", "xml"], []].map
          (runProgram unhelpful) = List.replicate 4 .misuse := by
  have misused : Request.ofArguments ["compile", "--dialect", "oracle"] = .misuse := by
    decide +kernel
  have others : [["compile", "--unknown"], ["explain"], ["compile", "--output", "xml"], []].map
      (runProgram unhelpful) = List.replicate 4 .misuse := by
    decide +kernel
  rw [runProgram, misused]
  have different : (2 : UInt8) ≠ 1 := by decide
  exact ⟨.misuse, rfl, rfl, fun keeps => different (keeps.failure .misuse), others⟩

end SemanticQuery
