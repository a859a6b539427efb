/-
This file compares the statements of one query in all dialects. They differ at most in the
backslashes inside of string literals, which only one of the dialects doubles.
-/

import SemanticQuery.Proofs.Literal.Clauses
import SemanticQuery.Proofs.Statement.Compiled
import SemanticQuery.Proofs.Statement.Inert

namespace SemanticQuery

namespace Sql

/-- Every backslash is written twice, and any other character once. -/
def doubleBackslashes (text : List Char) : List Char :=
  text.flatMap fun character => if character = '\\' then ['\\', '\\'] else [character]

theorem length_doubleBackslashes (text : List Char) :
    (doubleBackslashes text).length = text.length + text.count '\\' := by
  induction text with
  | nil => rfl
  | cons first rest inductionHypothesis =>
      simp only [doubleBackslashes, List.flatMap_cons, List.length_append, List.length_cons,
        List.count_cons] at inductionHypothesis ⊢
      split <;> simp_all <;> omega

theorem doubleBackslashes_eq_self {text : List Char} (none : '\\' ∉ text) :
    doubleBackslashes text = text := by
  induction text with
  | nil => rfl
  | cons first rest inductionHypothesis =>
      obtain ⟨different, later⟩ := not_or.1 (mt List.mem_cons.2 none)
      rw [doubleBackslashes, List.flatMap_cons, if_neg (Ne.symm different)]
      exact congrArg (first :: ·) (inductionHypothesis later)

/-- A literal with escapes is a standard literal in which all backslashes are doubled. -/
theorem quoteBackslash_eq (text : List Char) :
    quoteBackslash text = doubleBackslashes (quoteStandard text) := by
  have character (character : Char) :
      (if character == '\'' || character == '\\' then [character, character] else [character]) =
        doubleBackslashes (if character == '\'' then [character, character] else [character]) := by
    by_cases quote : character = '\''
    · subst quote
      rfl
    · by_cases backslash : character = '\\' <;> simp [doubleBackslashes, quote, backslash]
  have inside (characters : List Char) :
      characters.flatMap (fun character =>
          if character == '\'' || character == '\\' then [character, character]
          else [character]) =
        doubleBackslashes (characters.flatMap fun character =>
          if character == '\'' then [character, character] else [character]) := by
    rw [doubleBackslashes, List.flatMap_assoc]
    exact List.flatMap_congr fun other _ => character other
  rw [quoteBackslash, quoteStandard, quoteWith, quoteWith, inside]
  simp [doubleBackslashes]

/-- The quotes around a literal and the quotes that it doubles are no backslashes. -/
theorem count_quoteStandard (text : List Char) :
    (quoteStandard text).count '\\' = text.count '\\' := by
  have inside : (text.flatMap fun character =>
      if character == '\'' then [character, character] else [character]).count '\\' =
        text.count '\\' := by
    induction text with
    | nil => rfl
    | cons first rest inductionHypothesis =>
        rw [List.flatMap_cons, List.count_append, inductionHypothesis]
        by_cases quote : first = '\''
        · simp [quote]
        · simp [quote, List.count_cons, Nat.add_comm]
  rw [quoteStandard, quoteWith, List.cons_append, List.count_cons, List.count_append, inside]
  rfl

theorem count_flatten_quoteStandard (values : List String) :
    ((values.map fun value => quoteStandard value.toList).flatten).count '\\' =
      (values.flatMap String.toList).count '\\' := by
  induction values with
  | nil => rfl
  | cons value rest inductionHypothesis =>
      rw [List.map_cons, List.flatten_cons, List.flatMap_cons, List.count_append,
        List.count_append, count_quoteStandard, inductionHypothesis]

/-- A segment of a statement is a string literal or other text. -/
structure Segment where
  isLiteral : Bool
  text : List Char

/-- Backslashes are doubled in a literal, and all other text stays. -/
def Segment.escaped (segment : Segment) : List Char :=
  if segment.isLiteral then doubleBackslashes segment.text else segment.text

/-- Escaping adds one character for every backslash in a literal. -/
theorem length_flatMap_escaped (segments : List Segment) :
    (segments.flatMap Segment.escaped).length = (segments.flatMap Segment.text).length +
      (((segments.filter Segment.isLiteral).map Segment.text).flatten).count '\\' := by
  induction segments with
  | nil => rfl
  | cons first rest inductionHypothesis =>
      rw [List.flatMap_cons, List.flatMap_cons, List.length_append, List.length_append,
        inductionHypothesis, Segment.escaped]
      cases literal : first.isLiteral with
      | false =>
          rw [List.filter_cons_of_neg (by simp [literal]), if_neg Bool.false_ne_true]
          omega
      | true =>
          rw [List.filter_cons_of_pos literal, if_pos rfl, length_doubleBackslashes,
            List.map_cons, List.flatten_cons, List.count_append]
          omega

/-- The plain text consists of these segments, and its literals are those of the values in their
order. The escaped text comes from it by doubling the backslashes inside of the literals, and by
nothing else. -/
structure IsEscaped (segments : List Segment) (values : List String) (plain escaped : String) :
    Prop where
  plain : plain.toList = segments.flatMap Segment.text
  escaped : escaped.toList = segments.flatMap Segment.escaped
  literals : (segments.filter Segment.isLiteral).map Segment.text =
    values.map fun value => quoteStandard value.toList

section Escaped

variable {segments : List Segment} {values : List String} {plain escaped : String}

/-- The lengths of the two texts differ by the number of backslashes in the values. -/
theorem IsEscaped.length_eq (isEscaped : IsEscaped segments values plain escaped) :
    escaped.length = plain.length + (values.flatMap String.toList).count '\\' := by
  rw [← String.length_toList, ← String.length_toList, isEscaped.plain, isEscaped.escaped,
    length_flatMap_escaped, isEscaped.literals, count_flatten_quoteStandard]

/-- The two texts are the same when no value has a backslash. -/
theorem IsEscaped.eq_iff (isEscaped : IsEscaped segments values plain escaped) :
    escaped = plain ↔ ∀ value ∈ values, '\\' ∉ value.toList := by
  have lengths := isEscaped.length_eq
  have counts : (values.flatMap String.toList).count '\\' = 0 ↔
      ∀ value ∈ values, '\\' ∉ value.toList := by
    simp [List.count_eq_zero]
  constructor
  · intro same
    rw [same] at lengths
    exact counts.1 (by omega)
  · intro none
    rw [← String.toList_inj, isEscaped.escaped, isEscaped.plain]
    refine List.flatMap_congr fun segment member => ?_
    unfold Segment.escaped
    split
    · next literal =>
        apply doubleBackslashes_eq_self
        have inside : segment.text ∈ values.map fun value => quoteStandard value.toList :=
          isEscaped.literals ▸ List.mem_map_of_mem (List.mem_filter.2 ⟨member, literal⟩)
        obtain ⟨value, found, quoted⟩ := List.mem_map.1 inside
        rw [← quoted, ← List.count_eq_zero, count_quoteStandard, List.count_eq_zero]
        exact none value found
    · rfl

end Escaped

/-- A token is a literal when it is a string. -/
def Token.segment (token : Token) : Segment :=
  ⟨token.string?.isSome, (token.text .postgres).toList⟩

/-- Only the text of a string depends on the dialect. -/
theorem Token.escaped_segment (token : Token) :
    token.segment.escaped = (token.text .mysql).toList := by
  cases token with
  | string value =>
      simp [segment, Segment.escaped, string?, text, Dialect.literal, Dialect.quote,
        quoteBackslash_eq]
  | _ => rfl

theorem toList_text (dialect : Dialect) (tokens : List Token) :
    (text dialect tokens).toList = tokens.flatMap fun token => (token.text dialect).toList := by
  induction tokens with
  | nil => rfl
  | cons token rest inductionHypothesis =>
      rw [text_cons, inductionHypothesis, List.flatMap_cons]

/-- The text of any tokens is escaped inside of their strings. -/
theorem isEscaped_text (tokens : List Token) :
    IsEscaped (tokens.map Token.segment) (strings tokens) (text .postgres tokens)
      (text .mysql tokens) := by
  constructor
  case plain =>
    rw [toList_text, List.flatMap_map]
    rfl
  case escaped =>
    rw [toList_text, List.flatMap_map]
    exact List.flatMap_congr fun token _ => token.escaped_segment.symm
  case literals =>
    induction tokens with
    | nil => rfl
    | cons token rest inductionHypothesis =>
        rw [strings_cons, List.map_append, ← inductionHypothesis, List.map_cons]
        cases token with
        | string value =>
            rw [List.filter_cons_of_pos rfl]
            simp [Token.segment, Token.string?, Token.text, Dialect.literal, Dialect.quote]
        | _ => rfl

/-- Two of the dialects have the same texts. -/
theorem text_duckdb (tokens : List Token) : text .duckdb tokens = text .postgres tokens := by
  have same (token : Token) : token.text .duckdb = token.text .postgres := by
    cases token <;> rfl
  unfold text
  rw [funext same]

end Sql

namespace Query

/-- Two of the dialects have the same outcome for every query. A query that degrades does so in all
dialects, with the same fallback statement. A statement of the third dialect has the same segments
as in the others, and it doubles the backslashes inside of the literals of the quoted texts. This is
the only difference, so the lengths differ by the number of these backslashes. -/
theorem compile_across_dialects (query : Query) :
    (query.compile .duckdb).value = (query.compile .postgres).value ∧
    (∀ reason, (query.compile .mysql).value = .degraded reason ↔
      (query.compile .postgres).value = .degraded reason) ∧
    (∀ dialect other reason, (query.compile dialect).value = .degraded reason →
      (query.compile other).value.sql = Sql.text dialect (Outcome.fallback reason)) ∧
    ∀ plain, (query.compile .postgres).value = .compiled plain →
      ∃ tokens escaped, query.statement = .ok tokens ∧
        (query.compile .mysql).value = .compiled escaped ∧
        Sql.IsEscaped (tokens.map Sql.Token.segment)
          (query.conditions.flatMap Condition.quotedTexts) plain escaped ∧
        escaped.length = plain.length +
          ((query.conditions.flatMap Condition.quotedTexts).flatMap String.toList).count '\\' ∧
        (escaped = plain ↔
          ∀ text ∈ query.conditions.flatMap Condition.quotedTexts, '\\' ∉ text.toList) := by
  have degrades (dialect other : Dialect) (reason : DegradeReason)
      (degraded : (query.compile dialect).value = .degraded reason) :
      (query.compile other).value = .degraded reason :=
    compile_eq_degraded_iff.2 (compile_eq_degraded_iff.1 degraded)
  refine ⟨?same, fun reason => ⟨degrades _ _ reason, degrades _ _ reason⟩, ?fallback, ?escaped⟩
  case same =>
    cases outcome : (query.compile .postgres).value with
    | degraded reason => exact degrades _ _ reason outcome
    | compiled sql =>
        obtain ⟨tables, tokens, rendered, rfl⟩ := compile_eq_compiled_iff.1 outcome
        exact compile_eq_compiled_iff.2 ⟨tables, tokens, rendered, Sql.text_duckdb tokens⟩
  case fallback =>
    intro dialect other reason degraded
    rw [degrades dialect other reason degraded, Outcome.sql, DegradeReason.text_fallback,
      DegradeReason.text_fallback]
  case escaped =>
    intro plain compiled
    obtain ⟨tables, tokens, rendered, rfl⟩ := compile_eq_compiled_iff.1 compiled
    have isEscaped := strings_statement rendered ▸ Sql.isEscaped_text tokens
    exact ⟨tokens, Sql.text .mysql tokens, rendered,
      compile_eq_compiled_iff.2 ⟨tables, tokens, rendered, rfl⟩, isEscaped, isEscaped.length_eq,
      isEscaped.eq_iff⟩

/-- This query has backslashes in its columns, in a string and in a list. -/
def paths : Query :=
  (((Query.ofTables ["files"]).select ["a\\b"]).filter
    ⟨"path\\", .equal, some (.scalar (.string "C:\\it's")), none⟩).filter
      ⟨"name", .like, some (.list [.string "\\", .null]), none⟩

/-- Only the two backslashes inside of the literals count, and they do not in every dialect. -/
theorem compile_across_dialects_paths :
    (paths.compile .postgres).value =
        .compiled "SELECT a\\b FROM files WHERE path\\ = 'C:\\it''s' AND name LIKE '[\\, null]'" ∧
      (paths.compile .duckdb).value = (paths.compile .postgres).value ∧
      ∃ escaped, (paths.compile .mysql).value = .compiled escaped ∧ escaped.length = 72 + 2 := by
  have compiled : (paths.compile .postgres).value = .compiled
      "SELECT a\\b FROM files WHERE path\\ = 'C:\\it''s' AND name LIKE '[\\, null]'" := by
    decide +kernel
  obtain ⟨same, _, _, other⟩ := compile_across_dialects paths
  obtain ⟨_, escaped, _, otherCompiled, _, longer, _⟩ := other _ compiled
  exact ⟨compiled, same, escaped, otherCompiled, longer.trans (by decide +kernel)⟩

end Query

end SemanticQuery
