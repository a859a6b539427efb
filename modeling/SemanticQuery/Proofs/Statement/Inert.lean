/-
This file shows that the statement of a degraded outcome is inert. Whatever text is in its reason,
the statement selects a constant, and all the rest of it is one comment.
-/

import Mathlib.Data.List.TakeWhile
import SemanticQuery.Proofs.Literal.Scanner
import SemanticQuery.Statement.Compilation

namespace SemanticQuery

namespace Sql

/-- A script consists of statements and of line comments. -/
inductive Part where
  | statement (pieces : List Piece)
  | comment (text : List Char)
deriving DecidableEq

/-- Blanks alone are no statement. -/
def statementOf (pieces : List Piece) : List Part :=
  if pieces.all (·.outline.any Text.isBlank) then [] else [.statement pieces]

/-- A semicolon ends the statement that starts with the pieces before it. A comment starts with two
dashes and ends at a line break or with the text. The reading gives up where anything else is
opened, and when a literal has no end. -/
def parts (dialect : Dialect) (isBreak : Char → Bool) (before : List Piece) (text : List Char) :
    Option (List Part) :=
  match text with
  | [] => some (statementOf before)
  | first :: rest =>
      if first = '\'' then
        match _found : readLiteral dialect.hasEscapes rest with
        | none => none
        | some (literal, after) =>
            parts dialect isBreak (before ++ [.literal (String.ofList literal)]) after
      else if first = ';' then (parts dialect isBreak [] rest).map (statementOf before ++ ·)
      else if ['-', '-'] <+: first :: rest then
        (parts dialect isBreak before ((rest.drop 1).dropWhile (!isBreak ·))).map
          (.comment ((rest.drop 1).takeWhile (!isBreak ·)) :: ·)
      else if OpensOther first rest then none
      else parts dialect isBreak (before ++ [.outside first]) rest
termination_by text.length
decreasing_by
  · exact Nat.lt_succ_of_lt (length_readLiteral_lt _found)
  · exact Nat.lt_succ_self _
  · have left := (List.dropWhile_sublist (!isBreak ·) (l := rest.drop 1)).length_le
    rw [List.length_drop] at left
    exact Nat.lt_succ_of_le (Nat.le_trans left (Nat.sub_le _ _))
  · exact Nat.lt_succ_self _

variable (dialect : Dialect) {isBreak : Char → Bool}

/-- Such a character is part of a statement whatever stands around it. -/
def isOrdinary (character : Char) : Bool :=
  character ∉ ['\'', '"', '`', '\\', '#', ';', '-', '/']

/-- Ordinary characters go into the statement one by one. -/
theorem parts_ordinary (before : List Piece) {text : List Char} (rest : List Char)
    (ordinary : text.all isOrdinary = true) :
    parts dialect isBreak before (text ++ rest) =
      parts dialect isBreak (before ++ text.map .outside) rest := by
  induction text generalizing before with
  | nil => simp
  | cons first text inductionHypothesis =>
      rw [List.all_cons, Bool.and_eq_true] at ordinary
      have different : first ∉ ['\'', '"', '`', '\\', '#', ';', '-', '/'] := by
        simpa [isOrdinary] using ordinary.1
      simp only [List.mem_cons, List.not_mem_nil, or_false, not_or] at different
      obtain ⟨notQuote, notName, notTick, notEscape, notHash, notEnd, notDash, notSlash⟩ :=
        different
      have noComment : ¬ ['-', '-'] <+: first :: (text ++ rest) := fun line =>
        notDash (List.cons_prefix_cons.1 line).1.symm
      have closed : ¬OpensOther first (text ++ rest) := by
        intro opens
        rcases opens with special | line | block
        · simp [notName, notTick, notEscape, notHash] at special
        · exact noComment line
        · exact notSlash (List.cons_prefix_cons.1 block).1.symm
      rw [List.cons_append, parts, if_neg notQuote, if_neg notEnd, if_neg noComment,
        if_neg closed, inductionHypothesis _ ordinary.2]
      simp

/-- A semicolon ends a statement. -/
theorem parts_semicolon (before : List Piece) (rest : List Char) :
    parts dialect isBreak before (';' :: rest) =
      (parts dialect isBreak [] rest).map (statementOf before ++ ·) := by
  rw [parts, if_neg (by decide), if_pos rfl]

/-- A comment without line breaks goes on to the end of the text. -/
theorem parts_comment (before : List Piece) {text : List Char}
    (oneLine : ∀ character ∈ text, isBreak character = false) :
    parts dialect isBreak before ('-' :: '-' :: text) =
      some (.comment text :: statementOf before) := by
  have opened : ['-', '-'] <+: '-' :: '-' :: text := ⟨text, rfl⟩
  have all : text.all (!isBreak ·) = true := by simpa using oneLine
  have taken : text.takeWhile (!isBreak ·) = text :=
    List.takeWhile_eq_self_iff.2 fun character inside => List.all_eq_true.1 all character inside
  have dropped : text.dropWhile (!isBreak ·) = [] :=
    List.dropWhile_eq_nil_iff.2 fun character inside => List.all_eq_true.1 all character inside
  rw [parts, if_neg (by decide), if_neg (by decide), if_pos opened, List.drop_succ_cons,
    List.drop_zero, taken, dropped, parts]
  rfl

/-- The first statement is read up to its semicolon, and the comment behind it up to the end. -/
theorem parts_statement_comment {statement text : List Char}
    (ordinary : statement.all isOrdinary = true)
    (oneLine : ∀ character ∈ text, isBreak character = false) :
    parts dialect isBreak [] (statement ++ ';' :: ' ' :: '-' :: '-' :: text) =
      some (statementOf (statement.map .outside) ++ [.comment text]) := by
  have blank : parts dialect isBreak [] ([' '] ++ '-' :: '-' :: text) =
      parts dialect isBreak [.outside ' '] ('-' :: '-' :: text) :=
    parts_ordinary dialect [] _ (by decide)
  rw [parts_ordinary dialect [] _ ordinary, parts_semicolon]
  change (parts dialect isBreak [] ([' '] ++ '-' :: '-' :: text)).map _ = _
  rw [blank, parts_comment dialect _ oneLine]
  rfl

end Sql

namespace DegradeReason

/-- The fallback statement has the same text in every dialect. -/
theorem text_fallback (dialect : Dialect) (reason : DegradeReason) :
    Sql.text dialect (Outcome.fallback reason) =
      "SELECT 1; -- " ++ Text.flatten reason.message := by
  rw [← String.toList_inj]
  simp [Sql.text, Outcome.fallback, Sql.Token.text, Sql.Word.text, Sql.Mark.text, Sql.space,
    Integer.text, String.join_cons]
  rfl

/-- An inert text shows a reason on one line, with a space for every control character of its
message, behind a statement without effect. A scanner for any of the dialects whose line breaks are
control characters reads one statement and one comment. -/
structure IsInert (reason : DegradeReason) (sql : String) : Prop where
  text : sql.toList = "SELECT 1; -- ".toList ++ reason.message.toList.map fun character =>
    if Text.isControl character then ' ' else character
  noControl : ∀ character ∈ sql.toList, Text.isControl character = false
  everywhere : ∀ dialect, Sql.text dialect (Outcome.fallback reason) = sql
  parts : ∀ (dialect : Dialect) (isBreak : Char → Bool),
    (∀ character, isBreak character = true → Text.isControl character = true) →
      Sql.parts dialect isBreak [] sql.toList =
        some [.statement ("SELECT 1".toList.map .outside),
          .comment (' ' :: (Text.flatten reason.message).toList)]

theorem toList_flatten (text : String) :
    (Text.flatten text).toList = text.toList.map Text.flattenControl := by
  rw [Text.flatten, String.toList_ofList]

/-- A flattened text has no control characters. -/
theorem isControl_of_mem_flatten {text : String} {character : Char}
    (inside : character ∈ (Text.flatten text).toList) : Text.isControl character = false := by
  rw [toList_flatten] at inside
  obtain ⟨original, _, rfl⟩ := List.mem_map.1 inside
  exact Text.isControl_flattenControl original

/-- The statement of every degraded outcome is inert. -/
theorem isInert_sql (reason : DegradeReason) :
    reason.IsInert (Outcome.degraded reason).sql := by
  have same (dialect : Dialect) : Sql.text dialect (Outcome.fallback reason) =
      (Outcome.degraded reason).sql :=
    (text_fallback dialect reason).trans (text_fallback .mysql reason).symm
  have characters : (Outcome.degraded reason).sql.toList =
      "SELECT 1; -- ".toList ++ (Text.flatten reason.message).toList := by
    rw [← same .mysql, text_fallback, String.toList_append]
  refine ⟨?_, ?_, same, ?_⟩
  · rw [characters, toList_flatten]
    rfl
  · intro character inside
    rw [characters, List.mem_append] at inside
    rcases inside with front | comment
    · have plain : "SELECT 1; -- ".toList.all (!Text.isControl ·) = true := by decide
      simpa using List.all_eq_true.1 plain character front
    · exact isControl_of_mem_flatten comment
  · intro dialect isBreak breaks
    have oneLine : ∀ character ∈ ' ' :: (Text.flatten reason.message).toList,
        isBreak character = false := by
      intro character inside
      have noControl : Text.isControl character = false := by
        rcases List.mem_cons.1 inside with rfl | message
        · decide
        · exact isControl_of_mem_flatten message
      -- A break would be a control character, and those are flattened.
      rw [Bool.eq_false_iff]
      intro lineBreak
      rw [breaks character lineBreak] at noControl
      cases noControl
    have front : "SELECT 1; -- ".toList = "SELECT 1".toList ++ [';', ' ', '-', '-', ' '] := by simp
    have ordinary : "SELECT 1".toList.all Sql.isOrdinary = true := by decide
    rw [characters, front, List.append_assoc]
    exact Sql.parts_statement_comment dialect ordinary oneLine

/-- Whatever a document or a query holds, the statement of its degraded outcome is inert. -/
theorem isInert_compile (dialect : Dialect) (reason : DegradeReason) :
    (∀ document : Document, (document.compile dialect).value = .degraded reason →
      reason.IsInert (document.compile dialect).value.sql) ∧
      ∀ query : Query, (query.compile dialect).value = .degraded reason →
        reason.IsInert (query.compile dialect).value.sql := by
  constructor
  · intro document degraded
    rw [degraded]
    exact isInert_sql reason
  · intro query degraded
    rw [degraded]
    exact isInert_sql reason

/-- The operator of this document tries to leave the comment that it will stand in. -/
def hostile : Document :=
  { Document.empty with
    tables := ["t"]
    conditions := [⟨some "a", some "\r\nDROP\u0085;--", none, none⟩] }

/-- Line breaks in an operator do not end the comment. -/
theorem isInert_compile_hostile :
    (hostile.compile .postgres).value.sql =
        "SELECT 1; -- " ++ "Error generating SQL: Invalid operator '  DROP ;--' on column 'a'" ∧
      Sql.parts .postgres Text.isControl [] (hostile.compile .postgres).value.sql.toList =
        some [.statement ("SELECT 1".toList.map .outside), .comment (' ' ::
          "Error generating SQL: Invalid operator '  DROP ;--' on column 'a'".toList)] := by
  have degraded : (hostile.compile .postgres).value = .degraded (.uninterpretable
      (.operator "a" (some "\r\nDROP\u0085;--"))) := by decide
  have line : Text.flatten
      (message (.uninterpretable (.operator "a" (some "\r\nDROP\u0085;--")))) =
        "Error generating SQL: Invalid operator '  DROP ;--' on column 'a'" := by decide
  have inert := (isInert_compile .postgres _).1 hostile degraded
  have sql := (inert.everywhere .postgres).symm.trans (text_fallback .postgres _)
  have parts := inert.parts .postgres _ fun _ => id
  rw [line] at sql parts
  exact ⟨sql, parts⟩

end DegradeReason

end SemanticQuery
