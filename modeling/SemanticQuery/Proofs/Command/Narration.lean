/-
This file says how the text of a summary is laid out in lines. The statement is all that stands
between the fences, and a name or a reason with a line break is all that can add another fence.
-/

import Mathlib.Tactic.Common
import SemanticQuery.Summary

namespace SemanticQuery

/-- The lines of a text stand between its line breaks. -/
def linesOf (text : String) : List String := (text.toList.splitOn '\n').map String.ofList

theorem linesOf_append_lineBreak (first second : String) :
    linesOf (first ++ "\n" ++ second) = linesOf first ++ linesOf second := by
  have chars : (first ++ "\n" ++ second).toList = first.toList ++ '\n' :: second.toList := by simp
  rw [linesOf, chars, List.splitOn_append_cons_self, List.map_append]
  rfl

theorem linesOf_intercalate {parts : List String} (some : parts ≠ []) :
    linesOf ("\n".intercalate parts) = parts.flatMap linesOf := by
  induction parts with
  | nil => exact absurd rfl some
  | cons part parts inductionHypothesis =>
      cases parts with
      | nil => simp
      | cons next parts =>
          rw [String.intercalate_cons_cons, linesOf_append_lineBreak,
            inductionHypothesis (List.cons_ne_nil _ _)]
          exact List.flatMap_cons.symm

theorem linesOf_eq_singleton {text : String} (single : '\n' ∉ text.toList) :
    linesOf text = [text] := by
  rw [linesOf, List.splitOn_eq_singleton single, List.map_singleton, String.ofList_toList]

namespace Summary

/-- A fence starts with three backticks. -/
def IsFence (line : String) : Prop := "```".toList <+: line.toList

/-- These texts stand in front of the fenced block. -/
def heading (summary : Summary) : List String :=
  ["Semantic query:",
    "- Tables: " ++ listText "none specified" summary.tables,
    "- Columns: " ++ listText "all columns" summary.columns] ++
  countLine "Conditions" summary.conditions ++
  countLine "Aggregations" summary.aggregations ++
  countLine "Joins" summary.joins ++
  ["", "SQL (" ++ summary.dialect.name ++ "):"]

/-- These texts stand behind it. -/
def note (summary : Summary) : List String :=
  match summary.outcome.reason? with
  | none => []
  | some reason => ["", "Note: " ++ reason.message]

/-- The statement is all that stands in the fenced block. -/
theorem lines_eq (summary : Summary) :
    summary.lines = summary.heading ++ ["```sql", summary.outcome.sql, "```"] ++ summary.note := by
  rw [lines, heading, note]
  cases summary.outcome.reason? <;> simp

theorem not_isFence_countLine (name : String) (count : Nat) :
    ∀ line ∈ countLine name count, ¬IsFence line := by
  unfold countLine
  split
  · exact List.forall_mem_nil _
  · exact List.forall_mem_singleton.2 (by simp [IsFence])

/-- No other text starts with a fence. -/
theorem not_isFence_of_mem (summary : Summary) :
    ∀ line ∈ summary.heading ++ summary.note, ¬IsFence line := by
  have front : ∀ line ∈ summary.heading, ¬IsFence line := by
    simp only [heading, List.forall_mem_append]
    refine ⟨⟨⟨⟨?_, not_isFence_countLine _ _⟩, not_isFence_countLine _ _⟩,
      not_isFence_countLine _ _⟩, ?_⟩
    · simp [IsFence]
    · simp [IsFence]
  have back : ∀ line ∈ summary.note, ¬IsFence line := by
    unfold note
    split
    · exact List.forall_mem_nil _
    · simp [IsFence]
  exact List.forall_mem_append.2 ⟨front, back⟩

/-- The statement of a summary is printed in the fenced block. The lines of the output are those of
the texts around the block, those of the statement, and the two fences. No text around the block
starts with a fence. -/
structure IsPrintedAs (summary : Summary) (output : String) : Prop where
  text : output = "\n".intercalate
    (summary.heading ++ ["```sql", summary.outcome.sql, "```"] ++ summary.note) ++ "\n"
  lines : linesOf output = summary.heading.flatMap linesOf ++
    (["```sql"] ++ linesOf summary.outcome.sql ++ ["```"]) ++ summary.note.flatMap linesOf ++ [""]
  starts : ∀ text ∈ summary.heading ++ summary.note, ¬IsFence text
  fences : (∀ text ∈ summary.heading ++ summary.note, '\n' ∉ text.toList) →
    ∀ line ∈ (summary.heading ++ summary.note).flatMap linesOf, ¬IsFence line

theorem isPrintedAs_text (summary : Summary) : summary.IsPrintedAs (summary.text ++ "\n") where
  text := by rw [text, lines_eq]
  lines := by
    have opening : linesOf "```sql" = ["```sql"] := linesOf_eq_singleton (by decide)
    have closing : linesOf "```" = ["```"] := linesOf_eq_singleton (by decide)
    have ending : linesOf "" = [""] := linesOf_eq_singleton (by decide)
    have ended : linesOf (summary.text ++ "\n") = linesOf summary.text ++ [""] := by
      rw [← ending, ← linesOf_append_lineBreak, String.append_empty]
    rw [ended, text, lines_eq, linesOf_intercalate (by simp)]
    simp [opening, closing]
  starts := summary.not_isFence_of_mem
  fences single line inside := by
    obtain ⟨part, found, isLine⟩ := List.mem_flatMap.1 inside
    rw [linesOf_eq_singleton (single part found), List.mem_singleton] at isLine
    exact isLine ▸ summary.not_isFence_of_mem part found

end Summary

end SemanticQuery
