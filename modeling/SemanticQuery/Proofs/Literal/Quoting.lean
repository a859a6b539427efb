/-
This file shows that a quoted text is one literal in front of any other text. A literal with escapes
ends at the same quote for a reader that knows no escapes.
-/

import SemanticQuery.Proofs.Statement.Dialects

namespace SemanticQuery.Sql

/-- A literal starts with a quote. Its text comes with what follows the closing quote. -/
def takeLiteral (escapes : Bool) : List Char → Option (List Char × List Char)
  | '\'' :: rest => readLiteral escapes rest
  | _ => none

/-- A text is read back when exactly those characters were doubled that the reader takes for
special ones. -/
theorem takeLiteral_quoteWith {escapes : Bool} {special : Char → Bool}
    (specials : ∀ character, special character =
      (character == '\'' || (escapes && character == '\\')))
    (text : List Char) {suffix : List Char} (ends : suffix.head? ≠ some '\'') :
    takeLiteral escapes (quoteWith special text ++ suffix) = some (text, suffix) := by
  simp only [quoteWith, List.cons_append, List.append_assoc]
  exact readLiteral_doubled specials ends text

/-- Backslashes are doubled first and quotes after them. Neither step touches what the other one
has written. -/
theorem quoteBackslash_eq_quoteStandard (text : List Char) :
    quoteBackslash text = quoteStandard (doubleBackslashes text) := by
  rw [quoteBackslash, quoteStandard, quoteWith, quoteWith, doubleBackslashes, List.flatMap_assoc]
  congr 2
  refine List.flatMap_congr fun character _ => ?_
  by_cases backslash : character = '\\'
  · subst backslash
    rfl
  · simp [backslash]

/-- A quoted text is read back by the reader that it is meant for, and nothing of the text behind it
is taken. A reader without escapes stops at the same quote of a literal with escapes, and finds all
backslashes doubled. So nothing escapes from a literal of MySQL, whether the server knows escapes or
not. -/
theorem takeLiteral_quoted (text : List Char) {suffix : List Char}
    (ends : suffix.head? ≠ some '\'') :
    takeLiteral false (quoteStandard text ++ suffix) = some (text, suffix) ∧
      takeLiteral true (quoteBackslash text ++ suffix) = some (text, suffix) ∧
      takeLiteral false (quoteBackslash text ++ suffix) =
        some (doubleBackslashes text, suffix) ∧
      ∀ escapes, (takeLiteral escapes (Dialect.mysql.quote text ++ suffix)).map Prod.snd =
        some suffix := by
  have standard (text : List Char) :
      takeLiteral false (quoteStandard text ++ suffix) = some (text, suffix) :=
    takeLiteral_quoteWith (by simp) text ends
  have escaped : takeLiteral true (quoteBackslash text ++ suffix) = some (text, suffix) :=
    takeLiteral_quoteWith (by simp) text ends
  have unescaped : takeLiteral false (quoteBackslash text ++ suffix) =
      some (doubleBackslashes text, suffix) := by
    rw [quoteBackslash_eq_quoteStandard]
    exact standard (doubleBackslashes text)
  refine ⟨standard text, escaped, unescaped, fun escapes => ?_⟩
  cases escapes with
  | false => exact congrArg (Option.map Prod.snd) unescaped
  | true => exact congrArg (Option.map Prod.snd) escaped

/-- Three backslashes and a quote do not end the literal in front of a comment. -/
theorem takeLiteral_quoted_backslashes :
    takeLiteral true (quoteBackslash "\\\\\\' OR 1=1".toList ++ " -- '".toList) =
        some ("\\\\\\' OR 1=1".toList, " -- '".toList) ∧
      takeLiteral false (quoteBackslash "\\\\\\' OR 1=1".toList ++ " -- '".toList) =
        some ("\\\\\\\\\\\\' OR 1=1".toList, " -- '".toList) := by
  have ends : " -- '".toList.head? ≠ some '\'' := by decide
  obtain ⟨_, escaped, unescaped, _⟩ := takeLiteral_quoted "\\\\\\' OR 1=1".toList ends
  exact ⟨escaped, unescaped⟩

end SemanticQuery.Sql
