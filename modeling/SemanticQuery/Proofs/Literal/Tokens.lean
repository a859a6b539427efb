/-
This file scans the tokens of a statement. Separators keep all other tokens apart, so every token
is scanned by itself.
-/

import Mathlib.Data.List.Chain
import SemanticQuery.Proofs.Literal.Number
import SemanticQuery.Sql.Token

namespace SemanticQuery.Sql

namespace Token

/-- These marks cannot run together with any other token. -/
def isSeparator : Token → Bool
  | .mark .space => true
  | .mark .comma => true
  | .mark .openParenthesis => true
  | .mark .closeParenthesis => true
  | _ => false

/-- A fragment is harmless when it is plain, and a comment never is. -/
def IsHarmless : Token → Prop
  | .fragment content => IsPlain content.toList
  | .comment _ => False
  | _ => True

/-- A string is one literal. The text of any other token is outside of the literals. -/
def pieces (dialect : Dialect) : Token → List Piece
  | .string value => [.literal value]
  | token => (token.text dialect).toList.map .outside

/-- The tokens that are strings have values. -/
def string? : Token → Option String
  | .string value => some value
  | _ => none

theorem isPlain_word (word : Word) : IsPlain word.text.toList := by
  cases word <;> decide

theorem isPlain_mark (mark : Mark) : IsPlain mark.text.toList := by
  cases mark <;> decide

theorem isPlain_boolean (dialect : Dialect) (value : Bool) :
    IsPlain (dialect.boolean value).toList := by
  cases dialect <;> cases value <;> decide

theorem isPlain_null (dialect : Dialect) : IsPlain dialect.null.toList := by
  cases dialect <;> decide

/-- Every harmless token but a string has a plain text. -/
theorem isPlain_text (dialect : Dialect) {token : Token} (harmless : token.IsHarmless)
    (noString : token.string? = none) : IsPlain (token.text dialect).toList := by
  cases token with
  | word word => exact isPlain_word word
  | mark mark => exact isPlain_mark mark
  | integer value => exact isPlain_toString value.value
  | float value => exact isPlain_literal value
  | string value => cases noString
  | boolean value => exact isPlain_boolean dialect value
  | null => exact isPlain_null dialect
  | comment content => exact harmless.elim
  | fragment content => exact harmless

/-- Every token but a string is outside of the literals. -/
theorem pieces_of_string?_eq_none (dialect : Dialect) {token : Token}
    (noString : token.string? = none) :
    token.pieces dialect = (token.text dialect).toList.map .outside := by
  cases token with
  | string value => cases noString
  | _ => rfl

/-- The text of a separator is one of these characters. -/
theorem text_of_isSeparator (dialect : Dialect) {token : Token} (separator : token.isSeparator) :
    ∃ character ∈ [' ', ',', '(', ')'], (token.text dialect).toList = [character] := by
  unfold isSeparator at separator
  split at separator
  · exact ⟨' ', by decide, by simp [text, Mark.text]⟩
  · exact ⟨',', by decide, by simp [text, Mark.text]⟩
  · exact ⟨'(', by decide, by simp [text, Mark.text]⟩
  · exact ⟨')', by decide, by simp [text, Mark.text]⟩
  · cases separator

theorem string?_of_isSeparator {token : Token} (separator : token.isSeparator) :
    token.string? = none := by
  cases token with
  | string value => cases separator
  | _ => rfl

end Token

/-- A separator is scanned whatever follows it. -/
theorem scan_separator (dialect : Dialect) {token : Token} (separator : token.isSeparator)
    (rest : List Char) :
    scan dialect ((token.text dialect).toList ++ rest) =
      (scan dialect rest).map (token.pieces dialect ++ ·) := by
  obtain ⟨character, neutral, text⟩ := token.text_of_isSeparator dialect separator
  have different (other : Char) (notSeparator : other ∉ [' ', ',', '(', ')']) :
      character ≠ other := fun same => notSeparator (same ▸ neutral)
  have notQuote := different '\'' (by decide)
  have allowed : character ∉ ['"', '`', '\\', '#'] := by
    simp only [List.mem_cons, List.not_mem_nil, or_false, not_or]
    exact ⟨different '"' (by decide), different '`' (by decide), different '\\' (by decide),
      different '#' (by decide)⟩
  have closed : ¬OpensOther character rest := by
    intro opens
    rcases opens with special | line | block
    · exact allowed special
    · exact different '-' (by decide) (List.cons_prefix_cons.1 line).1.symm
    · exact different '/' (by decide) (List.cons_prefix_cons.1 block).1.symm
  rw [token.pieces_of_string?_eq_none dialect (token.string?_of_isSeparator separator), text,
    List.singleton_append, scan_cons_outside dialect notQuote closed]
  rfl

/-- Any other harmless token is scanned when a separator or nothing follows it. -/
theorem scan_token (dialect : Dialect) {token : Token} (harmless : token.IsHarmless)
    {rest : List Char} (separated : ∀ next ∈ rest.head?, next ∈ [' ', ',', '(', ')']) :
    scan dialect ((token.text dialect).toList ++ rest) =
      (scan dialect rest).map (token.pieces dialect ++ ·) := by
  have different (other : Char) (notSeparator : other ∉ [' ', ',', '(', ')']) :
      rest.head? ≠ some other := fun same => notSeparator (separated other same)
  cases string : token.string? with
  | none =>
      rw [token.pieces_of_string?_eq_none dialect string]
      exact scan_plain dialect (token.isPlain_text dialect harmless string)
        (different '-' (by decide)) (different '*' (by decide))
  | some value =>
      cases token <;> cases string
      rw [Token.text, Dialect.literal, String.toList_ofList]
      exact scan_quote dialect value (different '\'' (by decide))

/-- The tokens of a readable statement are harmless, and one of two neighbours is a separator. -/
structure Readable (tokens : List Token) : Prop where
  harmless : ∀ token ∈ tokens, token.IsHarmless
  separated : tokens.IsChain fun first second => first.isSeparator ∨ second.isSeparator

theorem text_cons (dialect : Dialect) (token : Token) (tokens : List Token) :
    (text dialect (token :: tokens)).toList =
      (token.text dialect).toList ++ (text dialect tokens).toList := by
  simp [text, String.join_cons]

/-- The text of the tokens behind a token starts with a separator, or that token is one. -/
theorem head?_text_of_isChain (dialect : Dialect) {token : Token} {tokens : List Token}
    (separated : (token :: tokens).IsChain fun first second =>
      first.isSeparator ∨ second.isSeparator) (other : token.isSeparator = false) :
    ∀ next ∈ (text dialect tokens).toList.head?, next ∈ [' ', ',', '(', ')'] := by
  cases tokens with
  | nil => simp [text]
  | cons second tokens =>
      rcases (List.isChain_cons_cons.1 separated).1 with first | separator
      · exact absurd (other.symm.trans first) Bool.false_ne_true
      · obtain ⟨character, neutral, same⟩ := second.text_of_isSeparator dialect separator
        rw [text_cons, same]
        intro next found
        cases found
        exact neutral

/-- The tokens of a readable statement are scanned one by one. -/
theorem scan_text (dialect : Dialect) {tokens : List Token} (readable : Readable tokens) :
    scan dialect (text dialect tokens).toList = some (tokens.flatMap (Token.pieces dialect)) := by
  obtain ⟨harmless, separated⟩ := readable
  induction tokens with
  | nil => simp [text, scan]
  | cons token tokens inductionHypothesis =>
      have tail := inductionHypothesis
        (fun other inside => harmless other (List.mem_cons_of_mem _ inside)) separated.tail
      have first : scan dialect ((token.text dialect).toList ++ (text dialect tokens).toList) =
          (scan dialect (text dialect tokens).toList).map (token.pieces dialect ++ ·) := by
        cases separator : token.isSeparator with
        | true => exact scan_separator dialect separator _
        | false =>
            exact scan_token dialect (harmless token List.mem_cons_self)
              (head?_text_of_isChain dialect separated separator)
      rw [text_cons, first, tail]
      rfl

end SemanticQuery.Sql
