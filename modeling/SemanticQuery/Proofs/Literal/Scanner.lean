/-
This file scans statements for their string literals. A quoted text is scanned as that text, and
what follows the closing quote is left.
-/

import Mathlib.Data.List.Infix
import SemanticQuery.Sql.Dialect

namespace SemanticQuery

/-- A backslash takes the next character of a literal in MySQL only. -/
def Dialect.hasEscapes : Dialect → Bool
  | .mysql => true
  | .postgres => false
  | .duckdb => false

namespace Sql

/-- A character is put in front of a literal that was read. -/
def consLiteral (character : Char) (read : Option (List Char × List Char)) :
    Option (List Char × List Char) :=
  read.map fun pair => (character :: pair.1, pair.2)

/-- The reading starts behind the opening quote, and a quote that is written twice belongs to the
literal. The text of the literal comes with the text after it, if the literal ends at all. -/
def readLiteral (escapes : Bool) : List Char → Option (List Char × List Char)
  | [] => none
  | '\'' :: '\'' :: rest => consLiteral '\'' (readLiteral escapes rest)
  | '\'' :: rest => some ([], rest)
  | '\\' :: next :: rest =>
      if escapes then consLiteral next (readLiteral escapes rest)
      else consLiteral '\\' (readLiteral escapes (next :: rest))
  | character :: rest => consLiteral character (readLiteral escapes rest)

theorem consLiteral_eq_some {character : Char} {read : Option (List Char × List Char)}
    {literal rest : List Char} (found : consLiteral character read = some (literal, rest)) :
    ∃ tail, read = some (tail, rest) := by
  obtain ⟨pair, inner, same⟩ := Option.map_eq_some_iff.1 found
  cases same
  exact ⟨pair.1, inner⟩

theorem length_readLiteral_lt {escapes : Bool} {text literal rest : List Char}
    (read : readLiteral escapes text = some (literal, rest)) : rest.length < text.length := by
  fun_induction readLiteral escapes text generalizing literal with
  | case1 => cases read
  | case2 after inductionHypothesis =>
      obtain ⟨tail, inner⟩ := consLiteral_eq_some read
      exact Nat.lt_succ_of_lt (Nat.lt_succ_of_lt (inductionHypothesis inner))
  | case3 after =>
      cases read
      exact Nat.lt_succ_self _
  | case4 next after escaped inductionHypothesis =>
      obtain ⟨tail, inner⟩ := consLiteral_eq_some read
      exact Nat.lt_succ_of_lt (Nat.lt_succ_of_lt (inductionHypothesis inner))
  | case5 next after plain inductionHypothesis =>
      obtain ⟨tail, inner⟩ := consLiteral_eq_some read
      exact Nat.lt_succ_of_lt (inductionHypothesis inner)
  | case6 character after _ _ _ inductionHypothesis =>
      obtain ⟨tail, inner⟩ := consLiteral_eq_some read
      exact Nat.lt_succ_of_lt (inductionHypothesis inner)

/-- A character that is neither a quote nor an escape stands for itself. -/
theorem readLiteral_cons {escapes : Bool} {character : Char} (rest : List Char)
    (notQuote : character ≠ '\'') (notEscape : escapes = true → character ≠ '\\') :
    readLiteral escapes (character :: rest) = consLiteral character (readLiteral escapes rest) := by
  rw [readLiteral.eq_def]
  split <;> simp_all

/-- A quote that is not written twice ends the literal. -/
theorem readLiteral_quote_cons {escapes : Bool} {rest : List Char}
    (ends : rest.head? ≠ some '\'') : readLiteral escapes ('\'' :: rest) = some ([], rest) := by
  cases rest with
  | nil => rfl
  | cons next rest =>
      have different : next ≠ '\'' := by simpa using ends
      simp [readLiteral, different]

/-- Every special character of a quoted text is read once, up to the closing quote. -/
theorem readLiteral_doubled {escapes : Bool} {special : Char → Bool}
    (specials : ∀ character, special character =
      (character == '\'' || (escapes && character == '\\')))
    {rest : List Char} (ends : rest.head? ≠ some '\'') (text : List Char) :
    readLiteral escapes (text.flatMap (fun character =>
      if special character then [character, character] else [character]) ++ '\'' :: rest) =
        some (text, rest) := by
  induction text with
  | nil => exact readLiteral_quote_cons ends
  | cons character text inductionHypothesis =>
      rw [List.flatMap_cons, List.append_assoc]
      by_cases quote : character = '\''
      · have doubled : special character = true := by simp [specials, quote]
        subst quote
        rw [if_pos doubled]
        simp only [List.cons_append, List.nil_append, readLiteral, inductionHypothesis]
        rfl
      · by_cases escape : escapes = true ∧ character = '\\'
        · have doubled : special character = true := by simp [specials, escape]
          rw [if_pos doubled, escape.2]
          simp only [List.cons_append, List.nil_append, readLiteral, if_pos escape.1,
            inductionHypothesis]
          rfl
        · have single : special character = false := by
            simpa [specials, quote] using escape
          have taken : escapes = true → character ≠ '\\' := fun escaped same =>
            escape ⟨escaped, same⟩
          rw [if_neg (by simp [single]), List.singleton_append, readLiteral_cons _ quote taken,
            inductionHypothesis]
          rfl

/-- The dialect of a quoted text reads it back from behind the opening quote. -/
theorem readLiteral_quote (dialect : Dialect) (text : List Char) {rest : List Char}
    (ends : rest.head? ≠ some '\'') :
    ∃ body, dialect.quote text ++ rest = '\'' :: body ∧
      readLiteral dialect.hasEscapes body = some (text, rest) := by
  have opened (special : Char → Bool) : quoteWith special text ++ rest =
      '\'' :: (text.flatMap (fun character =>
        if special character then [character, character] else [character]) ++ '\'' :: rest) := by
    simp [quoteWith]
  cases dialect with
  | mysql => exact ⟨_, opened _, readLiteral_doubled (by simp [Dialect.hasEscapes]) ends text⟩
  | postgres => exact ⟨_, opened _, readLiteral_doubled (by simp [Dialect.hasEscapes]) ends text⟩
  | duckdb => exact ⟨_, opened _, readLiteral_doubled (by simp [Dialect.hasEscapes]) ends text⟩

/-- A scanned statement consists of its string literals and the characters outside of them. -/
inductive Piece where
  | outside (character : Char)
  | literal (text : String)
deriving DecidableEq

/-- The text outside of the literals keeps an empty place for each of them. -/
def Piece.outline : Piece → Option Char
  | .outside character => some character
  | .literal _ => none

/-- The literals of a scanned statement have their texts. -/
def Piece.text? : Piece → Option String
  | .outside _ => none
  | .literal text => some text

/-- A quoted name, an escape or a comment starts with these characters. -/
def OpensOther (first : Char) (rest : List Char) : Prop :=
  first ∈ ['"', '`', '\\', '#'] ∨ ['-', '-'] <+: first :: rest ∨ ['/', '*'] <+: first :: rest

instance (first : Char) (rest : List Char) : Decidable (OpensOther first rest) :=
  inferInstanceAs (Decidable (_ ∨ _ ∨ _))

/-- The scan knows string literals only. It gives up where anything else is opened, and when a
literal has no end. -/
def scan (dialect : Dialect) (text : List Char) : Option (List Piece) :=
  match text with
  | [] => some []
  | first :: rest =>
      if first = '\'' then
        match _found : readLiteral dialect.hasEscapes rest with
        | none => none
        | some (literal, after) => (scan dialect after).map (.literal (String.ofList literal) :: ·)
      else if OpensOther first rest then none
      else (scan dialect rest).map (.outside first :: ·)
termination_by text.length
decreasing_by
  · exact Nat.lt_succ_of_lt (length_readLiteral_lt _found)
  · exact Nat.lt_succ_self _

/-- Plain text has none of these characters, and it opens no comment. -/
structure IsPlain (text : List Char) : Prop where
  characters : ∀ character ∈ text, character ∉ ['\'', '"', '`', '\\', '#']
  noLineComment : ¬ ['-', '-'] <:+: text
  noBlockComment : ¬ ['/', '*'] <:+: text

instance (text : List Char) : Decidable (IsPlain text) :=
  have : Decidable (∀ character ∈ text, character ∉ ['\'', '"', '`', '\\', '#']) :=
    List.decidableBAll _ text
  decidable_of_iff (_ ∧ _ ∧ _)
    ⟨fun parts => ⟨parts.1, parts.2.1, parts.2.2⟩,
      fun plain => ⟨plain.characters, plain.noLineComment, plain.noBlockComment⟩⟩

theorem isPlain_nil : IsPlain [] := ⟨by simp, by simp, by simp⟩

/-- Nothing is opened at any character of a plain text. -/
theorem isPlain_cons_iff {first : Char} {rest : List Char} :
    IsPlain (first :: rest) ↔ first ≠ '\'' ∧ ¬OpensOther first rest ∧ IsPlain rest := by
  constructor
  · intro plainText
    obtain ⟨characters, noLine, noBlock⟩ := plainText
    rw [List.infix_cons_iff, not_or] at noLine noBlock
    have allowed := characters first List.mem_cons_self
    rw [List.mem_cons, not_or] at allowed
    refine ⟨allowed.1, ?_, fun character inside =>
      characters character (List.mem_cons_of_mem _ inside), noLine.2, noBlock.2⟩
    intro opens
    rcases opens with special | line | block
    · exact allowed.2 special
    · exact noLine.1 line
    · exact noBlock.1 block
  · intro parts
    obtain ⟨notQuote, closed, plain⟩ := parts
    simp only [OpensOther, not_or] at closed
    refine ⟨?_, ?_, ?_⟩
    · intro character inside
      rcases List.mem_cons.1 inside with rfl | later
      · exact List.not_mem_cons_of_ne_of_not_mem notQuote closed.1
      · exact plain.characters character later
    · rw [List.infix_cons_iff]
      exact not_or.2 ⟨closed.2.1, plain.noLineComment⟩
    · rw [List.infix_cons_iff]
      exact not_or.2 ⟨closed.2.2, plain.noBlockComment⟩

/-- A character can only be part of an opening together with the next one. -/
theorem not_opensOther_of_head? {first : Char} {rest : List Char}
    (allowed : first ∉ ['"', '`', '\\', '#'])
    (noLine : rest.head? ≠ some '-') (noBlock : rest.head? ≠ some '*') :
    ¬OpensOther first rest := by
  intro opens
  rcases opens with special | line | block
  · exact allowed special
  · obtain ⟨after, same⟩ := (List.cons_prefix_cons.1 line).2
    exact noLine (by simp [← same])
  · obtain ⟨after, same⟩ := (List.cons_prefix_cons.1 block).2
    exact noBlock (by simp [← same])

/-- The next character cannot be part of an opening that plain text did not complete. -/
theorem not_opensOther_append {first : Char} {text rest : List Char}
    (closed : ¬OpensOther first text) (allowed : first ∉ ['"', '`', '\\', '#'])
    (noLine : rest.head? ≠ some '-') (noBlock : rest.head? ≠ some '*') :
    ¬OpensOther first (text ++ rest) := by
  cases text with
  | nil => exact not_opensOther_of_head? allowed noLine noBlock
  | cons next text => simpa [OpensOther, List.cons_prefix_cons] using closed

/-- A literal that was read is one piece. -/
theorem scan_cons_quote {dialect : Dialect} {body literal rest : List Char}
    (read : readLiteral dialect.hasEscapes body = some (literal, rest)) :
    scan dialect ('\'' :: body) =
      (scan dialect rest).map (.literal (String.ofList literal) :: ·) := by
  rw [scan, if_pos rfl]
  split
  · next failed => cases failed.symm.trans read
  · next found =>
      cases found.symm.trans read
      rfl

/-- A character outside of the literals is one piece. -/
theorem scan_cons_outside (dialect : Dialect) {first : Char} {rest : List Char}
    (notQuote : first ≠ '\'') (closed : ¬OpensOther first rest) :
    scan dialect (first :: rest) = (scan dialect rest).map (.outside first :: ·) := by
  rw [scan, if_neg notQuote, if_neg closed]

/-- The literal of a text is scanned as that text. -/
theorem scan_quote (dialect : Dialect) (text : String) {rest : List Char}
    (ends : rest.head? ≠ some '\'') :
    scan dialect (dialect.quote text.toList ++ rest) =
      (scan dialect rest).map (.literal text :: ·) := by
  obtain ⟨body, opened, read⟩ := readLiteral_quote dialect text.toList ends
  rw [opened, scan_cons_quote read, String.ofList_toList]

/-- Plain text is scanned character by character, when what follows completes no opening. -/
theorem scan_plain (dialect : Dialect) {text rest : List Char} (plain : IsPlain text)
    (noLine : rest.head? ≠ some '-') (noBlock : rest.head? ≠ some '*') :
    scan dialect (text ++ rest) = (scan dialect rest).map (text.map .outside ++ ·) := by
  induction text with
  | nil => simp
  | cons first text inductionHypothesis =>
      obtain ⟨notQuote, closed, plainRest⟩ := isPlain_cons_iff.1 plain
      have allowed : first ∉ ['"', '`', '\\', '#'] := fun special => closed (.inl special)
      rw [List.cons_append, scan_cons_outside dialect notQuote
        (not_opensOther_append closed allowed noLine noBlock), inductionHypothesis plainRest,
        Option.map_map]
      rfl

end Sql

end SemanticQuery
