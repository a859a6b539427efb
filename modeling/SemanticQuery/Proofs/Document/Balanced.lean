/-
This file gives the language of balanced spans. The search for a closing brace ends where such a
span ends, and it fails if there is none.
-/

import Mathlib.Data.List.Infix
import SemanticQuery.Document.Embedded

namespace SemanticQuery.Document

/-- The other characters have no effect outside of strings. -/
def isNeutral (character : Char) : Bool :=
  character != '"' && character != '{' && character != '}'

/-- Inside of a string, a backslash takes the next character with it, whatever that is. -/
inductive IsQuoted : List Char → Prop where
  | nil : IsQuoted []
  | plain {character : Char} {rest : List Char} (notQuote : character ≠ '"')
      (notEscape : character ≠ '\\') (quoted : IsQuoted rest) : IsQuoted (character :: rest)
  | escape {character : Char} {rest : List Char} (quoted : IsQuoted rest) :
      IsQuoted ('\\' :: character :: rest)

/-- Between braces stand neutral characters, strings and other braces that are balanced. -/
inductive IsInside : List Char → Prop where
  | nil : IsInside []
  | neutral {character : Char} {rest : List Char} (neutral : isNeutral character = true)
      (inside : IsInside rest) : IsInside (character :: rest)
  | string {content rest : List Char} (quoted : IsQuoted content) (inside : IsInside rest) :
      IsInside ('"' :: (content ++ '"' :: rest))
  | nested {inner rest : List Char} (nested : IsInside inner) (inside : IsInside rest) :
      IsInside ('{' :: (inner ++ '}' :: rest))

/-- A span starts with the brace that its end closes. -/
inductive IsSpan : List Char → Prop where
  | braces {inner : List Char} (inside : IsInside inner) : IsSpan ('{' :: (inner ++ ['}']))

theorem isNeutral_iff {character : Char} :
    isNeutral character = true ↔ character ≠ '"' ∧ character ≠ '{' ∧ character ≠ '}' := by
  simp [isNeutral, and_assoc]

namespace IsInside

variable {first second text : List Char}

theorem append (before : IsInside first) (after : IsInside second) :
    IsInside (first ++ second) := by
  induction before with
  | nil => exact after
  | neutral neutral _ inductionHypothesis => exact .neutral neutral inductionHypothesis
  | string quoted _ inductionHypothesis =>
      rw [List.cons_append, List.append_assoc, List.cons_append]
      exact .string quoted inductionHypothesis
  | nested nested _ _ inductionHypothesis =>
      rw [List.cons_append, List.append_assoc, List.cons_append]
      exact .nested nested inductionHypothesis

theorem of_neutral (neutral : text.all isNeutral = true) : IsInside text := by
  induction text with
  | nil => exact .nil
  | cons character text inductionHypothesis =>
      rw [List.all_cons, Bool.and_eq_true] at neutral
      exact .neutral neutral.1 (inductionHypothesis neutral.2)

theorem of_quoted (quoted : IsQuoted text) : IsInside ('"' :: (text ++ ['"'])) :=
  .string quoted .nil

theorem braces (inside : IsInside text) : IsInside ('{' :: (text ++ ['}'])) := .nested inside .nil

end IsInside

/-- A string is passed up to its closing quote. -/
theorem balanced_quoted {content : List Char} (quoted : IsQuoted content) (depth : Nat)
    (rest : List Char) :
    balanced depth .inside (content ++ '"' :: rest) =
      (balanced depth .outside rest).map (content ++ '"' :: ·) := by
  induction quoted with
  | nil => rfl
  | plain notQuote notEscape _ inductionHypothesis =>
      simp only [List.cons_append, balanced, if_neg notQuote, if_neg notEscape]
      rw [inductionHypothesis, Option.map_map]
      rfl
  | @escape character after _ inductionHypothesis =>
      have taken : balanced depth .inside ('\\' :: character :: (after ++ '"' :: rest)) =
          ((balanced depth .inside (after ++ '"' :: rest)).map (character :: ·)).map ('\\' :: ·) :=
        rfl
      rw [List.cons_append, List.cons_append, taken, inductionHypothesis, Option.map_map,
        Option.map_map]
      rfl

theorem balanced_neutral (depth : Nat) {character : Char} (rest : List Char)
    (neutral : isNeutral character = true) :
    balanced depth .outside (character :: rest) =
      (balanced depth .outside rest).map (character :: ·) := by
  obtain ⟨notQuote, notOpen, notClose⟩ := isNeutral_iff.1 neutral
  simp only [balanced, if_neg notQuote, if_neg notOpen, if_neg notClose]

/-- What stands between braces leaves the depth as it was, and the search goes on behind it. -/
theorem IsInside.balanced_append {text : List Char} (inside : IsInside text) (depth : Nat)
    (rest : List Char) :
    balanced (depth + 1) .outside (text ++ rest) =
      (balanced (depth + 1) .outside rest).map (text ++ ·) := by
  induction inside generalizing depth rest with
  | nil => simp
  | neutral neutral _ inductionHypothesis =>
      rw [List.cons_append, balanced_neutral _ _ neutral, inductionHypothesis, Option.map_map]
      rfl
  | @string content after quoted _ inductionHypothesis =>
      have opened (text : List Char) : balanced (depth + 1) .outside ('"' :: text) =
          (balanced (depth + 1) .inside text).map ('"' :: ·) := rfl
      rw [List.cons_append, List.append_assoc, List.cons_append, opened, balanced_quoted quoted,
        inductionHypothesis, Option.map_map, Option.map_map]
      simp [Function.comp_def]
  | @nested inner after _ _ first second =>
      have opened (text : List Char) : balanced (depth + 1) .outside ('{' :: text) =
          (balanced (depth + 2) .outside text).map ('{' :: ·) := rfl
      have closed (text : List Char) : balanced (depth + 2) .outside ('}' :: text) =
          (balanced (depth + 1) .outside text).map ('}' :: ·) := rfl
      rw [List.cons_append, List.append_assoc, List.cons_append, opened, first, closed, second,
        Option.map_map, Option.map_map, Option.map_map]
      simp [Function.comp_def]

/-- The rest of a span closes all open braces. So many are open around the innermost one. -/
inductive Closes : Nat → List Char → Prop where
  | last {inner : List Char} (inside : IsInside inner) : Closes 0 (inner ++ ['}'])
  | next {depth : Nat} {inner rest : List Char} (inside : IsInside inner)
      (closes : Closes depth rest) : Closes (depth + 1) (inner ++ '}' :: rest)

namespace Closes

variable {depth : Nat} {span : List Char}

theorem append {front : List Char} (inside : IsInside front) (closes : Closes depth span) :
    Closes depth (front ++ span) := by
  cases closes with
  | last inner =>
      rw [← List.append_assoc]
      exact .last (inside.append inner)
  | next inner closes =>
      rw [← List.append_assoc]
      exact .next (inside.append inner) closes

/-- One more brace is closed first. -/
theorem opened (closes : Closes (depth + 1) span) : Closes depth ('{' :: span) := by
  cases closes with
  | next inside closes => simpa using closes.append inside.braces

theorem quoted {content : List Char} (quoted : IsQuoted content) (closes : Closes depth span) :
    Closes depth ('"' :: (content ++ '"' :: span)) := by
  simpa using closes.append (.of_quoted quoted)

end Closes

/-- Inside of a string, the rest of that string comes first. -/
def ClosesFrom (depth : Nat) : Place → List Char → Prop
  | .outside, span => Closes depth span
  | .inside, span =>
      ∃ content rest, IsQuoted content ∧ Closes depth rest ∧ span = content ++ '"' :: rest
  | .escaped, span =>
      ∃ character content rest, IsQuoted content ∧ Closes depth rest ∧
        span = character :: (content ++ '"' :: rest)

/-- A character in front of what is found is in front of the text as well. -/
theorem prefix_of_map_cons {found : Option (List Char)} {character : Char} {text span : List Char}
    {ends : List Char → Prop} (sound : ∀ tail, found = some tail → tail <+: text ∧ ends tail)
    (mapped : found.map (character :: ·) = some span) :
    ∃ tail, span = character :: tail ∧ span <+: character :: text ∧ ends tail := by
  obtain ⟨tail, same, rfl⟩ := Option.map_eq_some_iff.1 mapped
  obtain ⟨front, closes⟩ := sound tail same
  exact ⟨tail, rfl, (List.prefix_cons_inj character).2 front, closes⟩

/-- The search gives back the text up to the brace that closes the outermost one, by induction on
the text. -/
theorem balanced_sound {depth : Nat} {place : Place} {text span : List Char}
    (found : balanced (depth + 1) place text = some span) :
    span <+: text ∧ ClosesFrom depth place span := by
  induction text generalizing depth place span with
  | nil => cases place <;> cases found
  | cons character text inductionHypothesis =>
      cases place with
      | escaped =>
          obtain ⟨_, rfl, front, content, rest, quoted, closes, rfl⟩ :=
            prefix_of_map_cons (fun _ => inductionHypothesis) found
          exact ⟨front, character, content, rest, quoted, closes, rfl⟩
      | inside =>
          obtain ⟨tail, rfl, front, ends⟩ := prefix_of_map_cons (fun _ => inductionHypothesis) found
          refine ⟨front, ?_⟩
          split_ifs at ends with escape quote
          · subst escape
            obtain ⟨next, content, rest, quoted, closes, rfl⟩ := ends
            exact ⟨'\\' :: next :: content, rest, .escape quoted, closes, rfl⟩
          · subst quote
            exact ⟨[], tail, .nil, ends, rfl⟩
          · obtain ⟨content, rest, quoted, closes, rfl⟩ := ends
            exact ⟨character :: content, rest, .plain quote escape quoted, closes, rfl⟩
      | outside =>
          simp only [balanced] at found
          split_ifs at found with quote opening closing
          · subst quote
            obtain ⟨_, rfl, front, content, rest, quoted, closes, rfl⟩ :=
              prefix_of_map_cons (fun _ => inductionHypothesis) found
            exact ⟨front, closes.quoted quoted⟩
          · subst opening
            obtain ⟨_, rfl, front, closes⟩ :=
              prefix_of_map_cons (fun _ => inductionHypothesis) found
            exact ⟨front, closes.opened⟩
          · subst closing
            -- The span ends with the outermost brace only, and all others lower the depth.
            cases depth with
            | zero =>
                cases found
                exact ⟨⟨text, rfl⟩, .last .nil⟩
            | succ depth =>
                obtain ⟨_, rfl, front, closes⟩ :=
                  prefix_of_map_cons (fun _ => inductionHypothesis) found
                exact ⟨front, .next .nil closes⟩
          · have neutral : isNeutral character = true := isNeutral_iff.2 ⟨quote, opening, closing⟩
            obtain ⟨_, rfl, front, closes⟩ :=
              prefix_of_map_cons (fun _ => inductionHypothesis) found
            exact ⟨front, closes.append (.neutral neutral .nil)⟩

/-- Behind an opening brace, the search finds the rest of the span that starts there. -/
theorem balanced_eq_some_iff {text rest : List Char} :
    balanced 1 .outside text = some rest ↔ IsSpan ('{' :: rest) ∧ rest <+: text := by
  constructor
  · intro found
    obtain ⟨front, closes⟩ := balanced_sound found
    cases closes with
    | last inside => exact ⟨.braces inside, front⟩
  · rintro ⟨⟨inside⟩, after, rfl⟩
    rw [List.append_assoc, inside.balanced_append]
    simp [balanced]

namespace IsSpan

variable {first second text : List Char}

/-- Only one span starts at the start of a text. -/
theorem unique (one : IsSpan first) (other : IsSpan second) (front : first <+: text)
    (otherFront : second <+: text) : first = second := by
  cases one with
  | @braces inner inside =>
    cases other with
    | @braces otherInner otherInside =>
      obtain ⟨rest, rfl⟩ := front
      rw [List.cons_append, List.prefix_cons_inj] at otherFront
      have found := balanced_eq_some_iff.2 ⟨.braces inside, List.prefix_append _ rest⟩
      have otherFound := balanced_eq_some_iff.2 ⟨.braces otherInside, otherFront⟩
      exact congrArg ('{' :: ·) (Option.some.inj (found.symm.trans otherFound))

end IsSpan

end SemanticQuery.Document
