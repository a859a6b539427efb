/-
This file shows that rendered operands are readable. A separator stands between any two of their
literals, and the strings among these are the texts that an operand quotes.
-/

import SemanticQuery.Proofs.Literal.Tokens
import SemanticQuery.Proofs.Result
import SemanticQuery.Query.Basic
import SemanticQuery.Sql.Literal

namespace SemanticQuery

namespace Sql

theorem readable_nil : Readable [] := ⟨by simp, .nil⟩

theorem readable_singleton (token : Token) (harmless : token.IsHarmless) : Readable [token] :=
  ⟨by simpa using harmless, .singleton _⟩

theorem isHarmless_of_isSeparator {token : Token} (separator : token.isSeparator) :
    token.IsHarmless := by
  cases token with
  | comment content => cases separator
  | fragment content => cases separator
  | _ => trivial

/-- Readable parts may stand on both sides of a separator. -/
theorem Readable.append_separator {first second : List Token} (readable : Readable first)
    (after : Readable second) (separator : Token) (apart : separator.isSeparator) :
    Readable (first ++ separator :: second) := by
  have harmless := isHarmless_of_isSeparator apart
  refine ⟨List.forall_mem_append.2
    ⟨readable.harmless, List.forall_mem_cons.2 ⟨harmless, after.harmless⟩⟩, ?_⟩
  have behind : (separator :: second).IsChain fun left right =>
      left.isSeparator ∨ right.isSeparator :=
    List.isChain_cons.2 ⟨fun _ _ => .inl apart, after.separated⟩
  apply readable.separated.append behind
  intro left _ right found
  cases found
  exact .inr apart

/-- A separator stands in front of any readable part. -/
theorem Readable.cons_separator {tokens : List Token} (readable : Readable tokens)
    (separator : Token) (apart : separator.isSeparator) :
    Readable (separator :: tokens) :=
  readable_nil.append_separator readable separator apart

/-- A harmless token and a space stand in front of any readable part. -/
theorem Readable.cons_space {tokens : List Token} (readable : Readable tokens) (token : Token)
    (harmless : token.IsHarmless) : Readable (token :: space :: tokens) :=
  (readable_singleton token harmless).append_separator readable space rfl

/-- Readable items are readable together when their separator keeps readable parts apart. -/
theorem readable_intercalate {separator : List Token}
    (apart : ∀ first second, Readable first → Readable second →
      Readable (first ++ separator ++ second))
    {items : List (List Token)} (readable : ∀ item ∈ items, Readable item) :
    Readable (List.intercalate separator items) := by
  induction items with
  | nil => exact readable_nil
  | cons item items inductionHypothesis =>
      obtain ⟨first, later⟩ := List.forall_mem_cons.1 readable
      cases items with
      | nil => simpa using first
      | cons next items =>
          rw [List.intercalate_cons_cons]
          exact apart _ _ first (inductionHypothesis later)

theorem readable_spaced {items : List (List Token)} (readable : ∀ item ∈ items, Readable item) :
    Readable (List.intercalate [space] items) :=
  readable_intercalate (fun first second before after => by
    simpa using before.append_separator after space rfl) readable

theorem readable_commaSeparated {items : List (List Token)}
    (readable : ∀ item ∈ items, Readable item) : Readable (commaSeparated items) :=
  readable_intercalate (fun first second before after => by
    simpa using before.append_separator (after.cons_separator space rfl) (.mark .comma) rfl)
    readable

theorem readable_andSeparated {items : List (List Token)}
    (readable : ∀ item ∈ items, Readable item) : Readable (andSeparated items) :=
  readable_intercalate (fun first second before after => by
    simpa using before.append_separator (after.cons_space (.word .and) trivial) space rfl) readable

end Sql

/-- A string has its contents, and any other scalar has none. -/
def Scalar.strings : Scalar → List String
  | .string value => [value]
  | _ => []

/-- These texts are quoted when an operand is rendered: its strings, or the display of a list that
stands where one literal must stand. -/
def Operand.quotedTexts : Operator → Operand → List String
  | _, .scalar value => value.strings
  | .oneOf, .list items => items.flatMap Scalar.strings
  | .between, .list [low, high] => low.strings ++ high.strings
  | _, .list items => [(Operand.list items).display]

/-- A condition that is not rendered quotes nothing. -/
def Condition.quotedTexts (condition : Condition) : List String :=
  if condition.isRenderable then
    condition.operand.elim [] (Operand.quotedTexts condition.operator)
  else []

namespace Sql

/-- The strings of a token list are quoted in this order. -/
def strings (tokens : List Token) : List String := tokens.flatMap fun token => token.string?.toList

theorem strings_cons (token : Token) (tokens : List Token) :
    strings (token :: tokens) = token.string?.toList ++ strings tokens := List.flatMap_cons

theorem strings_append (first second : List Token) :
    strings (first ++ second) = strings first ++ strings second := List.flatMap_append

theorem strings_intercalate {separator : List Token} (none : strings separator = [])
    (items : List (List Token)) :
    strings (List.intercalate separator items) = items.flatMap strings := by
  induction items with
  | nil => rfl
  | cons item items inductionHypothesis =>
      cases items with
      | nil => simp
      | cons next items =>
          rw [List.intercalate_cons_cons, strings_append, strings_append, inductionHypothesis, none,
            List.append_nil]
          rfl

/-- A literal is harmless whatever its value is, and it quotes the scalar if that is a string. -/
theorem literal_eq_ok {value : Scalar} {token : Token} (rendered : literal value = .ok token) :
    token.IsHarmless ∧ token.string?.toList = value.strings := by
  cases value with
  | float value =>
      simp only [literal] at rendered
      split at rendered
      · cases rendered
        exact ⟨trivial, rfl⟩
      · cases rendered
  | _ =>
      cases rendered
      exact ⟨trivial, rfl⟩

theorem literals_eq_ok {items : List Scalar} {tokens : List Token}
    (rendered : literals items = .ok tokens) :
    (∀ token ∈ tokens, token.IsHarmless) ∧ strings tokens = items.flatMap Scalar.strings := by
  induction items generalizing tokens with
  | nil =>
      cases rendered
      exact ⟨by simp, rfl⟩
  | cons item items inductionHypothesis =>
      simp only [literals, bind_eq_ok_iff, pure_eq_ok_iff] at rendered
      obtain ⟨first, firstRendered, rest, restRendered, rfl⟩ := rendered
      have head := literal_eq_ok firstRendered
      have tail := inductionHypothesis restRendered
      refine ⟨List.forall_mem_cons.2 ⟨head.1, tail.1⟩, ?_⟩
      rw [strings_cons, head.2, tail.2, List.flatMap_cons]

/-- Harmless tokens in parentheses are readable. -/
theorem readable_parenthesized {tokens : List Token}
    (harmless : ∀ token ∈ tokens, token.IsHarmless) :
    Readable ([.mark .openParenthesis] ++ commaSeparated (tokens.map ([·])) ++
      [.mark .closeParenthesis]) := by
  have items : ∀ item ∈ tokens.map ([·]), Readable item := by
    intro item member
    obtain ⟨token, inside, rfl⟩ := List.mem_map.1 member
    exact readable_singleton token (harmless token inside)
  have closed := (readable_commaSeparated items).append_separator readable_nil
    (.mark .closeParenthesis) rfl
  simpa using closed.cons_separator (.mark .openParenthesis) rfl

theorem strings_parenthesized (tokens : List Token) :
    strings ([.mark .openParenthesis] ++ commaSeparated (tokens.map ([·])) ++
      [.mark .closeParenthesis]) = strings tokens := by
  have separator : strings [.mark .comma, space] = [] := rfl
  have first : strings [.mark .openParenthesis] = [] := rfl
  have last : strings [.mark .closeParenthesis] = [] := rfl
  rw [strings_append, strings_append, commaSeparated, strings_intercalate separator, first, last,
    List.flatMap_map, List.nil_append, List.append_nil]
  simp [strings]

/-- A list of literals is readable, and it quotes the strings among them. -/
theorem parenthesized_eq_ok {items : List Scalar} {tokens : List Token}
    (rendered : parenthesized items = .ok tokens) :
    Readable tokens ∧ strings tokens = items.flatMap Scalar.strings := by
  simp only [parenthesized, bind_eq_ok_iff, pure_eq_ok_iff] at rendered
  obtain ⟨inner, innerRendered, rfl⟩ := rendered
  have parts := literals_eq_ok innerRendered
  exact ⟨readable_parenthesized parts.1, (strings_parenthesized inner).trans parts.2⟩

/-- A range is readable, and it quotes the strings among its bounds. -/
theorem range_eq_ok {low high : Scalar} {tokens : List Token}
    (rendered : range low high = .ok tokens) :
    Readable tokens ∧ strings tokens = low.strings ++ high.strings := by
  simp only [range, bind_eq_ok_iff, pure_eq_ok_iff] at rendered
  obtain ⟨first, firstRendered, second, secondRendered, rfl⟩ := rendered
  have lower := literal_eq_ok firstRendered
  have upper := literal_eq_ok secondRendered
  constructor
  · exact ((readable_singleton _ upper.1).cons_space (.word .and) trivial).cons_space _ lower.1
  · rw [← lower.2, ← upper.2]
    simp [strings, space, Token.string?]

/-- A single literal is readable, and it quotes its string. -/
theorem single_eq_ok {value : Scalar} {tokens : List Token}
    (rendered : (literal value).map ([·]) = .ok tokens) :
    Readable tokens ∧ strings tokens = value.strings := by
  obtain ⟨token, tokenRendered, rfl⟩ := map_eq_ok_iff.1 rendered
  have parts := literal_eq_ok tokenRendered
  exact ⟨readable_singleton token parts.1, by rw [← parts.2]; simp [strings]⟩

/-- A rendered operand is readable, and it quotes the texts that it should. -/
theorem operand_eq_ok {operator : Operator} {operand : Operand} {tokens : List Token}
    (rendered : Sql.operand operator operand = .ok tokens) :
    Readable tokens ∧ strings tokens = operand.quotedTexts operator := by
  unfold Sql.operand at rendered
  split at rendered
  · exact parenthesized_eq_ok rendered
  · next value =>
      have parts := parenthesized_eq_ok rendered
      exact ⟨parts.1, parts.2.trans (by simp [Operand.quotedTexts])⟩
  · exact range_eq_ok rendered
  · next value _ =>
      have parts := single_eq_ok rendered
      exact ⟨parts.1, parts.2.trans (by simp [Operand.quotedTexts])⟩
  · next items notOneOf notBetween =>
      cases rendered
      refine ⟨readable_singleton _ trivial, ?_⟩
      rw [Operand.quotedTexts]
      · rfl
      · exact notOneOf
      · exact notBetween

end Sql

end SemanticQuery
