/-
This file says where the words of a statement are. Each clause starts with a word of its own, and no
such word stands inside of a list of names or of a predicate.
-/

import SemanticQuery.Proofs.Statement.Layout

namespace SemanticQuery

namespace Sql

/-- A part of a statement starts with such a word. -/
def Token.isHead : Token → Bool
  | .word .select => true
  | .word .from => true
  | .word .join => true
  | .word .where => true
  | .word .groupBy => true
  | .word .orderBy => true
  | .word .limit => true
  | _ => false

/-- No part of a statement starts inside of such a text. -/
def IsInner (tokens : List Token) : Prop := ∀ token ∈ tokens, token.isHead = false

/-- What holds in a separator and in all items holds everywhere in the separated items. -/
theorem forall_mem_intercalate {holds : Token → Prop} {separator : List Token}
    {items : List (List Token)} (between : ∀ token ∈ separator, holds token)
    (inside : ∀ item ∈ items, ∀ token ∈ item, holds token) :
    ∀ token ∈ List.intercalate separator items, holds token := by
  induction items with
  | nil => simp
  | cons first rest inductionHypothesis =>
      obtain ⟨here, later⟩ := List.forall_mem_cons.1 inside
      cases rest with
      | nil => simpa using here
      | cons second others =>
          rw [List.intercalate_cons_cons]
          exact List.forall_mem_append.2
            ⟨List.forall_mem_append.2 ⟨here, between⟩, inductionHypothesis later⟩

/-- A literal is no word. -/
theorem isHead_literal {value : Scalar} {token : Token}
    (rendered : literal value = .ok token) : token.isHead = false := by
  cases value with
  | float value =>
      simp only [literal] at rendered
      split at rendered
      · cases rendered
        rfl
      · cases rendered
  | _ =>
      cases rendered
      rfl

theorem isInner_literals {values : List Scalar} {tokens : List Token}
    (rendered : literals values = .ok tokens) : IsInner tokens := by
  induction values generalizing tokens with
  | nil =>
      cases rendered
      exact List.forall_mem_nil _
  | cons value rest inductionHypothesis =>
      simp only [literals, bind_eq_ok_iff, pure_eq_ok_iff] at rendered
      obtain ⟨first, found, later, laterFound, rfl⟩ := rendered
      exact List.forall_mem_cons.2 ⟨isHead_literal found, inductionHypothesis laterFound⟩

theorem isInner_parenthesized {items : List Scalar} {tokens : List Token}
    (rendered : parenthesized items = .ok tokens) : IsInner tokens := by
  simp only [parenthesized, bind_eq_ok_iff, pure_eq_ok_iff] at rendered
  obtain ⟨inner, innerRendered, rfl⟩ := rendered
  have literals := isInner_literals innerRendered
  have items : IsInner (commaSeparated (inner.map ([·]))) := by
    refine forall_mem_intercalate (by decide) fun item member => ?_
    obtain ⟨token, inside, rfl⟩ := List.mem_map.1 member
    exact List.forall_mem_singleton.2 (literals token inside)
  refine List.forall_mem_append.2 ⟨List.forall_mem_append.2 ⟨?_, items⟩, ?_⟩
  · exact List.forall_mem_singleton.2 rfl
  · exact List.forall_mem_singleton.2 rfl

/-- An operand consists of literals, of marks and of the word between two bounds. -/
theorem isInner_operand {operator : Operator} {operand : Operand} {tokens : List Token}
    (rendered : Sql.operand operator operand = .ok tokens) : IsInner tokens := by
  unfold Sql.operand at rendered
  split at rendered
  · exact isInner_parenthesized rendered
  · exact isInner_parenthesized rendered
  · simp only [range, bind_eq_ok_iff, pure_eq_ok_iff] at rendered
    obtain ⟨first, firstRendered, second, secondRendered, rfl⟩ := rendered
    simp only [IsInner, List.forall_mem_cons, isHead_literal firstRendered,
      isHead_literal secondRendered]
    decide
  · obtain ⟨token, tokenRendered, rfl⟩ := map_eq_ok_iff.1 rendered
    exact List.forall_mem_singleton.2 (isHead_literal tokenRendered)
  · cases rendered
    exact List.forall_mem_singleton.2 rfl

end Sql

namespace Clause

open Sql

theorem isInner_fragments (texts : List String) : IsInner (commaSeparated (fragments texts)) := by
  refine forall_mem_intercalate (by decide) fun item member => ?_
  obtain ⟨text, _, rfl⟩ := List.mem_map.1 member
  exact List.forall_mem_singleton.2 rfl

/-- A predicate has a column, an operator and an operand. -/
theorem isInner_predicate {condition : Condition} {tokens : List Token}
    (rendered : predicate? condition = .ok (some tokens)) : IsInner tokens := by
  obtain ⟨operand, inner, _, innerRendered, rfl⟩ := predicate?_eq_ok_some rendered
  refine List.forall_mem_append.2 ⟨?_, isInner_operand innerRendered⟩
  cases condition.operator <;> simp [operatorToken, space, Token.isHead]

theorem isInner_predicates {conditions : List Condition} {items : List (List Token)}
    (rendered : predicates conditions = .ok items) : IsInner (andSeparated items) := by
  refine forall_mem_intercalate (by decide) ?_
  induction conditions generalizing items with
  | nil =>
      cases rendered
      exact List.forall_mem_nil _
  | cons condition rest inductionHypothesis =>
      simp only [predicates, bind_eq_ok_iff, pure_eq_ok_iff] at rendered
      obtain ⟨found, foundRendered, later, laterRendered, rfl⟩ := rendered
      refine List.forall_mem_append.2 ⟨fun item present => ?_, inductionHypothesis laterRendered⟩
      rw [Option.mem_toList.1 present] at foundRendered
      exact isInner_predicate foundRendered

theorem isInner_orderTerms (terms : List OrderTerm) :
    IsInner (commaSeparated (terms.map orderTerm)) := by
  refine forall_mem_intercalate (by decide) fun item member => ?_
  obtain ⟨term, _, rfl⟩ := List.mem_map.1 member
  rw [orderTerm]
  cases term.direction <;> simp [directionWord, space, Token.isHead]

end Clause

end SemanticQuery
