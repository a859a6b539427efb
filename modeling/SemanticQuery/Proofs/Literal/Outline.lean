/-
This file compares statements whose queries differ only in the contents of strings. Blank queries
have lost these contents, and their statements have lost nothing else.
-/

import SemanticQuery.Proofs.Literal.Tokens
import SemanticQuery.Proofs.Result
import SemanticQuery.Statement.Compilation

namespace SemanticQuery

/-- A blank scalar is the same scalar, but a blank string is empty. -/
def Scalar.blank : Scalar → Scalar
  | .string _ => .string ""
  | scalar => scalar

/-- A blank operand has blank scalars. -/
def Operand.blank : Operand → Operand
  | .scalar value => .scalar value.blank
  | .list items => .list (items.map Scalar.blank)

/-- A blank condition has a blank operand. -/
def Condition.blank (condition : Condition) : Condition :=
  { condition with operand := condition.operand.map Operand.blank }

/-- A blank query has blank conditions. -/
def Query.blank (query : Query) : Query :=
  { query with conditions := query.conditions.map Condition.blank }

theorem Condition.isRenderable_blank (condition : Condition) :
    condition.blank.isRenderable = condition.isRenderable := by
  obtain ⟨column, operator, operand, table⟩ := condition
  rcases operand with _ | value | items
  · rfl
  · rfl
  · simp [Condition.isRenderable, Condition.blank, Operand.blank]

namespace Sql

/-- A blank token has a blank string, if it is a string. -/
def Token.blank : Token → Token
  | .string _ => .string ""
  | token => token

theorem Token.blank_blank (token : Token) : token.blank.blank = token.blank := by
  cases token <;> rfl

/-- Equal blank tokens stand for pieces with equal outlines. -/
theorem Token.outline_pieces_blank (dialect : Dialect) (token : Token) :
    (token.blank.pieces dialect).map Piece.outline =
      (token.pieces dialect).map Piece.outline := by
  cases token <;> rfl

/-- A change of every token passes over separators and items. -/
theorem map_intercalate (change : Token → Token) (separator : List Token)
    (items : List (List Token)) :
    (List.intercalate separator items).map change =
      List.intercalate (separator.map change) (items.map (List.map change)) := by
  induction items with
  | nil => rfl
  | cons item items inductionHypothesis =>
      cases items with
      | nil => simp
      | cons next items =>
          rw [List.intercalate_cons_cons, List.map_append, List.map_append, inductionHypothesis]
          simp only [List.map_cons, List.intercalate_cons_cons]

theorem literal_blank (value : Scalar) : literal value.blank = (literal value).map Token.blank := by
  cases value with
  | float value =>
      simp only [Scalar.blank, literal]
      split <;> rfl
  | _ => rfl

theorem literals_blank (items : List Scalar) :
    literals (items.map Scalar.blank) = (literals items).map (List.map Token.blank) := by
  induction items with
  | nil => rfl
  | cons item items inductionHypothesis =>
      simp only [List.map_cons, literals, literal_blank, inductionHypothesis]
      cases literal item with
      | error => rfl
      | ok token => cases literals items <;> rfl

theorem parenthesized_blank (items : List Scalar) :
    parenthesized (items.map Scalar.blank) =
      (parenthesized items).map (List.map Token.blank) := by
  simp only [parenthesized, literals_blank]
  cases literals items with
  | error => rfl
  | ok tokens =>
      change Except.ok _ = Except.ok _
      rw [commaSeparated, commaSeparated, List.map_append, List.map_append, map_intercalate,
        List.map_map, List.map_map]
      rfl

theorem range_blank (low high : Scalar) :
    range low.blank high.blank = (range low high).map (List.map Token.blank) := by
  simp only [range, literal_blank]
  cases literal low with
  | error => rfl
  | ok first => cases literal high <;> rfl

theorem map_blank_blank (result : Except QuoteError (List Token)) :
    (result.map (List.map Token.blank)).map (List.map Token.blank) =
      result.map (List.map Token.blank) := by
  cases result with
  | error => rfl
  | ok tokens =>
      have twice : (tokens.map Token.blank).map Token.blank = tokens.map Token.blank := by
        simp [Token.blank_blank]
      exact congrArg Except.ok twice

theorem single_blank (value : Scalar) :
    (literal value.blank).map ([·]) = ((literal value).map ([·])).map (List.map Token.blank) := by
  rw [literal_blank]
  cases literal value <;> rfl

/-- The display of a list changes with its strings, but it is a string itself. -/
theorem operand_blank (operator : Operator) (operand : Operand) :
    (Sql.operand operator operand.blank).map (List.map Token.blank) =
      (Sql.operand operator operand).map (List.map Token.blank) := by
  cases operand with
  | scalar value =>
      have single : ((literal value.blank).map ([·])).map (List.map Token.blank) =
          ((literal value).map ([·])).map (List.map Token.blank) := by
        rw [single_blank, map_blank_blank]
      cases operator with
      | oneOf =>
          change (parenthesized ([value].map Scalar.blank)).map _ = (parenthesized [value]).map _
          rw [parenthesized_blank, map_blank_blank]
      | _ => exact single
  | list items =>
      cases operator with
      | oneOf =>
          change (parenthesized (items.map Scalar.blank)).map _ = (parenthesized items).map _
          rw [parenthesized_blank, map_blank_blank]
      | between =>
          rcases items with _ | ⟨low, _ | ⟨high, _ | ⟨third, rest⟩⟩⟩
          · rfl
          · rfl
          · change (range low.blank high.blank).map _ = (range low high).map _
            rw [range_blank, map_blank_blank]
          · rfl
      | _ => rfl

end Sql

namespace Clause

open Sql (Token QuoteError map_intercalate)

section

variable {α β γ δ : Type} {first second : Except QuoteError α} {blank : α → γ} {blankAfter : β → δ}

/-- Results that agree when they are blank still do so after steps that agree on such values. -/
theorem bind_blank {step other : α → Except QuoteError β}
    (same : first.map blank = second.map blank)
    (agree : ∀ left right, blank left = blank right →
      (step left).map blankAfter = (other right).map blankAfter) :
    (first >>= step).map blankAfter = (second >>= other).map blankAfter := by
  cases first with
  | error error =>
      cases second with
      | error other => exact congrArg Except.error (Except.error.inj same)
      | ok right => cases same
  | ok left =>
      cases second with
      | error error => cases same
      | ok right => exact agree left right (Except.ok.inj same)

theorem map_blank {step : α → β} (same : first.map blank = second.map blank)
    (agree : ∀ left right, blank left = blank right →
      blankAfter (step left) = blankAfter (step right)) :
    (first.map step).map blankAfter = (second.map step).map blankAfter := by
  have agreeing (left right : α) (equal : blank left = blank right) :
      (Except.ok (step left) : Except QuoteError β).map blankAfter =
        (Except.ok (step right)).map blankAfter :=
    congrArg Except.ok (agree left right equal)
  exact bind_blank same agreeing

end

theorem predicate_blank (column : String) (operator : Operator) (operand : Operand) :
    (predicate column operator operand.blank).map (List.map Token.blank) =
      (predicate column operator operand).map (List.map Token.blank) := by
  apply bind_blank (Sql.operand_blank operator operand)
  intro left right equal
  refine congrArg Except.ok ?_
  rw [List.map_append, List.map_append, equal]

theorem predicate?_blank (condition : Condition) :
    (predicate? condition.blank).map (Option.map (List.map Token.blank)) =
      (predicate? condition).map (Option.map (List.map Token.blank)) := by
  obtain ⟨column, operator, operand, table⟩ := condition
  cases operand with
  | none => rfl
  | some operand =>
      unfold predicate?
      rw [Condition.isRenderable_blank]
      split
      · exact map_blank (predicate_blank column operator operand) fun _ _ => congrArg some
      · rfl

theorem predicates_blank (conditions : List Condition) :
    (predicates (conditions.map Condition.blank)).map (List.map (List.map Token.blank)) =
      (predicates conditions).map (List.map (List.map Token.blank)) := by
  induction conditions with
  | nil => rfl
  | cons condition rest inductionHypothesis =>
      apply bind_blank (predicate?_blank condition)
      intro found other equal
      refine bind_blank inductionHypothesis fun left right later => congrArg Except.ok ?_
      have head := congrArg Option.toList equal
      rw [Option.toList_map, Option.toList_map] at head
      rw [List.map_append, List.map_append, head, later]

theorem where_blank (conditions : List Condition) :
    (Clause.where (conditions.map Condition.blank)).map (Option.map (List.map Token.blank)) =
      (Clause.where conditions).map (Option.map (List.map Token.blank)) := by
  refine bind_blank (predicates_blank conditions) fun left right equal => congrArg Except.ok ?_
  have empty : left.isEmpty = right.isEmpty := by
    rw [← List.isEmpty_map (f := List.map Token.blank), equal, List.isEmpty_map]
  rw [empty]
  split
  · rfl
  · simp only [Option.map_some, List.map_append, Sql.andSeparated, map_intercalate, equal]

end Clause

namespace Query

open Sql (Token)

/-- Only the condition of a statement depends on strings. -/
theorem clauses_blank (query : Query) :
    query.blank.clauses.map (List.map (List.map Token.blank)) =
      query.clauses.map (List.map (List.map Token.blank)) := by
  apply Clause.bind_blank (Clause.where_blank query.conditions)
  intro left right equal
  have present (clauses : List (Option (List Token))) :
      (clauses.filterMap id).map (List.map Token.blank) =
        (clauses.map (Option.map (List.map Token.blank))).filterMap id := by
    rw [List.map_filterMap, List.filterMap_map]
    rfl
  refine congrArg Except.ok ?_
  rw [present, present]
  refine congrArg (List.filterMap id) ?_
  simp only [List.map_cons, equal]
  rfl

theorem statement_blank (query : Query) :
    query.blank.statement.map (List.map Token.blank) =
      query.statement.map (List.map Token.blank) := by
  apply Clause.map_blank query.clauses_blank
  intro left right equal
  rw [Sql.map_intercalate, Sql.map_intercalate, equal]

end Query

end SemanticQuery
