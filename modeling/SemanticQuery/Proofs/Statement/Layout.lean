/-
This file takes a statement apart. It is assembled from the joins of its plan and from the
predicates of its conditions, where a condition may have none.
-/

import Mathlib.Data.List.Forall2
import Mathlib.Data.List.ReduceOption
import SemanticQuery.Proofs.Result
import SemanticQuery.Statement.Compilation

namespace SemanticQuery

open Sql (Token space)

theorem Condition.operand_of_isRenderable {condition : Condition}
    (renderable : condition.isRenderable = true) :
    ∃ operand, condition.operand = some operand := by
  cases present : condition.operand with
  | none => simp [isRenderable, present] at renderable
  | some operand => exact ⟨operand, rfl⟩

namespace Clause

/-- A condition has a predicate when it can be rendered. -/
theorem isSome_predicate? {condition : Condition} {part : Option (List Token)}
    (rendered : predicate? condition = .ok part) : part.isSome = condition.isRenderable := by
  unfold predicate? at rendered
  split at rendered
  · next renderable =>
      obtain ⟨operand, present⟩ := Condition.operand_of_isRenderable renderable
      rw [present] at rendered
      obtain ⟨tokens, _, rfl⟩ := map_eq_ok_iff.1 rendered
      exact renderable.symm
  · next skipped =>
      cases rendered
      simpa using skipped

/-- A predicate consists of its column, its operator and its operand. -/
theorem predicate?_eq_ok_some {condition : Condition} {tokens : List Token}
    (rendered : predicate? condition = .ok (some tokens)) :
    ∃ operand inner, condition.operand = some operand ∧
      Sql.operand condition.operator operand = .ok inner ∧
      tokens = [.fragment condition.column, space, Sql.operatorToken condition.operator, space] ++
        inner := by
  unfold predicate? at rendered
  split at rendered
  · split at rendered
    · cases rendered
    · next operand present =>
        simp only [map_eq_ok_iff, predicate, bind_eq_ok_iff, pure_eq_ok_iff] at rendered
        obtain ⟨_, ⟨inner, innerRendered, rfl⟩, same⟩ := rendered
        cases same
        exact ⟨operand, inner, present, innerRendered, rfl⟩
  · cases rendered

end Clause

end SemanticQuery
