/-
This file compares paths by where they lead, without looking at any files.
-/

namespace SemanticQuery.Path

/-- Empty pieces and dots lead nowhere. -/
def isName (piece : List Char) : Bool := piece ≠ [] ∧ piece ≠ ['.']

/-- The pieces of a path stand between its slashes. An empty piece in front of a slash is the root,
and a dot in front is the current directory. -/
def components (path : String) : List (List Char) :=
  let pieces := path.toList.splitOn '/'
  match pieces with
  | [] :: _ :: _ => ['/'] :: pieces.filter isName
  | ['.'] :: _ => ['.'] :: pieces.filter isName
  | _ => pieces.filter isName

/-- A path is a dash when it leads to the same place as one. -/
def isDash (path : String) : Bool := components path = components "-"

/-- Nothing but slashes and dots stands behind such a dash. -/
theorem isDash_iff {path : String} :
    isDash path = true ↔ ∃ rest, path.toList.splitOn '/' = ['-'] :: rest ∧
      ∀ piece ∈ rest, isName piece = false := by
  have dash : components "-" = [['-']] := by decide
  rw [isDash, decide_eq_true_iff, dash, components]
  cases path.toList.splitOn '/' with
  | nil => simp
  | cons first rest =>
      by_cases named : isName first = true
      · have front : first ≠ [] ∧ first ≠ ['.'] := by simpa [isName] using named
        simp [List.filter_cons_of_pos named, front, and_assoc]
      · have skipped : first = [] ∨ first = ['.'] := by
          simpa [isName, Decidable.or_iff_not_imp_left] using named
        rcases skipped with rfl | rfl
        · cases rest <;> simp [isName]
        · simp

example : isDash "-//." = true ∧ isDash "./-" = false := by decide

end SemanticQuery.Path
