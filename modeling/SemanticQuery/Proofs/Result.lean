/-
This file opens results of steps that can fail.
-/

import Mathlib.Tactic.Common

namespace SemanticQuery

variable {ε α β : Type}

/-- Two steps succeed when both of them do. -/
theorem bind_eq_ok_iff {result : Except ε α} {next : α → Except ε β} {value : β} :
    result >>= next = .ok value ↔ ∃ middle, result = .ok middle ∧ next middle = .ok value := by
  cases result with
  | error => simp [bind, Except.bind]
  | ok => simp [bind, Except.bind]

/-- A changed result is that of a successful step. -/
theorem map_eq_ok_iff {result : Except ε α} {change : α → β} {value : β} :
    result.map change = .ok value ↔ ∃ middle, result = .ok middle ∧ change middle = value := by
  cases result with
  | error => simp [Except.map]
  | ok => simp [Except.map]

/-- A step with another fault succeeds like before. -/
theorem mapError_eq_ok_iff {ε' : Type} {result : Except ε α} {change : ε → ε'} {value : α} :
    result.mapError change = .ok value ↔ result = .ok value := by
  cases result with
  | error => simp [Except.mapError]
  | ok => simp [Except.mapError]

/-- Two steps fail when one of them does. -/
theorem bind_eq_error_iff {result : Except ε α} {next : α → Except ε β} {fault : ε} :
    result >>= next = .error fault ↔
      result = .error fault ∨ ∃ middle, result = .ok middle ∧ next middle = .error fault := by
  cases result with
  | error => simp [bind, Except.bind]
  | ok => simp [bind, Except.bind]

/-- A step that cannot fail gives its value. -/
theorem pure_eq_ok_iff {value other : α} : (pure value : Except ε α) = .ok other ↔ value = other :=
  ⟨Except.ok.inj, congrArg _⟩

/-- A result is the first one of these faults, or it is none if they are none. -/
def FailsFirst (result : Except ε α) (faults : List ε) : Prop :=
  ∀ fault, result = .error fault ↔ faults.head? = some fault

namespace FailsFirst

variable {result : Except ε α} {faults : List ε}

theorem ok (value : α) : FailsFirst (.ok value : Except ε α) [] := by
  intro fault
  simp

theorem error (fault : ε) (later : List ε) :
    FailsFirst (.error fault : Except ε α) (fault :: later) := by
  intro other
  simp

theorem eq_nil {value : α} (fails : FailsFirst (.ok value) faults) : faults = [] := by
  cases faults with
  | nil => rfl
  | cons fault rest => cases (fails fault).2 rfl

/-- A step without faults gives a value. -/
theorem exists_ok_iff (fails : FailsFirst result faults) :
    (∃ value, result = .ok value) ↔ faults = [] := by
  cases result with
  | error fault =>
      refine iff_of_false (by simp) fun none => ?_
      have head := (fails fault).1 rfl
      rw [none] at head
      cases head
  | ok value => exact iff_of_true ⟨value, rfl⟩ fails.eq_nil

/-- The faults of a second step come behind those of the first one. -/
theorem bind {next : α → Except ε β} {later : List ε} (fails : FailsFirst result faults)
    (then_fails : ∀ value, FailsFirst (next value) later) :
    FailsFirst (result >>= next) (faults ++ later) := by
  intro fault
  cases result with
  | error given =>
      have head := (fails given).1 rfl
      rw [List.head?_append, head, Option.some_or, Option.some.injEq]
      exact ⟨Except.error.inj, congrArg _⟩
  | ok value =>
      rw [fails.eq_nil, List.nil_append]
      exact then_fails value fault

/-- A change of the value has no effect on the faults. -/
theorem map (fails : FailsFirst result faults) (change : α → β) :
    FailsFirst (result.map change) faults := by
  intro fault
  rw [← fails fault]
  cases result with
  | error given => simp [Except.map]
  | ok value => simp [Except.map]

end FailsFirst

end SemanticQuery
