/-
This file decides whether two JSON values are equal.
-/

import SemanticQuery.Json.Value

namespace SemanticQuery.Json.Value

mutual

/-- Values of different kinds differ. -/
def same : Value → Value → Bool
  | .null, .null => true
  | .boolean first, .boolean second => first == second
  | .number first, .number second => decide (first = second)
  | .string first, .string second => first == second
  | .array first, .array second => sameItems first second
  | .object first, .object second => sameMembers first second
  | _, _ => false

/-- Items are compared one by one. -/
def sameItems : List Value → List Value → Bool
  | [], [] => true
  | first :: firstRest, second :: secondRest =>
      same first second && sameItems firstRest secondRest
  | _, _ => false

/-- Members are compared one by one, because their order counts. -/
def sameMembers : List (String × Value) → List (String × Value) → Bool
  | [], [] => true
  | (firstKey, first) :: firstRest, (secondKey, second) :: secondRest =>
      firstKey == secondKey && same first second && sameMembers firstRest secondRest
  | _, _ => false

end

mutual

theorem same_iff (first second : Value) : same first second = true ↔ first = second := by
  cases first with
  | null => cases second <;> simp [same]
  | boolean => cases second <;> simp [same]
  | number => cases second <;> simp [same]
  | string => cases second <;> simp [same]
  | array items => cases second <;> simp [same, sameItems_iff items]
  | object members => cases second <;> simp [same, sameMembers_iff members]

theorem sameItems_iff (first second : List Value) :
    sameItems first second = true ↔ first = second := by
  cases first with
  | nil => cases second <;> simp [sameItems]
  | cons item rest => cases second <;> simp [sameItems, same_iff item, sameItems_iff rest]

theorem sameMembers_iff (first second : List (String × Value)) :
    sameMembers first second = true ↔ first = second := by
  match first with
  | [] => cases second <;> simp [sameMembers]
  | (key, item) :: rest =>
      cases second <;>
        simp [sameMembers, same_iff item, sameMembers_iff rest, Prod.ext_iff]

end

instance : DecidableEq Value := fun first second => decidable_of_iff _ (same_iff first second)

end SemanticQuery.Json.Value
