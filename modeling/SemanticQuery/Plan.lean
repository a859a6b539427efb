/-
This file plans joins. The joined tables grow outward from the anchor, and the first edge that
adds something goes first.
-/

import SemanticQuery.Query.Basic

namespace SemanticQuery

/-- An edge is a join with its position among the joins of the query. -/
structure Edge where
  index : Nat
  join : Join
deriving DecidableEq

namespace Plan

/-- A step brings in the named table by its edge. -/
structure Step where
  edge : Edge
  table : String
deriving DecidableEq

/-- A join is left out for one of these reasons. -/
inductive SkipReason where
  /-- A table or the condition is empty. -/
  | incomplete
  /-- Both tables were joined by other edges. -/
  | redundant
  /-- No table ever reached the anchor. -/
  | disconnected
deriving DecidableEq

/-- The name of a reason appears in the event log. -/
def SkipReason.name : SkipReason → String
  | .incomplete => "Incomplete"
  | .redundant => "Redundant"
  | .disconnected => "Disconnected"

/-- A skipped join is named by its position. -/
structure Skipped where
  index : Nat
  reason : SkipReason
deriving DecidableEq

/-- An edge meets the joined tables in one of these ways. -/
inductive Role where
  | adds (table : String)
  | redundant
  | waits

/-- An edge with one joined table adds the other one. An edge from a joined table to itself adds
that table again. -/
def role (joined : List String) (join : Join) : Role :=
  if join.table1 ∈ joined then
    if join.table2 ∈ joined then
      if join.table1 = join.table2 then .adds join.table2 else .redundant
    else .adds join.table2
  else if join.table2 ∈ joined then .adds join.table1
  else .waits

/-- A pass ends with the first step. It gives up the redundant edges in front of that step. -/
structure Pass where
  redundant : List Edge
  step : Option Step
  pending : List Edge

/-- The edges are tried in their order. -/
def pass (joined : List String) : List Edge → Pass
  | [] => ⟨[], none, []⟩
  | edge :: rest =>
      match role joined edge.join with
      | .adds table => ⟨[], some ⟨edge, table⟩, rest⟩
      | .redundant =>
          let after := pass joined rest
          { after with redundant := edge :: after.redundant }
      | .waits =>
          let after := pass joined rest
          { after with pending := edge :: after.pending }

theorem length_pending_lt {joined : List String} {edges : List Edge} {step : Step}
    (found : (pass joined edges).step = some step) :
    (pass joined edges).pending.length < edges.length := by
  induction edges with
  | nil => cases found
  | cons edge rest inductionHypothesis =>
      simp only [pass] at found ⊢
      split at found
      · exact Nat.lt_succ_self _
      · exact Nat.lt_succ_of_lt (inductionHypothesis found)
      · exact Nat.succ_lt_succ (inductionHypothesis found)

/-- Growth ends with the edges that no step could use. -/
structure Growth where
  steps : List Step
  redundant : List Edge
  pending : List Edge

/-- Passes repeat as long as they find a step, and each step joins its table. -/
def grow (joined : List String) (edges : List Edge) : Growth :=
  match _found : (pass joined edges).step with
  | none => ⟨[], (pass joined edges).redundant, (pass joined edges).pending⟩
  | some step =>
      let growth := grow (step.table :: joined) (pass joined edges).pending
      { growth with
        steps := step :: growth.steps
        redundant := (pass joined edges).redundant ++ growth.redundant }
termination_by edges.length
decreasing_by exact length_pending_lt _found

end Plan

/-- A plan lists the steps in the order of the statement, and the skipped joins by position. -/
structure Plan where
  steps : List Plan.Step
  skipped : List Plan.Skipped
deriving DecidableEq

namespace Plan

/-- Joins are numbered from zero. -/
def edges (joins : List Join) : List Edge :=
  joins.zipIdx.map fun pair => ⟨pair.2, pair.1⟩

/-- A complete edge is skipped only when the growth has no step for it. -/
def skipReason? (growth : Growth) (edge : Edge) : Option SkipReason :=
  if !edge.join.isComplete then some .incomplete
  else if edge ∈ growth.redundant then some .redundant
  else if edge ∈ growth.pending then some .disconnected
  else none

/-- Only complete edges take part in the growth. -/
def ofJoins (anchor : String) (joins : List Join) : Plan :=
  let growth := grow [anchor] ((edges joins).filter (·.join.isComplete))
  { steps := growth.steps
    skipped := (edges joins).filterMap fun edge =>
      (skipReason? growth edge).map fun reason => ⟨edge.index, reason⟩ }

/-- A query without tables has nothing to join. -/
def ofQuery (query : Query) : Plan :=
  match query.anchor? with
  | none => ⟨[], []⟩
  | some anchor => ofJoins anchor query.joins

end Plan

end SemanticQuery
