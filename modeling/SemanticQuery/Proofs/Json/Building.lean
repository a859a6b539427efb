/-
This file shows how tokens build trees. The tree of a part depends on the tokens of this part alone,
whatever is open around it and whatever comes behind it.
-/

import Mathlib.Tactic.Common
import SemanticQuery.Json.Tree

namespace SemanticQuery.Json

open SemanticQuery.Json.Tree (State complete)

/-- The tokens of a value are taken up to its end. They do not start with a closing bracket. -/
structure Builds (tokens : List Token) (tree : Tree) : Prop where
  start : ∃ token rest, tokens = token :: rest ∧ token ≠ .closeArray
  run : ∀ frames rest, (tokens ++ rest).foldl State.step (.value frames) =
    rest.foldl State.step (complete tree frames)

/-- The tokens of one or more items are taken up to the end of their array. -/
structure BuildsItems (tokens : List Token) (trees : List Tree) : Prop where
  start : ∃ token rest, tokens = token :: rest ∧ token ≠ .closeArray
  run : ∀ before frames rest,
    (tokens ++ Token.closeArray :: rest).foldl State.step (.value (.array before :: frames)) =
      rest.foldl State.step (complete (.array (before.reverse ++ trees) none) frames)

/-- The tokens of one or more members are taken up to the end of their object. -/
structure BuildsMembers (tokens : List Token) (members : List (Quoted × Tree)) : Prop where
  start : ∃ key rest, tokens = .string key :: rest
  run : ∀ before frames rest,
    (tokens ++ Token.closeObject :: rest).foldl State.step (.nextKey before frames) =
      rest.foldl State.step (complete (.object (before.reverse ++ members) none) frames)

variable {tokens later : List Token} {tree : Tree} {trees : List Tree} {key : Quoted}
  {members : List (Quoted × Tree)}

namespace Builds

/-- A single token builds a value without parts. -/
theorem single {token : Token}
    (taken : ∀ frames, State.takeValue frames token = complete tree frames) :
    Builds [token] tree where
  start := by
    refine ⟨token, [], rfl, ?_⟩
    rintro rfl
    -- In an array, a closing bracket is no complete item.
    cases taken [.array []]
  run frames rest := congrArg (rest.foldl State.step) (taken frames)

theorem emptyArray : Builds [.openArray, .closeArray] (.array [] none) where
  start := ⟨_, _, rfl, nofun⟩
  run _ _ := rfl

theorem emptyObject : Builds [.openObject, .closeObject] (.object [] none) where
  start := ⟨_, _, rfl, nofun⟩
  run _ _ := rfl

/-- Behind its opening bracket an array could still end, which the first token of an item
excludes. -/
theorem array (items : BuildsItems tokens trees) :
    Builds (.openArray :: tokens ++ [.closeArray]) (.array trees none) where
  start := ⟨_, _, rfl, nofun⟩
  run frames rest := by
    obtain ⟨token, others, same, other⟩ := items.start
    have opened : State.step (.firstItem frames) token =
        State.step (.value (.array [] :: frames)) token := by
      cases token with
      | closeArray => exact absurd rfl other
      | _ => rfl
    have inside := items.run [] frames rest
    rw [same, List.cons_append, List.foldl_cons, ← opened] at inside
    rw [same, List.append_assoc]
    exact inside

/-- The same is true for an object and its first key. -/
theorem object (inside : BuildsMembers tokens members) :
    Builds (.openObject :: tokens ++ [.closeObject]) (.object members none) where
  start := ⟨_, _, rfl, nofun⟩
  run frames rest := by
    obtain ⟨key, others, same⟩ := inside.start
    have inside := inside.run [] frames rest
    rw [same] at inside
    rw [same, List.append_assoc]
    exact inside

end Builds

namespace BuildsItems

theorem last (item : Builds tokens tree) : BuildsItems tokens [tree] where
  start := item.start
  run before frames rest := by
    rw [item.run]
    simp [State.step, complete]

theorem more (item : Builds tokens tree) (items : BuildsItems later trees) :
    BuildsItems (tokens ++ .comma :: later) (tree :: trees) where
  start := by
    obtain ⟨token, rest, rfl, other⟩ := item.start
    exact ⟨token, _, rfl, other⟩
  run before frames rest := by
    have behind := items.run (tree :: before) frames rest
    rw [List.reverse_cons, List.append_assoc, List.singleton_append] at behind
    rw [List.append_assoc, item.run, ← behind]
    rfl

end BuildsItems

namespace BuildsMembers

theorem last (value : Builds tokens tree) :
    BuildsMembers (.string key :: .colon :: tokens) [(key, tree)] where
  start := ⟨key, _, rfl⟩
  run before frames rest := by
    change (tokens ++ Token.closeObject :: rest).foldl State.step
      (.value (.object before key :: frames)) = _
    rw [value.run]
    simp [State.step, complete]

theorem more (value : Builds tokens tree) (inside : BuildsMembers later members) :
    BuildsMembers (.string key :: .colon :: tokens ++ .comma :: later)
      ((key, tree) :: members) where
  start := ⟨key, _, rfl⟩
  run before frames rest := by
    have behind := inside.run ((key, tree) :: before) frames rest
    rw [List.reverse_cons, List.append_assoc, List.singleton_append] at behind
    rw [List.append_assoc, ← behind]
    change (tokens ++ Token.comma :: (later ++ Token.closeObject :: rest)).foldl State.step
      (.value (.object before key :: frames)) = _
    rw [value.run]
    rfl

end BuildsMembers

/-- Nothing follows the tokens of a whole text. -/
theorem Builds.ofTokens (builds : Builds tokens tree) : Tree.ofTokens tokens = (tree, false) := by
  have run := builds.run [] []
  rw [List.append_nil] at run
  rw [Tree.ofTokens, run]
  rfl

end SemanticQuery.Json
