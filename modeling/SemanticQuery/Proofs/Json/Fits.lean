/-
This file shows that a written value is read again from its tree if it fits the room for nesting, and
that whatever is read fits. An exact value is read back.
-/

import SemanticQuery.Proofs.Json.Reading
import SemanticQuery.Proofs.Json.Rereading

namespace SemanticQuery.Json

namespace Value

/-- A value fits the room when it is nested at most that deep. The keys of its objects are sorted
and differ from each other. -/
inductive Fits : Nat → Value → Prop where
  | null {room : Nat} : Fits room .null
  | boolean {room : Nat} (value : Bool) : Fits room (.boolean value)
  | number {room : Nat} (value : Number) : Fits room (.number value)
  | string {room : Nat} (value : String) : Fits room (.string value)
  | array {room : Nat} {items : List Value} (inside : ∀ item ∈ items, Fits room item) :
      Fits (room + 1) (.array items)
  | object {room : Nat} {members : List (String × Value)}
      (inside : ∀ member ∈ members, Fits room member.2)
      (sorted : members.Pairwise fun first second => first.1 < second.1) :
      Fits (room + 1) (.object members)

/-- A key above all others goes to the end. -/
theorem insertMember_of_above {key : String} {value : Value} {before : List (String × Value)}
    (above : ∀ member ∈ before, member.1 < key) :
    insertMember key value before = before ++ [(key, value)] := by
  induction before with
  | nil => rfl
  | cons first rest inductionHypothesis =>
      obtain ⟨below, later⟩ := List.forall_mem_cons.1 above
      have different : key ≠ first.1 := fun same => String.lt_irrefl _ (same ▸ below)
      rw [insertMember, if_neg (String.lt_asymm below), if_neg different,
        inductionHypothesis later, List.cons_append]

/-- All items are read again when each of them is. -/
theorem valueItems_itemTrees {room : Nat} {items : List Value}
    (read : ∀ item ∈ items, Tree.value room item.tree = .ok item.reread) :
    Tree.valueItems room (itemTrees items) = .ok (rereadItems items) := by
  induction items with
  | nil => rfl
  | cons item items inductionHypothesis =>
      obtain ⟨first, later⟩ := List.forall_mem_cons.1 read
      rw [itemTrees, Tree.valueItems, first, inductionHypothesis later]
      rfl

/-- Sorted members are read again in their order. -/
theorem valueMembers_memberTrees {room : Nat} {members before : List (String × Value)}
    (read : ∀ member ∈ members, Tree.value room member.2.tree = .ok member.2.reread)
    (sorted : (before.map (·.1) ++ members.map (·.1)).Pairwise (· < ·)) :
    Tree.valueMembers room (memberTrees members) before =
      .ok (before ++ rereadMembers members) := by
  induction members generalizing before with
  | nil => rw [rereadMembers, List.append_nil, memberTrees, Tree.valueMembers]
  | cons member members inductionHypothesis =>
      obtain ⟨key, item⟩ := member
      obtain ⟨first, later⟩ := List.forall_mem_cons.1 read
      have above : ∀ other ∈ before, other.1 < key := fun other inside =>
        (List.pairwise_append.1 sorted).2.2 other.1 (List.mem_map_of_mem inside) _
          List.mem_cons_self
      have shifted : ((before ++ [(key, item.reread)]).map (·.1) ++
          members.map (·.1)).Pairwise (· < ·) := by simpa using sorted
      have tail := inductionHypothesis later shifted
      rw [memberTrees, Tree.valueMembers, Quoted.text_ofText]
      change (Tree.value room item.tree >>= fun item =>
        Tree.valueMembers room (memberTrees members) (insertMember key item before)) = _
      rw [first]
      change Tree.valueMembers room (memberTrees members) (insertMember key item.reread before) = _
      rw [insertMember_of_above above, tail, rereadMembers, List.append_assoc,
        List.singleton_append]

/-- A value that fits the room is read again, and only its doubles can change. -/
theorem value_tree_reread {room : Nat} {value : Value} (fits : Fits room value) :
    Tree.value room value.tree = .ok value.reread := by
  induction fits with
  | null => rfl
  | boolean value => rfl
  | number number =>
      change number.numeral.value.map Value.number = _
      rw [Number.value_numeral]
      rfl
  | string text =>
      change (Quoted.ofText text).text.map Value.string = _
      rw [Quoted.text_ofText]
      rfl
  | @array room items _ inductionHypothesis =>
      change (Tree.valueItems room (itemTrees items) >>= fun items => _) = _
      rw [valueItems_itemTrees inductionHypothesis]
      rfl
  | @object room members _ sorted inductionHypothesis =>
      have keys : (members.map (·.1)).Pairwise (· < ·) := List.pairwise_map.2 sorted
      have read : Tree.valueMembers room (memberTrees members) [] = .ok (rereadMembers members) :=
        valueMembers_memberTrees inductionHypothesis keys
      change (Tree.valueMembers room (memberTrees members) [] >>= fun members => _) = _
      rw [read]
      rfl

/-- An exact value that fits the room is read back. -/
theorem value_tree {room : Nat} {value : Value} (fits : Fits room value)
    (exact : value.isExact = true) : Tree.value room value.tree = .ok value := by
  rw [value_tree_reread fits, value.reread_of_isExact exact]

/-- The same holds for a line that is printed. -/
theorem ofText_line {value : Value} (fits : Fits Tree.maximumDepth value)
    (exact : value.isExact = true) : ofText (value.prettyText ++ "\n") = .ok value :=
  ((isWrittenAs_line exact).readText _).trans (value_tree fits exact)

end Value

namespace Tree

open Value (Fits)

theorem mem_insertMember {key : String} {value : Value} {members : List (String × Value)}
    {member : String × Value} (inside : member ∈ insertMember key value members) :
    member = (key, value) ∨ member ∈ members := by
  induction members with
  | nil => exact .inl (List.mem_singleton.1 inside)
  | cons first rest inductionHypothesis =>
      unfold insertMember at inside
      split at inside
      · exact List.mem_cons.1 inside
      · split at inside
        · rcases List.mem_cons.1 inside with same | later
          · exact .inl same
          · exact .inr (List.mem_cons_of_mem _ later)
        · rcases List.mem_cons.1 inside with rfl | later
          · exact .inr List.mem_cons_self
          · exact (inductionHypothesis later).imp_right (List.mem_cons_of_mem _)

/-- An inserted key goes to its place among the others. -/
theorem pairwise_insertMember (key : String) (value : Value) {members : List (String × Value)}
    (sorted : members.Pairwise fun first second => first.1 < second.1) :
    (insertMember key value members).Pairwise fun first second => first.1 < second.1 := by
  induction members with
  | nil => exact List.pairwise_singleton _ _
  | cons first rest inductionHypothesis =>
      obtain ⟨above, tail⟩ := List.pairwise_cons.1 sorted
      unfold insertMember
      split
      · next below =>
          refine List.pairwise_cons.2 ⟨List.forall_mem_cons.2 ⟨below, ?_⟩, sorted⟩
          intro other inside
          exact String.lt_trans below (above other inside)
      · next notBelow =>
          split
          · next same =>
              subst same
              exact List.pairwise_cons.2 ⟨above, tail⟩
          · next different =>
              refine List.pairwise_cons.2 ⟨?_, inductionHypothesis tail⟩
              have first_lt : first.1 < key := by
                by_contra notAbove
                exact different
                  (String.le_antisymm (String.not_lt.1 notAbove) (String.not_lt.1 notBelow))
              intro other inside
              rcases mem_insertMember inside with rfl | later
              · exact first_lt
              · exact above other later

mutual

/-- Whatever is read from a tree fits the room. -/
theorem fits_of_value {room : Nat} {tree : Tree} {value : Value}
    (read : Tree.value room tree = .ok value) : Fits room value := by
  match tree with
  | .null => cases read; exact .null
  | .boolean _ => cases read; exact .boolean _
  | .number _ =>
      obtain ⟨number, _, rfl⟩ := map_eq_ok_iff.1 read
      exact .number number
  | .brokenNumber _ => cases read
  | .string _ =>
      obtain ⟨text, _, rfl⟩ := map_eq_ok_iff.1 read
      exact .string text
  | .stray _ => cases read
  | .array trees ending =>
      match room with
      | 0 => cases read
      | room + 1 =>
          obtain ⟨items, inside, _, _, same⟩ := by
            simpa only [Tree.value, bind_eq_ok_iff] using read
          cases same
          exact .array (fits_of_valueItems inside)
  | .object trees ending =>
      match room with
      | 0 => cases read
      | room + 1 =>
          obtain ⟨members, inside, _, _, same⟩ := by
            simpa only [Tree.value, bind_eq_ok_iff] using read
          cases same
          have parts := fits_of_valueMembers inside (by simp) .nil
          exact .object parts.1 parts.2

theorem fits_of_valueItems {room : Nat} {trees : List Tree} {items : List Value}
    (read : Tree.valueItems room trees = .ok items) : ∀ item ∈ items, Fits room item := by
  match trees with
  | [] =>
      cases read
      simp
  | first :: trees =>
      obtain ⟨item, here, rest, later, same⟩ := by
        simpa only [Tree.valueItems, bind_eq_ok_iff] using read
      cases same
      exact List.forall_mem_cons.2 ⟨fits_of_value here, fits_of_valueItems later⟩

theorem fits_of_valueMembers {room : Nat} {trees : List (Quoted × Tree)}
    {before members : List (String × Value)}
    (read : Tree.valueMembers room trees before = .ok members)
    (inside : ∀ member ∈ before, Fits room member.2)
    (sorted : before.Pairwise fun first second => first.1 < second.1) :
    (∀ member ∈ members, Fits room member.2) ∧
      members.Pairwise fun first second => first.1 < second.1 := by
  match trees with
  | [] =>
      cases read
      exact ⟨inside, sorted⟩
  | (quoted, first) :: trees =>
      obtain ⟨key, _, item, here, later⟩ := by
        simpa only [Tree.valueMembers, bind_eq_ok_iff] using read
      -- What is collected so far stays sorted, whatever key comes next.
      refine fits_of_valueMembers later ?_ (pairwise_insertMember key item sorted)
      intro member found
      rcases mem_insertMember found with rfl | old
      · exact fits_of_value here
      · exact inside member old

end

/-- Only the tree of null is read as null. -/
theorem eq_null_of_value {room : Nat} {tree : Tree} (read : Tree.value room tree = .ok .null) :
    tree = .null := by
  match tree with
  | .null => rfl
  | .boolean _ => cases read
  | .number _ =>
      obtain ⟨_, _, impossible⟩ := map_eq_ok_iff.1 read
      cases impossible
  | .brokenNumber _ => cases read
  | .string _ =>
      obtain ⟨_, _, impossible⟩ := map_eq_ok_iff.1 read
      cases impossible
  | .stray _ => cases read
  | .array _ _ =>
      match room with
      | 0 => cases read
      | room + 1 =>
          obtain ⟨_, _, _, _, impossible⟩ := by
            simpa only [Tree.value, bind_eq_ok_iff] using read
          cases impossible
  | .object _ _ =>
      match room with
      | 0 => cases read
      | room + 1 =>
          obtain ⟨_, _, _, _, impossible⟩ := by
            simpa only [Tree.value, bind_eq_ok_iff] using read
          cases impossible

end Tree

end SemanticQuery.Json
