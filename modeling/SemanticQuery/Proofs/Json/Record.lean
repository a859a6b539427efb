/-
This file reads written lists and records back, and shows that what is read keeps every property
that its parts keep.
-/

import SemanticQuery.Document.Writer
import SemanticQuery.Json.Record
import SemanticQuery.Proofs.Json.Fits

namespace SemanticQuery.Json

variable {α β ρ : Type}

namespace Value

theorem tree_ne_null {value : Value} (some : value ≠ .null) : value.tree ≠ .null := by
  cases value with
  | null => exact absurd rfl some
  | _ => exact Tree.noConfusion

variable {write : α → Value}

theorem isExact_ofList {items : List α}
    (exact : ∀ item ∈ items, (write item).isExact = true) :
    (ofList write items).isExact = true := by
  refine areExact_eq_true_iff.2 fun value inside => ?_
  obtain ⟨item, member, rfl⟩ := List.mem_map.1 inside
  exact exact item member

theorem isExact_ofOption {part : Option α}
    (exact : ∀ item ∈ part, (write item).isExact = true) :
    (ofOption write part).isExact = true := by
  cases part with
  | none => rfl
  | some item => exact exact item rfl

end Value

namespace FieldReader

/-- Such a field never spoils a record that has the property. -/
def Keeps (holds : ρ → Prop) (field : FieldReader ρ) : Prop :=
  ∀ tree record next, field.read tree record = .ok next → holds record → holds next

/-- A field that replaces one part keeps what holds for all values that it can read. -/
theorem keeps_of {holds : ρ → Prop} {key : String} {reader : Reader α} {replace : α → ρ → ρ}
    (replaced : ∀ tree value record, reader tree = .ok value → holds record →
      holds (replace value record)) : (FieldReader.of key reader replace).Keeps holds := by
  intro tree record next read start
  obtain ⟨value, inside, rfl⟩ := map_eq_ok_iff.1 read
  exact replaced tree value record inside start

end FieldReader

namespace Reader

theorem text_tree (value : String) : text (Value.string value).tree = .ok value :=
  Quoted.text_ofText value

/-- Whatever a reader reads from a value other than null is there. -/
theorem optional_of_ok {reader : Reader α} {tree : Tree} {value : α} (some : tree ≠ .null)
    (read : reader tree = .ok value) : optional reader tree = .ok (.some value) := by
  cases tree with
  | null => exact absurd rfl some
  | _ =>
      change (reader _).map _ = _
      rw [read]
      rfl

theorem optional_string (value : String) :
    optional text (Value.string value).tree = .ok (some value) :=
  optional_of_ok Tree.noConfusion (text_tree value)

/-- Only the value null is absent. -/
theorem optional_eq_ok_some {reader : Reader α} {tree : Tree} {value : α}
    (read : optional reader tree = .ok (some value)) : tree ≠ .null ∧ reader tree = .ok value := by
  cases tree with
  | null => cases read
  | _ =>
      obtain ⟨_, inside, same⟩ := map_eq_ok_iff.1 read
      cases same
      exact ⟨Tree.noConfusion, inside⟩

section Lists

theorem items_itemTrees {reader : Reader β} {write : α → Value} {convert : α → β} {items : List α}
    (reads : ∀ item ∈ items, reader (write item).tree = .ok (convert item)) :
    Reader.items reader (Value.itemTrees (items.map write)) = .ok (items.map convert) := by
  induction items with
  | nil => rfl
  | cons item items inductionHypothesis =>
      obtain ⟨first, later⟩ := List.forall_mem_cons.1 reads
      rw [List.map_cons, Value.itemTrees, Reader.items, first, inductionHypothesis later]
      rfl

/-- A written list is read back when all its items are. -/
theorem list_tree {reader : Reader β} {write : α → Value} {convert : α → β} {items : List α}
    (reads : ∀ item ∈ items, reader (write item).tree = .ok (convert item)) :
    list reader (Value.ofList write items).tree = .ok (items.map convert) := by
  change (Reader.items reader (Value.itemTrees (items.map write)) >>= fun result => _) = _
  rw [items_itemTrees reads]
  rfl

theorem listOrNull_tree {reader : Reader β} {write : α → Value} {convert : α → β} {items : List α}
    (reads : ∀ item ∈ items, reader (write item).tree = .ok (convert item)) :
    listOrNull reader (Value.ofList write items).tree = .ok (items.map convert) := by
  rw [listOrNull, optional_of_ok Tree.noConfusion (list_tree reads)]
  rfl

/-- A list that is absent stays absent, and is told apart from an empty one. -/
theorem optional_list_tree {reader : Reader β} {write : α → Value} {convert : α → β}
    {part : Option (List α)}
    (reads : ∀ items ∈ part, ∀ item ∈ items, reader (write item).tree = .ok (convert item)) :
    optional (list reader) (Value.ofOption (Value.ofList write) part).tree =
      .ok (part.map (·.map convert)) := by
  cases part with
  | none => rfl
  | some items => exact optional_of_ok Tree.noConfusion (list_tree (reads items rfl))

variable {reader : Reader α} {write : α → Value}

/-- A list of items that are read back is read back itself. -/
theorem listOrNull_self {items : List α}
    (reads : ∀ item ∈ items, reader (write item).tree = .ok item) :
    listOrNull reader (Value.ofList write items).tree = .ok items := by
  have read := listOrNull_tree reads
  rwa [List.map_id'] at read

theorem optional_list_self {part : Option (List α)}
    (reads : ∀ items ∈ part, ∀ item ∈ items, reader (write item).tree = .ok item) :
    optional (list reader) (Value.ofOption (Value.ofList write) part).tree = .ok part := by
  have read := optional_list_tree reads
  simpa using read

theorem exists_of_mem_items {reader : Reader α} {trees : List Tree} {values : List α}
    (read : Reader.items reader trees = .ok values) :
    ∀ value ∈ values, ∃ tree, reader tree = .ok value := by
  induction trees generalizing values with
  | nil =>
      cases read
      simp
  | cons first trees inductionHypothesis =>
      obtain ⟨item, here, rest, later, same⟩ := by
        simpa only [Reader.items, bind_eq_ok_iff] using read
      cases same
      exact List.forall_mem_cons.2 ⟨⟨first, here⟩, inductionHypothesis later⟩

/-- Every item of a list was read by the reader of its items. -/
theorem exists_of_mem_list {reader : Reader α} {tree : Tree} {values : List α}
    (read : list reader tree = .ok values) : ∀ value ∈ values, ∃ tree, reader tree = .ok value := by
  cases tree with
  | array trees ending =>
      obtain ⟨_, inside, _, _, same⟩ := by simpa only [list, bind_eq_ok_iff] using read
      cases same
      exact exists_of_mem_items inside
  | _ => cases read

theorem exists_of_mem_listOrNull {reader : Reader α} {tree : Tree} {values : List α}
    (read : listOrNull reader tree = .ok values) :
    ∀ value ∈ values, ∃ tree, reader tree = .ok value := by
  obtain ⟨found, inside, rfl⟩ := map_eq_ok_iff.1 read
  cases found with
  | none => simp
  | some items => exact exists_of_mem_list (optional_eq_ok_some inside).2

end Lists

section Records

variable {fields : List (FieldReader ρ)}

/-- A member whose key names a field that is not yet taken is read by that field. -/
theorem members_memberTrees_cons {field : FieldReader ρ} {value : Value}
    {members : List (String × Value)} {seen : List String}
    (found : fields.find? (·.key = field.key) = some field) (fresh : field.key ∉ seen)
    (record : ρ) :
    Reader.members fields (Value.memberTrees ((field.key, value) :: members)) seen record =
      field.read value.tree record >>=
        Reader.members fields (Value.memberTrees members) (field.key :: seen) := by
  simp only [Value.memberTrees, Reader.members, Quoted.text_ofText, bind, Except.bind, found,
    if_neg fresh]

/-- Members that name the fields in their order are read one by one. The fields in front of them are
already taken. -/
theorem members_memberTrees {before : List (FieldReader ρ)} {members : List (String × Value)}
    {seen : List String} {record : ρ} (distinct : ((before ++ fields).map (·.key)).Nodup)
    (taken : ∀ key ∈ seen, key ∈ before.map (·.key))
    (named : members.map (·.1) <+: fields.map (·.key)) :
    Reader.members (before ++ fields) (Value.memberTrees members) seen record =
      positions fields (Value.itemTrees (members.map (·.2))) none record := by
  -- The first of the fields goes over to those in front with each member.
  induction members generalizing before fields seen record with
  | nil => cases fields <;> rfl
  | cons member members inductionHypothesis =>
      obtain ⟨key, value⟩ := member
      cases fields with
      | nil => simp at named
      | cons field fields =>
          obtain ⟨same, namedLater⟩ := List.cons_prefix_cons.1 named
          obtain rfl : key = field.key := same
          have absent : ∀ other ∈ before, other.key ≠ field.key := by
            intro other inside equal
            rw [List.map_append, List.nodup_append] at distinct
            exact distinct.2.2 _ (List.mem_map_of_mem inside) _ (by simp) equal
          have found : (before ++ field :: fields).find? (·.key = field.key) = some field := by
            rw [List.find?_append, List.find?_eq_none.2 (by simpa using absent)]
            simp
          have fresh : field.key ∉ seen := by
            intro inside
            obtain ⟨other, member, equal⟩ := List.mem_map.1 (taken _ inside)
            exact absent other member equal
          have later (next : ρ) : Reader.members (before ++ field :: fields)
              (Value.memberTrees members) (field.key :: seen) next =
                positions fields (Value.itemTrees (members.map (·.2))) none next := by
            rw [List.append_cons]
            refine inductionHypothesis (by simpa using distinct) ?_ namedLater
            intro other inside
            rcases List.mem_cons.1 inside with rfl | old
            · simp
            · simp [List.mem_map.1 (taken other old)]
          rw [members_memberTrees_cons found fresh, funext later]
          rfl

/-- An object that names the fields in their order is read like the array of its values. Both may
stop early. -/
theorem record_object {members : List (String × Value)} {empty : ρ}
    (distinct : (fields.map (·.key)).Nodup) (named : members.map (·.1) <+: fields.map (·.key)) :
    record fields empty (Value.object members).tree =
      record fields empty (Value.array (members.map (·.2))).tree := by
  have read : Reader.members ([] ++ fields) (Value.memberTrees members) [] empty =
      positions fields (Value.itemTrees (members.map (·.2))) none empty :=
    members_memberTrees distinct (by simp) named
  change (Reader.members ([] ++ fields) (Value.memberTrees members) [] empty >>=
    fun result => _) = _
  rw [read]
  exact bind_pure _

/-- An item is read by the field of its position. -/
theorem positions_itemTrees_cons {key : String} {reader : Reader α} {replace : α → ρ → ρ}
    {item : Value} {value : α} (read : reader item.tree = .ok value) (items : List Value)
    (record : ρ) :
    positions (.of key reader replace :: fields) (Value.itemTrees (item :: items)) none record =
      positions fields (Value.itemTrees items) none (replace value record) := by
  change ((reader item.tree).map (replace · record) >>= fun record => _) = _
  rw [read]
  rfl

variable {holds : ρ → Prop} {result : ρ}

theorem members_induction
    (kept : ∀ field ∈ fields, field.Keeps holds) {trees : List (Quoted × Tree)}
    {seen : List String} {record : ρ}
    (start : holds record) (read : Reader.members fields trees seen record = .ok result) :
    holds result := by
  induction trees generalizing seen record with
  | nil =>
      cases read
      exact start
  | cons member trees inductionHypothesis =>
      obtain ⟨key, _, here⟩ := by simpa only [Reader.members, bind_eq_ok_iff] using read
      split at here
      · obtain ⟨_, _, later⟩ := bind_eq_ok_iff.1 here
        exact inductionHypothesis start later
      · next field found =>
          split at here
          · cases here
          · obtain ⟨next, changed, later⟩ := bind_eq_ok_iff.1 here
            have member := List.mem_of_find?_eq_some found
            exact inductionHypothesis (kept field member _ _ _ changed start) later

theorem positions_induction
    (kept : ∀ field ∈ fields, field.Keeps holds) {trees : List Tree} {ending : Option Fault}
    {record : ρ}
    (start : holds record) (read : positions fields trees ending record = .ok result) :
    holds result := by
  induction trees generalizing fields record with
  | nil =>
      obtain ⟨_, _, same⟩ := by simpa only [positions, bind_eq_ok_iff] using read
      cases same
      exact start
  | cons tree trees inductionHypothesis =>
      cases fields with
      | nil => cases read
      | cons field fields =>
          obtain ⟨here, keptLater⟩ := List.forall_mem_cons.1 kept
          obtain ⟨next, changed, later⟩ := by simpa only [positions, bind_eq_ok_iff] using read
          exact inductionHypothesis keptLater (here _ _ _ changed start) later

/-- A property that every field keeps holds for a record in either form. -/
theorem record_induction
    (kept : ∀ field ∈ fields, field.Keeps holds) {empty : ρ} {tree : Tree} (start : holds empty)
    (read : record fields empty tree = .ok result) : holds result := by
  cases tree with
  | object trees ending =>
      obtain ⟨_, inside, _, _, same⟩ := by simpa only [record, bind_eq_ok_iff] using read
      cases same
      exact members_induction kept start inside
  | array trees ending => exact positions_induction kept start read
  | _ => cases read

end Records

end Reader

end SemanticQuery.Json
