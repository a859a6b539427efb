/-
This file shows what does not matter when a record is read from an object. The members may come in
any order, members with unknown keys are skipped, and null stands for a missing member.
-/

import Mathlib.Data.List.Pairwise
import SemanticQuery.Json.Record
import SemanticQuery.Proofs.Result

namespace SemanticQuery.Json

variable {α ρ : Type}

namespace FieldReader

/-- Two fields commute when they read the same record in both orders. -/
def Commutes (field other : FieldReader ρ) : Prop :=
  ∀ tree otherTree record result,
    field.read tree record >>= other.read otherTree = .ok result ↔
      other.read otherTree record >>= field.read tree = .ok result

/-- Fields that replace different parts commute. -/
theorem commutes_of {β : Type} {key otherKey : String} {reader : Reader α}
    {otherReader : Reader β} {replace : α → ρ → ρ} {replaceOther : β → ρ → ρ}
    (apart : ∀ value other record,
      replaceOther other (replace value record) = replace value (replaceOther other record)) :
    Commutes (.of key reader replace) (.of otherKey otherReader replaceOther) := by
  intro tree otherTree record result
  simp only [of, bind_eq_ok_iff, map_eq_ok_iff]
  constructor
  · rintro ⟨_, ⟨value, read, rfl⟩, other, readOther, rfl⟩
    exact ⟨_, ⟨other, readOther, rfl⟩, value, read, (apart value other record).symm⟩
  · rintro ⟨_, ⟨other, readOther, rfl⟩, value, read, rfl⟩
    exact ⟨_, ⟨value, read, rfl⟩, other, readOther, apart value other record⟩

/-- This change of a record does not matter to the field. -/
def Ignores (field : FieldReader ρ) (set : ρ → ρ) : Prop :=
  ∀ tree record, field.read tree (set record) = (field.read tree record).map set

/-- A field ignores a change of the parts that it does not replace. -/
theorem ignores_of {key : String} {reader : Reader α} {replace : α → ρ → ρ} {set : ρ → ρ}
    (apart : ∀ value record, replace value (set record) = set (replace value record)) :
    Ignores (.of key reader replace) set := by
  intro tree record
  change (reader tree).map _ = ((reader tree).map _).map set
  cases reader tree with
  | error => rfl
  | ok value => exact congrArg Except.ok (apart value record)

theorem key_of (key : String) (reader : Reader α) (replace : α → ρ → ρ) :
    (of key reader replace).key = key := rfl

instance : Std.Symm (@Commutes ρ) :=
  ⟨fun _ _ commutes _ _ _ _ => (commutes _ _ _ _).symm⟩

end FieldReader

/-- The fields of a loose record commute, and a field that is null leaves the empty record as it
is. -/
structure IsLoose (fields : List (FieldReader ρ)) (empty : ρ) : Prop where
  commutes : fields.Pairwise FieldReader.Commutes
  null : ∀ field ∈ fields, field.read .null empty = .ok empty

namespace Reader

/-- Whatever is read from one tree is read with this change from the other one. -/
def Changes (reader : Reader α) (change : α → α) (tree other : Tree) : Prop :=
  ∀ value, reader tree = .ok value → reader other = .ok (change value)

/-- Whatever is read from one tree is read from the other one as well. -/
def Follows (reader : Reader α) (tree other : Tree) : Prop := reader.Changes id tree other

/-- A member is skipped if its key is unknown. Otherwise it is read by the field of its key, which
was not seen before. -/
inductive Takes (fields : List (FieldReader ρ)) :
    Quoted × Tree → List String → ρ → List String → ρ → Prop where
  | unknown {key : Quoted} {tree : Tree} {name : String} {seen : List String} {record : ρ}
      (named : key.text = .ok name) (missing : fields.find? (·.key = name) = none)
      (skipped : tree.skim = .ok ()) : Takes fields (key, tree) seen record seen record
  | known {key : Quoted} {tree : Tree} {name : String} {field : FieldReader ρ}
      {seen : List String} {record next : ρ} (named : key.text = .ok name)
      (found : fields.find? (·.key = name) = some field) (fresh : name ∉ seen)
      (changed : field.read tree record = .ok next) :
      Takes fields (key, tree) seen record (name :: seen) next

section Members

variable {fields : List (FieldReader ρ)} {member : Quoted × Tree}
  {trees others : List (Quoted × Tree)} {seen seenToo : List String} {name : String}
  {record result empty : ρ}

/-- The members are taken one after the other. -/
theorem members_cons_eq_ok_iff :
    Reader.members fields (member :: trees) seen record = .ok result ↔
      ∃ after next, Takes fields member seen record after next ∧
        Reader.members fields trees after next = .ok result := by
  obtain ⟨key, tree⟩ := member
  simp only [Reader.members, bind_eq_ok_iff]
  constructor
  · rintro ⟨name, named, read⟩
    cases found : fields.find? (·.key = name) with
    | none =>
        rw [found] at read
        obtain ⟨⟨⟩, skipped, later⟩ := bind_eq_ok_iff.1 read
        exact ⟨seen, record, .unknown named found skipped, later⟩
    | some field =>
        simp only [found] at read
        split_ifs at read with repeated
        obtain ⟨next, changed, later⟩ := bind_eq_ok_iff.1 read
        exact ⟨name :: seen, next, .known named found repeated changed, later⟩
  · rintro ⟨after, next, taken, later⟩
    cases taken with
    | @unknown _ _ name _ _ named missing skipped =>
        refine ⟨name, named, ?_⟩
        simp only [missing, skipped]
        exact later
    | @known _ _ name _ _ _ _ named found fresh changed =>
        refine ⟨name, named, ?_⟩
        simp only [found, if_neg fresh, changed]
        exact later

/-- The keys that were seen matter only for the key of the member. -/
theorem Takes.congr {after : List String} {next : ρ}
    (taken : Takes fields member seen record after next)
    (same : ∀ name, member.1.text = .ok name → (name ∈ seen ↔ name ∈ seenToo)) :
    ∃ afterToo, Takes fields member seenToo record afterToo next ∧
      ∀ name, (name ∈ seen ↔ name ∈ seenToo) → (name ∈ after ↔ name ∈ afterToo) := by
  cases taken with
  | unknown named missing skipped =>
      exact ⟨seenToo, .unknown named missing skipped, fun _ equal => equal⟩
  | known named found fresh changed =>
      refine ⟨_, .known named found (mt (same _ named).2 fresh) changed, fun other equal => ?_⟩
      rw [List.mem_cons, List.mem_cons, equal]

theorem members_congr
    (same : ∀ member ∈ trees, ∀ name, member.1.text = .ok name →
      (name ∈ seen ↔ name ∈ seenToo))
    (read : Reader.members fields trees seen record = .ok result) :
    Reader.members fields trees seenToo record = .ok result := by
  induction trees generalizing seen seenToo record with
  | nil => exact read
  | cons member trees inductionHypothesis =>
      obtain ⟨first, later⟩ := List.forall_mem_cons.1 same
      obtain ⟨after, next, taken, rest⟩ := members_cons_eq_ok_iff.1 read
      obtain ⟨afterToo, takenToo, equal⟩ := taken.congr first
      refine members_cons_eq_ok_iff.2 ⟨afterToo, next, takenToo, ?_⟩
      exact inductionHypothesis
        (fun other inside name named => equal name (later other inside name named)) rest

theorem find?_eq_none_iff : fields.find? (·.key = name) = none ↔ name ∉ fields.map (·.key) := by
  rw [List.find?_eq_none, List.mem_map]
  simp

/-- A key that was seen does not come again. -/
theorem text_ne_of_mem_seen (known : name ∈ fields.map (·.key)) (repeated : name ∈ seen)
    (read : Reader.members fields trees seen record = .ok result) :
    ∀ member ∈ trees, member.1.text ≠ .ok name := by
  induction trees generalizing seen record with
  | nil => exact List.forall_mem_nil _
  | cons member trees inductionHypothesis =>
      obtain ⟨after, next, taken, later⟩ := members_cons_eq_ok_iff.1 read
      cases taken with
      | unknown named missing _ =>
          refine List.forall_mem_cons.2 ⟨fun same => ?_, inductionHypothesis repeated later⟩
          cases named.symm.trans same
          exact find?_eq_none_iff.1 missing known
      | known named _ fresh _ =>
          refine List.forall_mem_cons.2
            ⟨fun same => ?_, inductionHypothesis (List.mem_cons_of_mem _ repeated) later⟩
          cases named.symm.trans same
          exact fresh repeated

/-- Two members may be taken in the other order, after which the same keys were seen. -/
theorem Takes.swap (commutes : fields.Pairwise FieldReader.Commutes) {second : Quoted × Tree}
    {middle after : List String} {next final : ρ}
    (taken : Takes fields member seen record middle next)
    (takenNext : Takes fields second middle next after final) :
    ∃ middleToo nextToo afterToo, Takes fields second seen record middleToo nextToo ∧
      Takes fields member middleToo nextToo afterToo final ∧
        ∀ name, name ∈ after ↔ name ∈ afterToo := by
  cases taken with
  | unknown named missing skipped =>
      exact ⟨after, final, after, takenNext, .unknown named missing skipped, fun _ => Iff.rfl⟩
  | @known _ _ name field _ _ _ named found fresh changed =>
      cases takenNext with
      | unknown otherNamed missing skipped =>
          exact ⟨seen, record, _, .unknown otherNamed missing skipped,
            .known named found fresh changed, fun _ => Iff.rfl⟩
      | @known _ _ otherName otherField _ _ _ otherNamed otherFound otherFresh otherChanged =>
          obtain ⟨different, otherFresh⟩ := not_or.1 (mt List.mem_cons.2 otherFresh)
          have apart : field ≠ otherField := by
            rintro rfl
            have key : field.key = name := by simpa using List.find?_some found
            have otherKey : field.key = otherName := by simpa using List.find?_some otherFound
            exact different (otherKey.symm.trans key)
          have commute := commutes.forall (List.mem_of_find?_eq_some found)
            (List.mem_of_find?_eq_some otherFound) apart
          obtain ⟨nextToo, otherChanged, changed⟩ := bind_eq_ok_iff.1
            ((commute _ _ _ _).1 (bind_eq_ok_iff.2 ⟨next, changed, otherChanged⟩))
          have fresh : name ∉ otherName :: seen := by simp [fresh, Ne.symm different]
          refine ⟨_, nextToo, _, .known otherNamed otherFound otherFresh otherChanged,
            .known named found fresh changed, fun other => ?_⟩
          simp only [List.mem_cons, or_left_comm]

/-- The members may come in any order. -/
theorem members_perm (commutes : fields.Pairwise FieldReader.Commutes)
    (permuted : trees.Perm others)
    (read : Reader.members fields trees seen record = .ok result) :
    Reader.members fields others seen record = .ok result := by
  induction permuted generalizing seen record with
  | nil => exact read
  | cons member _ inductionHypothesis =>
      obtain ⟨after, next, taken, later⟩ := members_cons_eq_ok_iff.1 read
      exact members_cons_eq_ok_iff.2 ⟨after, next, taken, inductionHypothesis later⟩
  | swap first second rest =>
      obtain ⟨middle, next, taken, read⟩ := members_cons_eq_ok_iff.1 read
      obtain ⟨after, final, takenNext, later⟩ := members_cons_eq_ok_iff.1 read
      obtain ⟨middleToo, nextToo, afterToo, first, second, same⟩ :=
        taken.swap commutes takenNext
      have rest := members_congr (fun _ _ name _ => same name) later
      exact members_cons_eq_ok_iff.2
        ⟨_, _, first, members_cons_eq_ok_iff.2 ⟨_, _, second, rest⟩⟩
  | trans _ _ first second => exact second (first read)

/-- Every key must have a text, also one that is skipped. -/
theorem members_ne_ok (inside : member ∈ trees) (unread : ∀ name, member.1.text ≠ .ok name) :
    Reader.members fields trees seen record ≠ .ok result := by
  induction trees generalizing seen record with
  | nil => cases inside
  | cons first trees inductionHypothesis =>
      intro read
      obtain ⟨after, next, taken, later⟩ := members_cons_eq_ok_iff.1 read
      rcases List.mem_cons.1 inside with rfl | inside
      · cases taken with
        | unknown named => exact unread _ named
        | known named => exact unread _ named
      · exact inductionHypothesis inside later

variable {key : Quoted} {tree other : Tree}

/-- A member with an unknown key may be added or removed. -/
theorem members_cons_unknown_iff (named : key.text = .ok name)
    (unknown : name ∉ fields.map (·.key)) (skipped : tree.skim = .ok ()) :
    Reader.members fields ((key, tree) :: trees) seen record = .ok result ↔
      Reader.members fields trees seen record = .ok result := by
  have missing := find?_eq_none_iff.2 unknown
  rw [members_cons_eq_ok_iff]
  constructor
  · rintro ⟨after, next, taken, later⟩
    cases taken with
    | unknown => exact later
    | known same found =>
        cases named.symm.trans same
        cases missing.symm.trans found
  · exact fun read => ⟨seen, record, .unknown named missing skipped, read⟩

/-- A member with a known key and the value null may be added if the key does not occur. -/
theorem members_cons_null (loose : IsLoose fields empty) (named : key.text = .ok name)
    (known : name ∈ fields.map (·.key)) (absent : ∀ member ∈ trees, member.1.text ≠ .ok name)
    (read : Reader.members fields trees [] empty = .ok result) :
    Reader.members fields ((key, .null) :: trees) [] empty = .ok result := by
  obtain ⟨field, found⟩ := Option.ne_none_iff_exists'.1 (mt find?_eq_none_iff.1 (not_not.2 known))
  have unchanged := loose.null field (List.mem_of_find?_eq_some found)
  refine members_cons_eq_ok_iff.2
    ⟨[name], empty, .known named found (List.not_mem_nil) unchanged, ?_⟩
  refine members_congr (fun member inside other same => ?_) read
  have different : other ≠ name := fun equal => absent member inside (equal ▸ same)
  simp [different]

/-- Such a member may also be removed. -/
theorem members_of_cons_null (loose : IsLoose fields empty) (named : key.text = .ok name)
    (known : name ∈ fields.map (·.key))
    (read : Reader.members fields ((key, .null) :: trees) [] empty = .ok result) :
    Reader.members fields trees [] empty = .ok result := by
  obtain ⟨after, next, taken, later⟩ := members_cons_eq_ok_iff.1 read
  cases taken with
  | unknown => exact later
  | @known _ _ other field _ _ _ same found _ changed =>
      have unchanged := loose.null field (List.mem_of_find?_eq_some found)
      cases unchanged.symm.trans changed
      cases named.symm.trans same
      have absent := text_ne_of_mem_seen known List.mem_cons_self later
      refine members_congr (fun member inside other same => ?_) later
      have different : other ≠ name := fun equal => absent member inside (equal ▸ same)
      simp [different]

/-- A change of a record that only the field of a seen key can notice does not matter for the other
members. -/
theorem members_change {set : ρ → ρ} (repeated : name ∈ seen)
    (ignores : ∀ field ∈ fields, field.key ≠ name → field.Ignores set)
    (read : Reader.members fields trees seen record = .ok result) :
    Reader.members fields trees seen (set record) = .ok (set result) := by
  induction trees generalizing seen record with
  | nil =>
      cases read
      rfl
  | cons member trees inductionHypothesis =>
      obtain ⟨after, next, taken, later⟩ := members_cons_eq_ok_iff.1 read
      cases taken with
      | unknown named missing skipped =>
          exact members_cons_eq_ok_iff.2
            ⟨seen, _, .unknown named missing skipped, inductionHypothesis repeated later⟩
      | @known _ _ other field _ _ _ named found fresh changed =>
          have key : field.key = other := by simpa using List.find?_some found
          have different : field.key ≠ name := fun same => fresh (key ▸ same ▸ repeated)
          have unchanged := ignores field (List.mem_of_find?_eq_some found) different
          refine members_cons_eq_ok_iff.2 ⟨_, set next, .known named found fresh ?_,
            inductionHypothesis (List.mem_cons_of_mem _ repeated) later⟩
          rw [unchanged, changed]
          rfl

/-- A value may be replaced by one that its field reads with a change. -/
theorem members_cons_changes {otherKey : Quoted} {field : FieldReader ρ} {set : ρ → ρ}
    (named : key.text = .ok name) (otherNamed : otherKey.text = .ok name)
    (found : fields.find? (·.key = name) = some field)
    (changes : ∀ record, Changes (field.read · record) set tree other)
    (ignores : ∀ field ∈ fields, field.key ≠ name → field.Ignores set)
    (read : Reader.members fields ((key, tree) :: trees) seen record = .ok result) :
    Reader.members fields ((otherKey, other) :: trees) seen record = .ok (set result) := by
  obtain ⟨after, next, taken, later⟩ := members_cons_eq_ok_iff.1 read
  cases taken with
  | unknown same missing =>
      cases named.symm.trans same
      cases missing.symm.trans found
  | known same sameField fresh changed =>
      cases named.symm.trans same
      cases found.symm.trans sameField
      exact members_cons_eq_ok_iff.2 ⟨_, set next,
        .known otherNamed found fresh (changes _ _ changed),
        members_change List.mem_cons_self ignores later⟩

/-- A value may be replaced by one that its field reads in the same way. -/
theorem members_cons_follows {otherKey : Quoted} {field : FieldReader ρ}
    (named : key.text = .ok name) (otherNamed : otherKey.text = .ok name)
    (found : fields.find? (·.key = name) = some field)
    (follows : ∀ record, Follows (field.read · record) tree other)
    (read : Reader.members fields ((key, tree) :: trees) seen record = .ok result) :
    Reader.members fields ((otherKey, other) :: trees) seen record = .ok result := by
  refine members_cons_changes named otherNamed found follows (fun field _ _ tree record => ?_) read
  rw [id_eq]
  cases field.read tree record <;> rfl

end Members

section Changes

variable {reader : Reader α} {change : α → α} {tree other : Tree} {items others : List Tree}
  {ending : Option Fault}

/-- A record changes when its members do. -/
theorem changes_record {fields : List (FieldReader ρ)} {empty : ρ} {set : ρ → ρ}
    {trees changed : List (Quoted × Tree)}
    (inside : ∀ result, Reader.members fields trees [] empty = .ok result →
      Reader.members fields changed [] empty = .ok (set result)) :
    Changes (record fields empty) set (.object trees ending) (.object changed ending) := by
  intro result read
  obtain ⟨found, taken, ended⟩ := bind_eq_ok_iff.1 read
  obtain ⟨_, finished, same⟩ := bind_eq_ok_iff.1 ended
  cases same
  exact bind_eq_ok_iff.2 ⟨set result, inside result taken, bind_eq_ok_iff.2 ⟨_, finished, rfl⟩⟩

/-- A list changes at a place when the item of this place does and the others are the same. -/
theorem changes_list (changes : Changes reader change tree other) (front back : List Tree) :
    Changes (list reader) (fun values => values.modify front.length change)
      (.array (front ++ tree :: back) ending) (.array (front ++ other :: back) ending) := by
  have items (values : List α) (read : Reader.items reader (front ++ tree :: back) = .ok values) :
      Reader.items reader (front ++ other :: back) =
        .ok (values.modify front.length change) := by
    induction front generalizing values with
    | nil =>
        obtain ⟨value, first, later⟩ := bind_eq_ok_iff.1 read
        obtain ⟨values, rest, same⟩ := bind_eq_ok_iff.1 later
        cases same
        exact bind_eq_ok_iff.2 ⟨_, changes value first, bind_eq_ok_iff.2 ⟨values, rest, rfl⟩⟩
    | cons item front inductionHypothesis =>
        obtain ⟨value, first, later⟩ := bind_eq_ok_iff.1 read
        obtain ⟨values, rest, same⟩ := bind_eq_ok_iff.1 later
        cases same
        exact bind_eq_ok_iff.2
          ⟨value, first, bind_eq_ok_iff.2 ⟨_, inductionHypothesis values rest, rfl⟩⟩
  intro value read
  obtain ⟨found, taken, ended⟩ := bind_eq_ok_iff.1 read
  obtain ⟨_, finished, same⟩ := bind_eq_ok_iff.1 ended
  cases same
  exact bind_eq_ok_iff.2 ⟨_, items _ taken, bind_eq_ok_iff.2 ⟨_, finished, rfl⟩⟩

/-- An array is not null. -/
theorem changes_optional
    (changes : Changes reader change (.array items ending) (.array others ending)) :
    Changes (optional reader) (Option.map change) (.array items ending) (.array others ending) := by
  intro value read
  obtain ⟨found, taken, rfl⟩ := map_eq_ok_iff.1 read
  exact map_eq_ok_iff.2 ⟨_, changes found taken, rfl⟩

theorem changes_listOrNull {change : List α → List α}
    (changes : Changes (list reader) change (.array items ending) (.array others ending)) :
    Changes (listOrNull reader) change (.array items ending) (.array others ending) := by
  intro value read
  obtain ⟨found, taken, rfl⟩ := map_eq_ok_iff.1 read
  have changed := changes_optional changes found taken
  obtain ⟨values, listed, rfl⟩ := map_eq_ok_iff.1 taken
  exact map_eq_ok_iff.2 ⟨_, changed, rfl⟩

/-- A field changes the record when its reader changes the part of the record. -/
theorem changes_of {key : String} {replace : α → ρ → ρ} {set : ρ → ρ}
    (changes : Changes reader change tree other)
    (same : ∀ value record, replace (change value) record = set (replace value record))
    (record : ρ) :
    Changes ((FieldReader.of key reader replace).read · record) set tree other := by
  intro value read
  obtain ⟨found, taken, rfl⟩ := map_eq_ok_iff.1 read
  exact map_eq_ok_iff.2 ⟨_, changes found taken, same found record⟩

/-- A list follows another one when one of its items does and the others are the same. -/
theorem follows_list (follows : Follows reader tree other) (front back : List Tree) :
    Follows (list reader) (.array (front ++ tree :: back) ending)
      (.array (front ++ other :: back) ending) := by
  intro value read
  have changed := changes_list follows front back value read
  simpa only [List.modify_id, id_eq] using changed

theorem follows_optional
    (follows : Follows reader (.array items ending) (.array others ending)) :
    Follows (optional reader) (.array items ending) (.array others ending) := by
  intro value read
  have changed := changes_optional follows value read
  rwa [Option.map_id] at changed

theorem follows_of {key : String} {replace : α → ρ → ρ} (follows : Follows reader tree other)
    (record : ρ) : Follows ((FieldReader.of key reader replace).read · record) tree other :=
  changes_of follows (fun value record => Eq.refl (replace value record)) record

end Changes

end Reader

end SemanticQuery.Json
