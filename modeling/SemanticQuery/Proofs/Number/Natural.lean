/-
This file says which texts are natural numbers, with blanks around them or without.
-/

import Mathlib.Data.List.TakeWhile
import SemanticQuery.Number.Natural
import SemanticQuery.Proofs.Json.Grammar

namespace SemanticQuery

namespace Text

/-- The blanks that do not survive stand at both ends. -/
theorem exists_trimList (text : List Char) :
    ∃ before after, text = before ++ trimList text ++ after ∧
      (∀ character ∈ before, isBlank character = true) ∧
      ∀ character ∈ after, isBlank character = true := by
  let rest := text.dropWhile isBlank
  have front : text.takeWhile isBlank ++ rest = text := List.takeWhile_append_dropWhile
  have back : trimList text ++ (rest.reverse.takeWhile isBlank).reverse = rest := by
    rw [trimList, ← List.reverse_append, List.takeWhile_append_dropWhile, List.reverse_reverse]
  refine ⟨text.takeWhile isBlank, (rest.reverse.takeWhile isBlank).reverse, ?_, ?_, ?_⟩
  · rw [List.append_assoc, back, front]
  · exact fun character inside => List.mem_takeWhile_imp inside
  · exact fun character inside => List.mem_takeWhile_imp (List.mem_reverse.1 inside)

/-- Only blanks in front are taken away. -/
theorem dropWhile_isBlank {before middle : List Char} (after : List Char)
    (front : ∀ character ∈ before, isBlank character = true) (some : middle ≠ [])
    (visible : ∀ character ∈ middle, isBlank character = false) :
    (before ++ (middle ++ after)).dropWhile isBlank = middle ++ after := by
  obtain ⟨first, others, rfl⟩ := List.exists_cons_of_ne_nil some
  have start : isBlank first = false := visible first List.mem_cons_self
  rw [List.dropWhile_append_of_pos front, List.cons_append,
    List.dropWhile_cons_of_neg (by simp [start])]

/-- What stands between blanks survives as it is. -/
theorem trimList_append {before middle after : List Char}
    (front : ∀ character ∈ before, isBlank character = true) (some : middle ≠ [])
    (visible : ∀ character ∈ middle, isBlank character = false)
    (back : ∀ character ∈ after, isBlank character = true) :
    trimList (before ++ middle ++ after) = middle := by
  have backwards : (after.reverse ++ (middle.reverse ++ [])).dropWhile isBlank =
      middle.reverse ++ [] :=
    dropWhile_isBlank [] (by simpa using back) (by simpa using some) (by simpa using visible)
  rw [List.append_nil] at backwards
  rw [trimList, List.append_assoc, dropWhile_isBlank after front some visible,
    List.reverse_append, backwards, List.reverse_reverse]

end Text

open Json.Grammar (IsDigits)

/-- A natural number has digits, and possibly a plus sign in front of them. -/
inductive IsNatural : List Char → Nat → Prop where
  | digits {digits : List Char} (whole : IsDigits digits) :
      IsNatural digits (Nat.ofDigitChars 10 digits 0)
  | plus {digits : List Char} (whole : IsDigits digits) :
      IsNatural ('+' :: digits) (Nat.ofDigitChars 10 digits 0)

namespace IsNatural

variable {text : List Char} {value : Nat}

theorem ne_nil (natural : IsNatural text value) : text ≠ [] := by
  cases natural with
  | digits whole => exact whole.some
  | plus whole => exact List.cons_ne_nil _ _

/-- Neither a digit nor a plus sign is blank. -/
theorem isBlank_eq_false (natural : IsNatural text value) :
    ∀ character ∈ text, Text.isBlank character = false := by
  have digit {character : Char} (digit : character.isDigit = true) :
      Text.isBlank character = false := by
    obtain ⟨least, greatest⟩ := Char.isDigit_iff_toNat.1 digit
    have zero : '0'.toNat = 48 := rfl
    have nine : '9'.toNat = 57 := rfl
    simp only [Text.isBlank, Bool.or_eq_false_iff, Bool.and_eq_false_iff, decide_eq_false_iff_not,
      beq_eq_false_iff_ne]
    omega
  cases natural with
  | digits whole => exact fun character inside => digit (whole.digits character inside)
  | plus whole =>
      exact List.forall_mem_cons.2
        ⟨by decide, fun character inside => digit (whole.digits character inside)⟩

/-- A text is read as a natural number when it is one. -/
theorem readNatural?_eq_some_iff : readNatural? text = some value ↔ IsNatural text value := by
  have whole {digits : List Char} : (digits.isEmpty || !digits.all Char.isDigit) = false ↔
      IsDigits digits := by
    rw [Bool.or_eq_false_iff, List.isEmpty_eq_false_iff, Bool.not_eq_false', List.all_eq_true]
    exact ⟨fun parts => ⟨parts.1, parts.2⟩, fun digits => ⟨digits.some, digits.digits⟩⟩
  simp only [readNatural?]
  constructor
  · intro read
    split at read
    · cases read
    · next digits =>
        cases read
        have isDigits := whole.1 (Bool.eq_false_iff.2 digits)
        generalize same : dropPlus text = rest at isDigits
        unfold dropPlus at same
        split at same
        · subst same
          exact .plus isDigits
        · subst same
          exact .digits isDigits
  · intro natural
    cases natural with
    | plus isDigits =>
        have digits := whole.2 isDigits
        simp [dropPlus, digits]
    | digits isDigits =>
        have noSign : dropPlus text = text := by
          unfold dropPlus
          split
          · next rest =>
              have sign := isDigits.digits '+' List.mem_cons_self
              cases sign
          · rfl
        have digits := whole.2 isDigits
        simp [noSign, digits]

end IsNatural

/-- A natural number that 64 bits cannot hold is refused, and every other one stays the same. -/
theorem fitting_eq_some_iff {natural : Nat} {value : UInt64} :
    (if natural < UInt64.size then some (UInt64.ofNat natural) else none) = some value ↔
      natural = value.toNat := by
  have bound := value.toNat_lt
  split
  · next fits => rw [Option.some.injEq, ← UInt64.toNat_inj, UInt64.toNat_ofNat_of_lt' fits]
  · next large =>
      refine iff_of_false (by simp) ?_
      rintro rfl
      exact large bound

theorem readUInt64?_eq_some_iff {text : List Char} {value : UInt64} :
    readUInt64? text = some value ↔ IsNatural text value.toNat := by
  rw [← IsNatural.readNatural?_eq_some_iff, readUInt64?]
  cases readNatural? text with
  | none => simp
  | some natural => rw [Option.some.injEq, ← fitting_eq_some_iff]

/-- Blanks around a natural number have no effect, and no other text is read. -/
theorem readUInt64?_trimList_eq_some_iff {text : List Char} {value : UInt64} :
    readUInt64? (Text.trimList text) = some value ↔
      ∃ before natural after, text = before ++ natural ++ after ∧
        (∀ character ∈ before, Text.isBlank character = true) ∧
        (∀ character ∈ after, Text.isBlank character = true) ∧
        IsNatural natural value.toNat := by
  rw [readUInt64?_eq_some_iff]
  constructor
  · intro natural
    obtain ⟨before, after, same, front, back⟩ := Text.exists_trimList text
    exact ⟨before, _, after, same, front, back, natural⟩
  · rintro ⟨before, natural, after, rfl, front, back, written⟩
    rwa [Text.trimList_append front written.ne_nil written.isBlank_eq_false back]

end SemanticQuery
