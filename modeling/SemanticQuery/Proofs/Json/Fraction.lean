/-
This file shows that a number with a fraction or an exponent is never read as an integer.
-/

import Mathlib.Data.List.TakeWhile
import SemanticQuery.Proofs.Json.Parsing

namespace SemanticQuery.Json

namespace Numeral

variable {numeral result : Numeral} {text : List Char}

/-- Only an exponent can stand between the digits and the end. The fraction is not changed. -/
theorem parts_of_scanAfterDigits (scanned : scanAfterDigits numeral text = .ok (result, [])) :
    result.fraction = numeral.fraction ∧ (text ≠ [] → result.exponent.isNone = false) := by
  have power {rest : List Char} (scanned : scanExponent numeral rest = .ok (result, [])) :
      result.fraction = numeral.fraction ∧ result.exponent.isNone = false := by
    simp only [scanExponent] at scanned
    split at scanned
    · cases scanned
    · obtain ⟨rfl, -⟩ := Prod.mk.inj (Except.ok.inj scanned)
      exact ⟨rfl, rfl⟩
  unfold scanAfterDigits at scanned
  split at scanned
  · exact (power scanned).imp id fun some _ => some
  · exact (power scanned).imp id fun some _ => some
  · cases scanned
    exact ⟨rfl, fun some => absurd rfl some⟩

/-- Whatever stands behind the whole digits is a fraction or an exponent. -/
theorem isReal_of_scanAfterWhole (some : text ≠ [])
    (scanned : scanAfterWhole numeral text = .ok (result, [])) :
    (result.fraction.isEmpty && result.exponent.isNone) = false := by
  unfold scanAfterWhole at scanned
  split at scanned
  · simp only at scanned
    split at scanned
    · cases scanned
    · next filled =>
        have same := (parts_of_scanAfterDigits scanned).1
        rw [same, Bool.eq_false_iff.2 filled, Bool.false_and]
  · rw [(parts_of_scanAfterDigits scanned).2 some, Bool.and_false]

/-- A sign and digits alone have no such character. -/
theorem isReal_of_scan (scanned : scan text = .ok (result, []))
    (fractional : ∃ character ∈ text, character ∈ ['.', 'e', 'E']) :
    (result.fraction.isEmpty && result.exponent.isNone) = false := by
  obtain ⟨character, inside, letter⟩ := fractional
  have noDigit : character.isDigit = false ∧ character ≠ '-' := by
    simp only [List.mem_cons, List.not_mem_nil, or_false] at letter
    rcases letter with rfl | rfl | rfl <;> decide
  have unsigned {negative : Bool} {rest : List Char} (inside : character ∈ rest)
      (scanned : scanWhole negative rest = .ok (result, [])) :
      (result.fraction.isEmpty && result.exponent.isNone) = false := by
    have behind : rest.dropWhile Char.isDigit ≠ [] := fun none => by
      have digit := List.dropWhile_eq_nil_iff.1 none character inside
      rw [noDigit.1] at digit
      cases digit
    simp only [scanWhole] at scanned
    split at scanned
    · cases scanned
    · split at scanned
      · cases scanned
      · exact isReal_of_scanAfterWhole behind scanned
  unfold scan at scanned
  split at scanned
  · exact unsigned ((List.mem_cons.1 inside).resolve_left noDigit.2) scanned
  · exact unsigned inside scanned

/-- A number with a fraction or an exponent is a double whenever it has a value. -/
theorem exists_real_of_value
    (isReal : (numeral.fraction.isEmpty && numeral.exponent.isNone) = false) {number : Number}
    (read : numeral.value = .ok number) :
    ∃ value finite, number = .real value finite := by
  have finite {value : Float} (read : finite? value = .ok number) :
      ∃ value finite, number = .real value finite := by
    unfold finite? at read
    split at read
    · next isFinite => exact ⟨value, isFinite, (Except.ok.inj read).symm⟩
    · cases read
  simp only [value, isReal, Bool.false_and, Bool.false_eq_true, if_false] at read
  split at read
  · cases read
  · exact finite read

end Numeral

/-- A number of the grammar with a fraction or an exponent is read as a double, if it is read. -/
theorem exists_real_of_readText {token : String} (number : Grammar.IsNumber token.toList)
    (fractional : ∃ character ∈ token.toList, character ∈ ['.', 'e', 'E']) {room : Nat}
    {value : Value} (accepted : readText (Tree.value room) token = .ok value) :
    ∃ double finite, value = .number (.real double finite) := by
  obtain ⟨numeral, scanned⟩ := Numeral.exists_scan number
  have whole := scanned [] endsNumber_nil
  rw [List.append_nil] at whole
  have tree := (Parses.single (Token.Spells.ofScan scanned) fun _ => rfl).ofText
  rw [String.ofList_toList] at tree
  obtain ⟨read, present, _, _, rfl⟩ := by
    simpa only [readText, bind_eq_ok_iff, pure_eq_ok_iff] using accepted
  rw [tree] at present
  obtain ⟨found, isFound, rfl⟩ := map_eq_ok_iff.1 present
  obtain ⟨double, finite, rfl⟩ :=
    Numeral.exists_real_of_value (Numeral.isReal_of_scan whole fractional) isFound
  exact ⟨double, finite, rfl⟩

end SemanticQuery.Json
