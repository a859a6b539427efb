/-
This file shows that a written string is read back. Its characters are scanned one by one, up to the
closing quote, and then they are decoded.
-/

import Mathlib.Tactic.Common
import SemanticQuery.Json.Quoted
import SemanticQuery.Proofs.Result

namespace SemanticQuery.Json

/-- These characters are written by their number. -/
def isNumbered (character : Char) : Bool :=
  character < ' ' && character ∉ ['\x08', '\x0c', '\n', '\r', '\t']

/-- A written character is scanned as this piece. -/
def Piece.ofChar (character : Char) : Piece :=
  if isNumbered character then .unit character.toNat else .char character

namespace Quoted

/-- A written text is scanned as this string. -/
def ofText (text : String) : Quoted := ⟨text.toList.map .ofChar, none⟩

/-- The characters that are written by their number are few. -/
theorem mem_range_of_isNumbered {character : Char} (numbered : isNumbered character = true) :
    ∃ code ∈ List.range 32, character = Char.ofNat code := by
  simp only [isNumbered, Bool.and_eq_true, decide_eq_true_eq] at numbered
  have below : character.toNat < 32 := numbered.1
  exact ⟨character.toNat, List.mem_range.2 below, (Char.ofNat_toNat character).symm⟩

/-- The number of such a character is read from its last two digits. -/
theorem scan_numbered {character : Char} (rest : List Char)
    (numbered : isNumbered character = true) :
    scan (escapeForm character ++ rest) = cons (.unit character.toNat) (scan rest) := by
  have digits : ∀ code ∈ List.range 32, isNumbered (Char.ofNat code) = true →
      escapeForm (Char.ofNat code) =
          ['\\', 'u', '0', '0', Nat.digitChar (code / 16), Nat.digitChar (code % 16)] ∧
        unit? '0' '0' (Nat.digitChar (code / 16)) (Nat.digitChar (code % 16)) =
          some (Char.ofNat code).toNat := by decide
  obtain ⟨code, below, rfl⟩ := mem_range_of_isNumbered numbered
  obtain ⟨form, number⟩ := digits code below numbered
  rw [form]
  simp only [List.cons_append, List.nil_append, scan, number]

/-- A character that needs no escape is scanned as itself. -/
theorem scan_plain {character : Char} (rest : List Char) (notQuote : character ≠ '"')
    (notEscape : character ≠ '\\') (visible : ¬character < ' ') :
    scan (character :: rest) = cons (.char character) (scan rest) := by
  rw [scan, if_neg visible]
  all_goals simp_all

/-- Every other character stands for itself or is escaped by one letter. -/
theorem scan_unnumbered {character : Char} (rest : List Char)
    (unnumbered : isNumbered character = false) :
    scan (escapeForm character ++ rest) = cons (.char character) (scan rest) := by
  unfold escapeForm
  split
  · rfl
  · rfl
  · rfl
  · rfl
  · rfl
  · rfl
  · rfl
  · next notQuote notEscape notBack notFeed notLine notReturn notTab =>
      have visible : ¬character < ' ' := by
        intro small
        simp [isNumbered, small] at unnumbered
        tauto
      rw [if_neg visible]
      exact scan_plain rest notQuote notEscape visible

/-- A written character is scanned as one piece. -/
theorem scan_escapeForm (character : Char) (rest : List Char) :
    scan (escapeForm character ++ rest) = cons (.ofChar character) (scan rest) := by
  cases numbered : isNumbered character with
  | true =>
      rw [scan_numbered rest numbered, Piece.ofChar, if_pos numbered]
  | false =>
      rw [scan_unnumbered rest numbered, Piece.ofChar, if_neg (by simp [numbered])]

/-- The scan of a written text stops behind its closing quote. -/
theorem scan_text (text : String) (rest : List Char) :
    scan (text.toList.flatMap escapeForm ++ '"' :: rest) = (ofText text, rest) := by
  unfold ofText
  induction text.toList with
  | nil => rfl
  | cons character characters inductionHypothesis =>
      rw [List.flatMap_cons, List.append_assoc, scan_escapeForm, inductionHypothesis]
      rfl

/-- A unit that belongs to no pair is decoded as its own character. -/
theorem decode_unit {code : Nat} (notHigh : isHigh code = false) (notLow : isLow code = false)
    (rest : List Piece) :
    decode none (.unit code :: rest) = (decode none rest).map (Char.ofNat code :: ·) := by
  match rest with
  | [] => simp [decode, notHigh, notLow, Except.map]
  | .char next :: rest => simp [decode, notHigh, notLow]
  | .unit next :: rest => simp [decode, notHigh, notLow]

/-- A piece that was written for a character is decoded as that character. -/
theorem decode_ofChar (character : Char) (rest : List Piece) :
    decode none (.ofChar character :: rest) = (decode none rest).map (character :: ·) := by
  cases numbered : isNumbered character with
  | false => simp [Piece.ofChar, numbered, decode]
  | true =>
      obtain ⟨code, below, rfl⟩ := mem_range_of_isNumbered numbered
      have single : ∀ code ∈ List.range 32, isHigh (Char.ofNat code).toNat = false ∧
          isLow (Char.ofNat code).toNat = false := by decide
      obtain ⟨notHigh, notLow⟩ := single code below
      rw [Piece.ofChar, if_pos numbered, decode_unit notHigh notLow, Char.ofNat_toNat]

/-- A written text is read back. -/
theorem text_ofText (value : String) : (ofText value).text = .ok value := by
  have decoded (characters : List Char) :
      decode none (characters.map .ofChar) = .ok characters := by
    induction characters with
    | nil => rfl
    | cons character characters inductionHypothesis =>
        rw [List.map_cons, decode_ofChar, inductionHypothesis]
        rfl
  rw [text, ofText, decoded]
  exact congrArg Except.ok String.ofList_toList

end Quoted

end SemanticQuery.Json
