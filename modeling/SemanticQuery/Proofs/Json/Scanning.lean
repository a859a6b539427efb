/-
This file shows that every number and every string of the grammar is scanned as one token, and says
which text a string denotes.
-/

import SemanticQuery.Proofs.Json.Layout

namespace SemanticQuery.Json

namespace Numeral

open Grammar (IsDigits IsExponent IsFraction IsNumber)

variable {text : List Char}

/-- An exponent is scanned up to its end, and may be missing. -/
theorem exists_scanAfterDigits (numeral : Numeral) (scaled : IsExponent text) :
    ∃ result, ∀ rest, EndsNumber rest →
      scanAfterDigits numeral (text ++ rest) = .ok (result, rest) := by
  cases scaled with
  | none => exact ⟨numeral, fun _ ends => scanAfterDigits_ends numeral ends⟩
  | @power letter sign digits letters signs power =>
      have scanned : ∃ negative, ∀ rest,
          exponentSign (sign ++ digits ++ rest) = (negative, digits ++ rest) := by
        simp only [List.mem_cons, List.not_mem_nil, or_false] at signs
        rcases signs with rfl | rfl | rfl
        · exact ⟨false, exponentSign_digits power⟩
        · exact ⟨false, fun _ => rfl⟩
        · exact ⟨true, fun _ => rfl⟩
      obtain ⟨negative, signed⟩ := scanned
      let size := Nat.ofDigitChars 10 digits 0
      refine ⟨{ numeral with exponent := some (if negative then -(size : Int) else size) },
        fun rest ends => ?_⟩
      have whole := scanExponent_digits numeral power rfl (signed rest) ends
      simp only [List.mem_cons, List.not_mem_nil, or_false] at letters
      rcases letters with rfl | rfl <;> exact whole

/-- No digit follows at the start of an exponent or behind a missing one. -/
theorem isDigit_head?_exponent (scaled : IsExponent text) {rest : List Char}
    (ends : EndsNumber rest) :
    ∀ next ∈ (text ++ rest).head?, next.isDigit = false ∧ next ≠ '.' := by
  cases scaled with
  | none =>
      intro next first
      obtain ⟨noDigit, other⟩ := ends next first
      exact ⟨noDigit, by rintro rfl; exact other List.mem_cons_self⟩
  | power letters _ _ =>
      intro next first
      cases first
      simp only [List.mem_cons, List.not_mem_nil, or_false] at letters
      rcases letters with rfl | rfl <;> decide

/-- A number of the grammar is scanned as a numeral, up to its end. -/
theorem exists_scan (number : IsNumber text) :
    ∃ numeral, ∀ rest, EndsNumber rest → scan (text ++ rest) = .ok (numeral, rest) := by
  obtain @⟨sign, whole, fraction, exponent, signs, digits, noZero, fractional, scaled⟩ := number
  obtain ⟨negative, rfl⟩ : ∃ negative : Bool, sign = if negative then ['-'] else [] := by
    simp only [List.mem_cons, List.not_mem_nil, or_false] at signs
    rcases signs with rfl | rfl
    · exact ⟨false, rfl⟩
    · exact ⟨true, rfl⟩
  obtain ⟨places, behind, rfl⟩ : ∃ places, (∀ digit ∈ places, digit.isDigit = true) ∧
      fraction = Layout.fractionText places := by
    cases fractional with
    | none => exact ⟨[], List.forall_mem_nil _, rfl⟩
    | point fraction => exact ⟨_, fraction.digits, (Layout.fractionText_of_ne fraction.some).symm⟩
  have decimal : IsDecimal ⟨negative, whole, places, none⟩ := ⟨digits, noZero, behind⟩
  obtain ⟨numeral, scanned⟩ := exists_scanAfterDigits ⟨negative, whole, places, none⟩ scaled
  refine ⟨numeral, fun rest ends => ?_⟩
  have parts := scan_parts decimal (isDigit_head?_exponent scaled ends) (scanned rest ends)
  simpa only [List.append_assoc] using parts

end Numeral

namespace Quoted

/-- The contents of a string are scanned as these pieces, up to the closing quote. -/
def Scans (content : List Char) (pieces : List Piece) : Prop :=
  ∀ rest, scan (content ++ '"' :: rest) = (⟨pieces, none⟩, rest)

namespace Scans

variable {content : List Char} {pieces : List Piece}

theorem nil : Scans [] [] := fun _ => rfl

theorem plain {character : Char} (plain : Grammar.isPlain character = true)
    (scans : Scans content pieces) : Scans (character :: content) (.char character :: pieces) := by
  simp only [Grammar.isPlain, Bool.and_eq_true, bne_iff_ne, decide_eq_true_eq] at plain
  obtain ⟨⟨notQuote, notEscape⟩, visible⟩ := plain
  intro rest
  rw [List.cons_append, scan_plain _ notQuote notEscape (Char.not_lt.2 visible), scans rest]
  rfl

theorem letter {letter character : Char} (short : shortForm? letter = some character)
    (scans : Scans content pieces) :
    Scans ('\\' :: letter :: content) (.char character :: pieces) := by
  have step (rest : List Char) :
      scan ('\\' :: letter :: rest) = cons (.char character) (scan rest) := by
    unfold shortForm? at short
    split at short <;> cases short <;> rfl
  intro rest
  rw [List.cons_append, List.cons_append, step, scans rest]
  rfl

theorem unit {first second third fourth : Char} {code : Nat}
    (digits : unit? first second third fourth = some code) (scans : Scans content pieces) :
    Scans ('\\' :: 'u' :: first :: second :: third :: fourth :: content)
      (.unit code :: pieces) := by
  intro rest
  simp only [List.cons_append, scan, digits, scans rest]
  rfl

end Scans

/-- A hexadecimal digit has a value. -/
theorem exists_hexValue? {digit : Char} (hex : Grammar.IsHex digit) :
    ∃ value, hexValue? digit = some value := by
  unfold hexValue?
  split_ifs with number small large
  · exact ⟨_, rfl⟩
  · exact ⟨_, rfl⟩
  · exact ⟨_, rfl⟩
  · rcases hex with digit | letter | letter
    · obtain ⟨least, greatest⟩ := Char.isDigit_iff_toNat.1 digit
      exact absurd ⟨least, greatest⟩ number
    · exact absurd letter small
    · exact absurd letter large

theorem exists_unit? {first second third fourth : Char}
    (digits : ∀ digit ∈ [first, second, third, fourth], Grammar.IsHex digit) :
    ∃ code, unit? first second third fourth = some code := by
  simp only [List.forall_mem_cons] at digits
  obtain ⟨firstHex, secondHex, thirdHex, fourthHex, -⟩ := digits
  obtain ⟨_, first⟩ := exists_hexValue? firstHex
  obtain ⟨_, second⟩ := exists_hexValue? secondHex
  obtain ⟨_, third⟩ := exists_hexValue? thirdHex
  obtain ⟨_, fourth⟩ := exists_hexValue? fourthHex
  exact ⟨_, by rw [unit?, first, second, third, fourth]; rfl⟩

/-- Only some letters are a short form. -/
theorem exists_shortForm? {letter : Char}
    (short : letter ∈ ['"', '\\', '/', 'b', 'f', 'n', 'r', 't']) :
    ∃ character, shortForm? letter = some character := by
  have found : ['"', '\\', '/', 'b', 'f', 'n', 'r', 't'].all
      fun letter => (shortForm? letter).isSome := by decide
  exact Option.isSome_iff_exists.1 (List.all_eq_true.1 found letter short)

/-- The contents of a string spell its pieces, one after the other. -/
inductive Encodes : List Char → List Piece → Prop where
  | nil : Encodes [] []
  | plain {character : Char} {content : List Char} {pieces : List Piece}
      (plain : Grammar.isPlain character = true) (rest : Encodes content pieces) :
      Encodes (character :: content) (.char character :: pieces)
  | letter {letter character : Char} {content : List Char} {pieces : List Piece}
      (short : shortForm? letter = some character) (rest : Encodes content pieces) :
      Encodes ('\\' :: letter :: content) (.char character :: pieces)
  | unit {first second third fourth : Char} {code : Nat} {content : List Char}
      {pieces : List Piece} (digits : unit? first second third fourth = some code)
      (rest : Encodes content pieces) :
      Encodes ('\\' :: 'u' :: first :: second :: third :: fourth :: content)
        (.unit code :: pieces)

theorem Encodes.scans {content : List Char} {pieces : List Piece}
    (encodes : Encodes content pieces) : Scans content pieces := by
  induction encodes with
  | nil => exact .nil
  | plain plain _ inductionHypothesis => exact inductionHypothesis.plain plain
  | letter short _ inductionHypothesis => exact inductionHypothesis.letter short
  | unit digits _ inductionHypothesis => exact inductionHypothesis.unit digits

/-- Every string of the grammar has pieces. -/
theorem exists_encodes {content : List Char} (inside : Grammar.IsContent content) :
    ∃ pieces, Encodes content pieces := by
  induction inside with
  | nil => exact ⟨[], .nil⟩
  | plain plain _ inductionHypothesis =>
      obtain ⟨pieces, encodes⟩ := inductionHypothesis
      exact ⟨_, .plain plain encodes⟩
  | letter short _ inductionHypothesis =>
      obtain ⟨pieces, encodes⟩ := inductionHypothesis
      obtain ⟨character, form⟩ := exists_shortForm? short
      exact ⟨_, .letter form encodes⟩
  | unit digits _ inductionHypothesis =>
      obtain ⟨pieces, encodes⟩ := inductionHypothesis
      obtain ⟨code, number⟩ := exists_unit? digits
      exact ⟨_, .unit number encodes⟩

/-- A unit is decoded alone or as the first one of a pair. -/
theorem decode_unit_eq_ok {code : Nat} {pieces : List Piece} {text : List Char}
    (decoded : decode none (.unit code :: pieces) = .ok text) :
    (isHigh code = false ∧ isLow code = false ∧
      ∃ rest, decode none pieces = .ok rest ∧ text = Char.ofNat code :: rest) ∨
    (isHigh code = true ∧ ∃ low later rest, pieces = .unit low :: later ∧ isLow low = true ∧
      decode none later = .ok rest ∧ text = joinPair code low :: rest) := by
  cases high : isHigh code with
  | false =>
      cases low : isLow code with
      | true =>
          rcases pieces with _ | ⟨_ | next, later⟩ <;> simp [decode, high, low] at decoded
      | false =>
          rw [decode_unit high low] at decoded
          obtain ⟨rest, found, rfl⟩ := map_eq_ok_iff.1 decoded
          exact .inl ⟨rfl, rfl, rest, found, rfl⟩
  | true =>
      rcases pieces with _ | ⟨_ | low, later⟩
      · simp [decode, high] at decoded
      · simp [decode, high] at decoded
      · simp only [decode, high, if_true] at decoded
        split_ifs at decoded with isLow
        obtain ⟨rest, found, rfl⟩ := map_eq_ok_iff.1 decoded
        exact .inr ⟨rfl, low, later, rest, rfl, isLow, found, rfl⟩

end Quoted

namespace Grammar

open Quoted (isHigh isLow joinPair shortForm? unit?)

/-- Only these letters stand behind a backslash. -/
theorem mem_of_shortForm? {letter character : Char} (short : shortForm? letter = some character) :
    letter ∈ ['"', '\\', '/', 'b', 'f', 'n', 'r', 't'] := by
  unfold shortForm? at short
  split at short <;> first | decide | cases short

theorem isHex_of_hexValue? {digit : Char} {value : Nat}
    (number : Quoted.hexValue? digit = some value) : IsHex digit := by
  unfold Quoted.hexValue? at number
  split_ifs at number with decimal small large
  · exact .inl (Char.isDigit_iff_toNat.2 decimal)
  · exact .inr (.inl small)
  · exact .inr (.inr large)

theorem isHex_of_unit? {first second third fourth : Char} {code : Nat}
    (number : unit? first second third fourth = some code) :
    ∀ digit ∈ [first, second, third, fourth], IsHex digit := by
  simp only [unit?, Option.bind_eq_bind, Option.bind_eq_some_iff] at number
  obtain ⟨_, first, _, second, _, third, _, fourth, _⟩ := number
  simp [isHex_of_hexValue? first, isHex_of_hexValue? second, isHex_of_hexValue? third,
    isHex_of_hexValue? fourth]

/-- A text is denoted by plain characters, by escapes of one letter, and by the numbers of 16-bit
units. Two units of a pair denote one character, and none of them denotes anything alone. -/
inductive Denotes : List Char → List Char → Prop where
  | nil : Denotes [] []
  | plain {character : Char} {content text : List Char} (plain : isPlain character = true)
      (rest : Denotes content text) : Denotes (character :: content) (character :: text)
  | letter {letter character : Char} {content text : List Char}
      (short : shortForm? letter = some character) (rest : Denotes content text) :
      Denotes ('\\' :: letter :: content) (character :: text)
  | unit {first second third fourth : Char} {code : Nat} {content text : List Char}
      (digits : unit? first second third fourth = some code) (notHigh : isHigh code = false)
      (notLow : isLow code = false) (rest : Denotes content text) :
      Denotes ('\\' :: 'u' :: first :: second :: third :: fourth :: content)
        (Char.ofNat code :: text)
  | pair {first second third fourth fifth sixth seventh eighth : Char} {high low : Nat}
      {content text : List Char} (digits : unit? first second third fourth = some high)
      (isHigh : isHigh high = true) (lowDigits : unit? fifth sixth seventh eighth = some low)
      (isLow : isLow low = true) (rest : Denotes content text) :
      Denotes ('\\' :: 'u' :: first :: second :: third :: fourth ::
        '\\' :: 'u' :: fifth :: sixth :: seventh :: eighth :: content) (joinPair high low :: text)

namespace Denotes

/-- Characters that need no escape denote themselves. -/
theorem of_plain {text : List Char} (plain : text.all isPlain = true) : Denotes text text := by
  induction text with
  | nil => exact .nil
  | cons character text inductionHypothesis =>
      rw [List.all_cons, Bool.and_eq_true] at plain
      exact .plain plain.1 (inductionHypothesis plain.2)

/-- What a string denotes is what is read from its pieces. -/
theorem exists_encodes {content text : List Char} (denotes : Denotes content text) :
    ∃ pieces, Quoted.Encodes content pieces ∧ Quoted.decode none pieces = .ok text := by
  induction denotes with
  | nil => exact ⟨[], .nil, rfl⟩
  | plain plain _ inductionHypothesis =>
      obtain ⟨pieces, encodes, decoded⟩ := inductionHypothesis
      exact ⟨_, .plain plain encodes, by rw [Quoted.decode, decoded]; rfl⟩
  | letter short _ inductionHypothesis =>
      obtain ⟨pieces, encodes, decoded⟩ := inductionHypothesis
      exact ⟨_, .letter short encodes, by rw [Quoted.decode, decoded]; rfl⟩
  | unit digits notHigh notLow _ inductionHypothesis =>
      obtain ⟨pieces, encodes, decoded⟩ := inductionHypothesis
      exact ⟨_, .unit digits encodes, by rw [Quoted.decode_unit notHigh notLow, decoded]; rfl⟩
  | pair digits isHigh lowDigits isLow _ inductionHypothesis =>
      obtain ⟨pieces, encodes, decoded⟩ := inductionHypothesis
      refine ⟨_, .unit digits (.unit lowDigits encodes), ?_⟩
      rw [Quoted.decode, if_pos isHigh, if_pos isLow, decoded]
      rfl

/-- What is read from its pieces is what a string denotes. A pair takes two pieces at once, so the
induction is on the length of the contents. -/
theorem of_decode {content text : List Char} {pieces : List Piece}
    (encodes : Quoted.Encodes content pieces) (decoded : Quoted.decode none pieces = .ok text) :
    Denotes content text := by
  induction size : content.length using Nat.strong_induction_on
    generalizing content pieces text with
  | _ size inductionHypothesis =>
      cases encodes with
      | nil =>
          cases decoded
          exact .nil
      | plain plain rest =>
          obtain ⟨text, later, rfl⟩ := map_eq_ok_iff.1 decoded
          simp only [List.length_cons] at size
          exact .plain plain (inductionHypothesis _ (by omega) rest later rfl)
      | letter short rest =>
          obtain ⟨text, later, rfl⟩ := map_eq_ok_iff.1 decoded
          simp only [List.length_cons] at size
          exact .letter short (inductionHypothesis _ (by omega) rest later rfl)
      | unit digits rest =>
          rcases Quoted.decode_unit_eq_ok decoded with ⟨notHigh, notLow, text, later, rfl⟩ |
            ⟨high, low, pieces, text, rfl, isLow, later, rfl⟩
          · simp only [List.length_cons] at size
            exact .unit digits notHigh notLow
              (inductionHypothesis _ (by omega) rest later rfl)
          · cases rest with
            | unit lowDigits rest =>
                simp only [List.length_cons] at size
                exact .pair digits high lowDigits isLow
                  (inductionHypothesis _ (by omega) rest later rfl)

/-- Only the contents of a string denote something. -/
theorem isContent {content text : List Char} (denotes : Denotes content text) :
    IsContent content := by
  induction denotes with
  | nil => exact .nil
  | plain plain _ inductionHypothesis => exact .plain plain inductionHypothesis
  | letter short _ inductionHypothesis =>
      exact .letter (mem_of_shortForm? short) inductionHypothesis
  | unit digits _ _ _ inductionHypothesis => exact .unit (isHex_of_unit? digits) inductionHypothesis
  | pair digits _ lowDigits _ _ inductionHypothesis =>
      exact .unit (isHex_of_unit? digits) (.unit (isHex_of_unit? lowDigits) inductionHypothesis)

/-- A string has a text if and only if it denotes one. -/
theorem iff_text {content : List Char} (inside : IsContent content) {name : String} :
    Denotes content name.toList ↔ (Quoted.scan (content ++ ['"'])).1.text = .ok name := by
  obtain ⟨pieces, encodes⟩ := Quoted.exists_encodes inside
  have scanned : Quoted.scan (content ++ ['"']) = (⟨pieces, none⟩, []) := encodes.scans []
  rw [scanned, Quoted.text, map_eq_ok_iff]
  constructor
  · intro denotes
    obtain ⟨others, encodesToo, decoded⟩ := denotes.exists_encodes
    cases scanned.symm.trans (encodesToo.scans [])
    exact ⟨name.toList, decoded, String.ofList_toList⟩
  · rintro ⟨text, decoded, rfl⟩
    exact String.toList_ofList ▸ of_decode encodes decoded

end Denotes

end Grammar

namespace Token.Spells

theorem isNumber {text : List Char} (number : Grammar.IsNumber text) :
    ∃ numeral, Spells text [.number numeral] := by
  obtain ⟨numeral, scanned⟩ := Numeral.exists_scan number
  exact ⟨numeral, ofScan scanned⟩

/-- The key of a member is one token. -/
theorem key {content : List Char} (inside : Grammar.IsContent content) :
    Spells ('"' :: (content ++ ['"'])) [.string (Quoted.scan (content ++ ['"'])).1] := by
  obtain ⟨pieces, encodes⟩ := Quoted.exists_encodes inside
  have scanned : Quoted.scan (content ++ ['"']) = (⟨pieces, none⟩, []) := encodes.scans []
  rw [scanned]
  exact quoted encodes.scans

/-- So is any string of the grammar. -/
theorem isString {text : List Char} (string : Grammar.IsString text) :
    ∃ pieces, Spells text [.string ⟨pieces, none⟩] := by
  obtain ⟨inside⟩ := string
  obtain ⟨pieces, encodes⟩ := Quoted.exists_encodes inside
  exact ⟨pieces, quoted encodes.scans⟩

end Token.Spells

end SemanticQuery.Json
