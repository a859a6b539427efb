/-
This file shows that the compact and the pretty form of a value have the same tokens. The two forms
differ only in the space between them.
-/

import SemanticQuery.Json.Printer
import SemanticQuery.Json.Token
import SemanticQuery.Proofs.Json.Double
import SemanticQuery.Proofs.Json.Quoted

namespace SemanticQuery.Json

/-- An exact number is an integer. -/
def Number.isExact : Number → Bool
  | .integer _ => true
  | .real .. => false

/-- A number is written as this numeral. Only finite doubles are numbers. -/
def Number.numeral : Number → Numeral
  | .integer value => value.numeral
  | .real value _ =>
      match magnitude value with
      | .finite number => Layout.json.numeral number
      | _ => ⟨false, [], [], none⟩

/-- The text of a number is scanned as its numeral. -/
theorem Number.scan_write (number : Number) {rest : List Char} (ends : EndsNumber rest) :
    Numeral.scan (number.write ++ rest) = .ok (number.numeral, rest) := by
  cases number with
  | integer value => exact Numeral.scan_text value ends
  | real value finite =>
      obtain ⟨exact, same⟩ := (isFinite_iff value).1 finite
      rw [write, numeral, same]
      exact Layout.json.scan_text (.inr rfl) exact ends

namespace Value

mutual

/-- The numbers of an exact value are exact at any depth. -/
def isExact : Value → Bool
  | .number value => value.isExact
  | .array items => areExact items
  | .object members => haveExact members
  | _ => true

/-- All items are exact. -/
def areExact : List Value → Bool
  | [] => true
  | item :: rest => isExact item && areExact rest

/-- All members have exact values. -/
def haveExact : List (String × Value) → Bool
  | [] => true
  | (_, item) :: rest => isExact item && haveExact rest

end

mutual

/-- A value is written by these tokens. -/
def tokens : Value → List Token
  | .null => [.null]
  | .boolean value => [.boolean value]
  | .number value => [.number value.numeral]
  | .string value => [.string (.ofText value)]
  | .array items => .openArray :: itemTokens items ++ [.closeArray]
  | .object members => .openObject :: memberTokens members ++ [.closeObject]

/-- Commas stand between the tokens of items. -/
def itemTokens : List Value → List Token
  | [] => []
  | [item] => tokens item
  | item :: next :: rest => tokens item ++ .comma :: itemTokens (next :: rest)

/-- A key comes before the tokens of its value. -/
def memberTokens : List (String × Value) → List Token
  | [] => []
  | [(key, item)] => .string (.ofText key) :: .colon :: tokens item
  | (key, item) :: next :: rest =>
      .string (.ofText key) :: .colon :: tokens item ++ .comma :: memberTokens (next :: rest)

end

theorem areExact_eq_true_iff {items : List Value} :
    areExact items = true ↔ ∀ item ∈ items, item.isExact = true := by
  induction items with
  | nil => simp [areExact]
  | cons item items inductionHypothesis => simp [areExact, inductionHypothesis]

theorem haveExact_eq_true_iff {members : List (String × Value)} :
    haveExact members = true ↔ ∀ member ∈ members, member.2.isExact = true := by
  induction members with
  | nil => simp [haveExact]
  | cons member members inductionHypothesis =>
      simp only [haveExact, Bool.and_eq_true, inductionHypothesis, List.forall_mem_cons]

end Value

namespace Token

/-- The text is scanned as these tokens in front of everything that ends a number. -/
def Spells (text : List Char) (tokens : List Token) : Prop :=
  ∀ rest, EndsNumber rest → scan (text ++ rest) = tokens ++ scan rest

/-- A character that is no space starts a token. -/
theorem scan_cons {first : Char} (rest : List Char) (visible : isSpace first = false) :
    scan (first :: rest) = (scanFrom first rest).1 :: scan (scanFrom first rest).2 := by
  rw [scan, if_neg (by simp [visible])]

/-- Space ends a number. -/
theorem endsNumber_of_isSpace {character : Char} (rest : List Char)
    (space : isSpace character = true) : EndsNumber (character :: rest) := by
  simp only [isSpace, Bool.or_eq_true, beq_iff_eq] at space
  rcases space with ((rfl | rfl) | rfl) | rfl <;>
    exact endsNumber_cons rest (by decide) (by decide)

/-- A sign or a digit is no space. -/
theorem isSpace_eq_false {first : Char} (start : first = '-' ∨ first.isDigit = true) :
    isSpace first = false := by
  rcases start with rfl | digit
  · decide
  · rw [Bool.eq_false_iff]
    intro space
    have ends := endsNumber_of_isSpace [] space first rfl
    rw [digit] at ends
    cases ends.1

namespace Spells

variable {character : Char} {text front back : List Char} {token : Token}
  {tokens frontTokens backTokens : List Token}

theorem nil : Spells [] [] := fun _ _ => rfl

/-- Texts are scanned one after the other when the second one ends a number, too. -/
theorem append (before : Spells front frontTokens) (after : Spells back backTokens)
    (separated : ∀ rest, EndsNumber rest → EndsNumber (back ++ rest)) :
    Spells (front ++ back) (frontTokens ++ backTokens) := by
  intro rest ends
  rw [List.append_assoc, before _ (separated rest ends), after rest ends, List.append_assoc]

/-- A token of one character may stand in front of other tokens. -/
theorem mark (visible : isSpace character = false)
    (single : ∀ rest, scanFrom character rest = (token, rest)) (after : Spells text tokens) :
    Spells (character :: text) (token :: tokens) := by
  intro rest ends
  rw [List.cons_append, scan_cons _ visible, single, after rest ends, List.cons_append]

/-- Space has no tokens. -/
theorem space (space : isSpace character = true) (after : Spells text tokens) :
    Spells (character :: text) tokens := by
  intro rest ends
  rw [List.cons_append, scan, if_pos space, after rest ends]

/-- What stands behind space still ends a number. -/
theorem append_cons (before : Spells front frontTokens)
    (after : Spells (character :: back) backTokens) (noDigit : character.isDigit = false)
    (other : character ∉ ['.', 'e', 'E']) :
    Spells (front ++ character :: back) (frontTokens ++ backTokens) :=
  before.append after fun _ _ => endsNumber_cons _ noDigit other

/-- A comma separates the tokens on both sides of it. -/
theorem comma (before : Spells front frontTokens) (after : Spells back backTokens) :
    Spells (front ++ ',' :: back) (frontTokens ++ .comma :: backTokens) :=
  before.append_cons (after.mark (by decide) fun _ => rfl) (by decide) (by decide)

/-- Brackets enclose the tokens between them. -/
theorem brackets (inside : Spells text tokens) :
    Spells ('[' :: text ++ [']']) (.openArray :: tokens ++ [.closeArray]) :=
  (inside.append_cons (nil.mark (by decide) fun _ => rfl) (by decide) (by decide)).mark
    (by decide) fun _ => rfl

/-- Braces enclose the tokens between them. -/
theorem braces (inside : Spells text tokens) :
    Spells ('{' :: text ++ ['}']) (.openObject :: tokens ++ [.closeObject]) :=
  (inside.append_cons (nil.mark (by decide) fun _ => rfl) (by decide) (by decide)).mark
    (by decide) fun _ => rfl

/-- Blanks have no tokens. -/
theorem blank {blank : List Char} (blanks : Grammar.IsBlank blank) (after : Spells text tokens) :
    Spells (blank ++ text) tokens := by
  induction blank with
  | nil => exact after
  | cons character blank inductionHypothesis =>
      obtain ⟨first, later⟩ := List.forall_mem_cons.1 blanks
      exact (inductionHypothesis later).space first

/-- Blanks may also stand behind tokens. -/
theorem append_blank {blank : List Char} (before : Spells text tokens)
    (blanks : Grammar.IsBlank blank) : Spells (text ++ blank) tokens := by
  have tokenless : Spells blank [] := by simpa using nil.blank blanks
  have separated (rest : List Char) (ends : EndsNumber rest) : EndsNumber (blank ++ rest) := by
    cases blank with
    | nil => exact ends
    | cons character blank => exact endsNumber_of_isSpace _ (List.forall_mem_cons.1 blanks).1
  simpa using before.append tokenless separated

/-- A new line is blank. -/
theorem isBlank_newLine (level : Nat) : Grammar.IsBlank (Value.newLine level) := by
  intro character inside
  rcases List.mem_cons.1 inside with rfl | indented
  · decide
  · rw [List.eq_of_mem_replicate indented]
    decide

theorem newLine (level : Nat) (after : Spells text tokens) :
    Spells (Value.newLine level ++ text) tokens := after.blank (isBlank_newLine level)

theorem append_newLine (level : Nat) (before : Spells text tokens) :
    Spells (text ++ Value.newLine level) tokens := before.append_blank (isBlank_newLine level)

/-- A string is one token when its scan stops behind the closing quote. -/
theorem quoted {content : List Char} {quoted : Quoted}
    (scanned : ∀ rest, Quoted.scan (content ++ '"' :: rest) = (quoted, rest)) :
    Spells ('"' :: (content ++ ['"'])) [.string quoted] := by
  intro rest _
  rw [List.cons_append, List.append_assoc, List.singleton_append, scan_cons _ (by decide)]
  simp only [scanFrom, scanned]
  rfl

/-- A written string is one token. -/
theorem string (value : String) : Spells (Quoted.write value.toList) [.string (.ofText value)] :=
  quoted (Quoted.scan_text value)

/-- A key and a colon stand in front of a value. -/
theorem colon (key : Spells front [token]) (after : Spells text tokens) :
    Spells (front ++ ':' :: text) (token :: .colon :: tokens) :=
  key.append_cons (after.mark (by decide) fun _ => rfl) (by decide) (by decide)

theorem member (key : String) (after : Spells text tokens) :
    Spells (Quoted.write key.toList ++ ':' :: text) (.string (.ofText key) :: .colon :: tokens) :=
  (string key).colon after

/-- A blank may stand between the colon and the value. -/
theorem spacedMember (key : String) (after : Spells text tokens) :
    Spells (Quoted.write key.toList ++ ':' :: ' ' :: text)
      (.string (.ofText key) :: .colon :: tokens) := by
  have spaced : Spells (' ' :: text) tokens := after.space (by decide)
  exact spaced.member key

/-- A minus sign or a digit starts a number. -/
theorem scanFrom_number {first : Char} (rest : List Char)
    (start : first = '-' ∨ first.isDigit = true) {numeral : Numeral} {after : List Char}
    (scanned : Numeral.scan (first :: rest) = .ok (numeral, after)) :
    scanFrom first rest = (.number numeral, after) := by
  unfold scanFrom
  split
  all_goals first
    | rw [if_pos start, scanned]
    | exact absurd start (by decide)

/-- A text that is scanned as a numeral up to its end is one token. -/
theorem ofScan {numeral : Numeral}
    (scanned : ∀ rest, EndsNumber rest → Numeral.scan (text ++ rest) = .ok (numeral, rest)) :
    Spells text [.number numeral] := by
  intro rest ends
  have whole := scanned [] endsNumber_nil
  rw [List.append_nil] at whole
  obtain ⟨first, others, rfl, start⟩ := Numeral.exists_start whole
  have scanned := scanned rest ends
  rw [List.cons_append] at scanned ⊢
  rw [scan_cons _ (isSpace_eq_false start), scanFrom_number _ start scanned,
    List.singleton_append]

/-- A written number is one token. -/
theorem number (value : Number) : Spells value.write [.number value.numeral] :=
  ofScan fun _ ends => value.scan_write ends

/-- A word is one token. -/
theorem word {first : Char} {rest : List Char} (visible : isSpace first = false)
    (whole : ∀ after, scanFrom first (rest ++ after) = (token, after)) :
    Spells (first :: rest) [token] := by
  intro after _
  rw [List.cons_append, scan_cons _ visible, whole, List.singleton_append]

theorem null : Spells ['n', 'u', 'l', 'l'] [.null] := word (by decide) fun _ => rfl

theorem boolean (value : Bool) : Spells (Value.writeBoolean value) [.boolean value] := by
  have whenTrue : Spells ('t' :: ['r', 'u', 'e']) [.boolean true] :=
    word (by decide) fun _ => rfl
  have whenFalse : Spells ('f' :: ['a', 'l', 's', 'e']) [.boolean false] :=
    word (by decide) fun _ => rfl
  cases value with
  | false => exact whenFalse
  | true => exact whenTrue

end Spells

end Token

namespace Value

open Token (Spells)

mutual

/-- The compact form of a value is scanned as its tokens. -/
theorem spells_compact (value : Value) : Spells value.compact value.tokens := by
  cases value with
  | null => exact .null
  | boolean value => exact .boolean value
  | number value => exact .number value
  | string value => exact .string value
  | array items => exact (spells_compactItems items).brackets
  | object members => exact (spells_compactMembers members).braces

theorem spells_compactItems (items : List Value) :
    Spells (compactItems items) (itemTokens items) := by
  match items with
  | [] => exact .nil
  | [item] => exact spells_compact item
  | item :: next :: rest => exact (spells_compact item).comma (spells_compactItems (next :: rest))

theorem spells_compactMembers (members : List (String × Value)) :
    Spells (compactMembers members) (memberTokens members) := by
  match members with
  | [] => exact .nil
  | [(key, item)] => exact (spells_compact item).member key
  | (key, item) :: next :: rest =>
      exact ((spells_compact item).member key).comma (spells_compactMembers (next :: rest))

end

mutual

/-- The pretty form of a value is scanned as its tokens. -/
theorem spells_pretty (level : Nat) (value : Value) : Spells (value.pretty level) value.tokens := by
  match value with
  | .null => exact .null
  | .boolean value => exact .boolean value
  | .number value => exact .number value
  | .string value => exact .string value
  | .array [] => exact Spells.nil.brackets
  | .array (item :: rest) =>
      have inside := spells_prettyItems (level + 1) (item :: rest)
      exact (inside.append_newLine level).brackets
  | .object [] => exact Spells.nil.braces
  | .object (member :: rest) =>
      have inside := spells_prettyMembers (level + 1) (member :: rest)
      exact (inside.append_newLine level).braces

theorem spells_prettyItems (level : Nat) (items : List Value) :
    Spells (prettyItems level items) (itemTokens items) := by
  match items with
  | [] => exact .nil
  | [item] => exact (spells_pretty level item).newLine level
  | item :: next :: rest =>
      exact ((spells_pretty level item).newLine level).comma
        (spells_prettyItems level (next :: rest))

theorem spells_prettyMembers (level : Nat) (members : List (String × Value)) :
    Spells (prettyMembers level members) (memberTokens members) := by
  match members with
  | [] => exact .nil
  | [(key, item)] =>
      rw [prettyMembers, List.append_assoc]
      exact ((spells_pretty level item).spacedMember key).newLine level
  | (key, item) :: next :: rest =>
      have first := ((spells_pretty level item).spacedMember key).newLine level
      rw [prettyMembers, List.append_assoc (newLine level)]
      exact first.comma (spells_prettyMembers level (next :: rest))

end

end Value

end SemanticQuery.Json
