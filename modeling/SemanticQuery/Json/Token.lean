/-
This file scans the tokens of a JSON text.
-/

import SemanticQuery.Json.Numeral
import SemanticQuery.Json.Quoted

namespace SemanticQuery.Json

/-- A token may be faulty. The scan ends behind the first token without a known end. -/
inductive Token where
  | openObject
  | closeObject
  | openArray
  | closeArray
  | colon
  | comma
  | null
  | boolean (value : Bool)
  | number (numeral : Numeral)
  /-- The digits that a number needs are missing. -/
  | brokenNumber (fault : Fault)
  | string (quoted : Quoted)
  /-- No token starts here, or a word is misspelled. -/
  | stray (fault : Fault)
deriving DecidableEq

namespace Token

/-- Only these four characters may stand between tokens. -/
def isSpace (character : Char) : Bool :=
  character == ' ' || character == '\t' || character == '\n' || character == '\r'

/-- The rest of a word must follow its first letter. -/
def scanWord (token : Token) : List Char → List Char → Token × List Char
  | [], text => (token, text)
  | _ :: _, [] => (.stray .truncated, [])
  | letter :: word, character :: text =>
      if character = letter then scanWord token word text else (.stray .malformed, [])

/-- A token is scanned from its first character. Nothing is left behind a faulty one. -/
def scanFrom (first : Char) (rest : List Char) : Token × List Char :=
  match first with
  | '{' => (.openObject, rest)
  | '}' => (.closeObject, rest)
  | '[' => (.openArray, rest)
  | ']' => (.closeArray, rest)
  | ':' => (.colon, rest)
  | ',' => (.comma, rest)
  | '"' => ((.string (Quoted.scan rest).1), (Quoted.scan rest).2)
  | 'n' => scanWord .null ['u', 'l', 'l'] rest
  | 't' => scanWord (.boolean true) ['r', 'u', 'e'] rest
  | 'f' => scanWord (.boolean false) ['a', 'l', 's', 'e'] rest
  | other =>
      if other = '-' ∨ other.isDigit then
        match Numeral.scan (other :: rest) with
        | .ok (numeral, after) => (.number numeral, after)
        | .error fault => (.brokenNumber fault, [])
      else (.stray .malformed, [])

theorem length_scanWord_le (token : Token) (word text : List Char) :
    (scanWord token word text).2.length ≤ text.length := by
  induction word generalizing text with
  | nil => exact Nat.le_refl _
  | cons letter word inductionHypothesis =>
      cases text with
      | nil => exact Nat.le_refl _
      | cons character text =>
          simp only [scanWord]
          split
          · exact Nat.le_succ_of_le (inductionHypothesis text)
          · exact Nat.zero_le _

theorem length_scanFrom_le (first : Char) (rest : List Char) :
    (scanFrom first rest).2.length ≤ rest.length := by
  unfold scanFrom
  split <;> try exact Nat.le_refl _
  · exact Quoted.length_scan_le rest
  · exact length_scanWord_le ..
  · exact length_scanWord_le ..
  · exact length_scanWord_le ..
  · split
    · split
      · next scanned => exact Nat.le_of_lt_succ (Numeral.length_scan_lt scanned)
      · exact Nat.zero_le _
    · exact Nat.zero_le _

/-- The tokens of a text come in order, without the space between them. -/
def scan : List Char → List Token
  | [] => []
  | first :: rest =>
      if isSpace first then scan rest
      else (scanFrom first rest).1 :: scan (scanFrom first rest).2
termination_by text => text.length
decreasing_by
  · exact Nat.lt_succ_self _
  · exact Nat.lt_succ_of_le (length_scanFrom_le first rest)

end Token

end SemanticQuery.Json
