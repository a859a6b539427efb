/-
This file scans, decodes and writes JSON strings.
-/

import SemanticQuery.Json.Fault

namespace SemanticQuery.Json

/-- A piece of a string is a character or a 16-bit unit written by its number. -/
inductive Piece where
  | char (character : Char)
  | unit (code : Nat)
deriving DecidableEq

/-- A scanned string ends with its closing quote or with a fault. -/
structure Quoted where
  pieces : List Piece
  ending : Option Fault
deriving DecidableEq

namespace Quoted

/-- A hexadecimal digit may be in either case. -/
def hexValue? (character : Char) : Option Nat :=
  if '0' ≤ character ∧ character ≤ '9' then some (character.toNat - '0'.toNat)
  else if 'a' ≤ character ∧ character ≤ 'f' then some (character.toNat - 'a'.toNat + 10)
  else if 'A' ≤ character ∧ character ≤ 'F' then some (character.toNat - 'A'.toNat + 10)
  else none

/-- Four hexadecimal digits make a unit. -/
def unit? (first second third fourth : Char) : Option Nat := do
  let first ← hexValue? first
  let second ← hexValue? second
  let third ← hexValue? third
  let fourth ← hexValue? fourth
  return ((first * 16 + second) * 16 + third) * 16 + fourth

/-- These characters are escaped by one letter. -/
def shortForm? : Char → Option Char
  | '"' => some '"'
  | '\\' => some '\\'
  | '/' => some '/'
  | 'b' => some '\x08'
  | 'f' => some '\x0c'
  | 'n' => some '\n'
  | 'r' => some '\r'
  | 't' => some '\t'
  | _ => none

/-- A unit needs four bytes of text. Only then are they looked at. -/
def unitFault (text : List Char) : Fault :=
  if (String.ofList text).utf8ByteSize < 4 then .truncated else .malformed

/-- A piece is put in front of a scanned string. -/
def cons (piece : Piece) (scanned : Quoted × List Char) : Quoted × List Char :=
  (⟨piece :: scanned.1.pieces, scanned.1.ending⟩, scanned.2)

/-- The scan starts behind the opening quote. It gives the string and the text after it. -/
def scan : List Char → Quoted × List Char
  | [] => (⟨[], some .truncated⟩, [])
  | '"' :: rest => (⟨[], none⟩, rest)
  | ['\\'] => (⟨[], some .truncated⟩, [])
  | '\\' :: 'u' :: first :: second :: third :: fourth :: rest =>
      match unit? first second third fourth with
      | some code => cons (.unit code) (scan rest)
      | none => (⟨[], some (unitFault (first :: second :: third :: fourth :: rest))⟩, [])
  | '\\' :: letter :: rest =>
      match shortForm? letter with
      | some character => cons (.char character) (scan rest)
      | none => (⟨[], some (if letter = 'u' then unitFault rest else .malformed)⟩, [])
  | character :: rest =>
      if character < ' ' then (⟨[], some .malformed⟩, [])
      else cons (.char character) (scan rest)

theorem length_scan_le (text : List Char) :
    (scan text).2.length ≤ text.length := by
  fun_induction scan text <;> simp_all [cons] <;> omega

/-- The first unit of a pair is in this range. -/
def isHigh (code : Nat) : Bool := 0xD800 ≤ code && code ≤ 0xDBFF

/-- The second unit of a pair is in this range. -/
def isLow (code : Nat) : Bool := 0xDC00 ≤ code && code ≤ 0xDFFF

/-- A pair of units makes one character above the 16-bit range. -/
def joinPair (high low : Nat) : Char :=
  Char.ofNat ((high - 0xD800) * 0x400 + (low - 0xDC00) + 0x10000)

/-- Every unit of a pair must meet the other one, and the ending must be the closing quote. -/
def decode (ending : Option Fault) : List Piece → Except Fault (List Char)
  | [] =>
      match ending with
      | none => .ok []
      | some fault => .error fault
  | .char character :: rest => (decode ending rest).map (character :: ·)
  | [.unit code] =>
      if isHigh code then .error (ending.getD .malformed)
      else if isLow code then .error .malformed
      else
        match ending with
        | none => .ok [Char.ofNat code]
        | some fault => .error fault
  | .unit code :: .char character :: rest =>
      if isHigh code || isLow code then .error .malformed
      else (decode ending (.char character :: rest)).map (Char.ofNat code :: ·)
  | .unit code :: .unit next :: rest =>
      if isHigh code then
        if isLow next then (decode ending rest).map (joinPair code next :: ·)
        else .error .malformed
      else if isLow code then .error .malformed
      else (decode ending (.unit next :: rest)).map (Char.ofNat code :: ·)

/-- The text of a string is known only when it has no fault at all. -/
def text (quoted : Quoted) : Except Fault String :=
  (decode quoted.ending quoted.pieces).map String.ofList

/-- The quote, the backslash and the controls below the space are escaped. -/
def escapeForm (character : Char) : List Char :=
  match character with
  | '"' => ['\\', '"']
  | '\\' => ['\\', '\\']
  | '\x08' => ['\\', 'b']
  | '\x0c' => ['\\', 'f']
  | '\n' => ['\\', 'n']
  | '\r' => ['\\', 'r']
  | '\t' => ['\\', 't']
  | other =>
      if other < ' ' then
        ['\\', 'u', '0', '0', Nat.digitChar (other.toNat / 16), Nat.digitChar (other.toNat % 16)]
      else [other]

/-- A written string stands between quotes. -/
def write (characters : List Char) : List Char :=
  '"' :: characters.flatMap escapeForm ++ ['"']

end Quoted

end SemanticQuery.Json
