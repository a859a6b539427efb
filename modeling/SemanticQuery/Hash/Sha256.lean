/-
This file defines the hash function SHA-256.
-/

namespace SemanticQuery.Sha256

/-- The state of the hash is eight words. -/
structure State where
  a : UInt32
  b : UInt32
  c : UInt32
  d : UInt32
  e : UInt32
  f : UInt32
  g : UInt32
  h : UInt32

/-- The first 32 bits of the fractional parts of the square roots of the first eight primes. -/
def initial : State where
  a := 0x6a09e667
  b := 0xbb67ae85
  c := 0x3c6ef372
  d := 0xa54ff53a
  e := 0x510e527f
  f := 0x9b05688c
  g := 0x1f83d9ab
  h := 0x5be0cd19

/-- The first 32 bits of the fractional parts of the cube roots of the first 64 primes. -/
def constants : List UInt32 := [
  0x428a2f98, 0x71374491, 0xb5c0fbcf, 0xe9b5dba5, 0x3956c25b, 0x59f111f1, 0x923f82a4, 0xab1c5ed5,
  0xd807aa98, 0x12835b01, 0x243185be, 0x550c7dc3, 0x72be5d74, 0x80deb1fe, 0x9bdc06a7, 0xc19bf174,
  0xe49b69c1, 0xefbe4786, 0x0fc19dc6, 0x240ca1cc, 0x2de92c6f, 0x4a7484aa, 0x5cb0a9dc, 0x76f988da,
  0x983e5152, 0xa831c66d, 0xb00327c8, 0xbf597fc7, 0xc6e00bf3, 0xd5a79147, 0x06ca6351, 0x14292967,
  0x27b70a85, 0x2e1b2138, 0x4d2c6dfc, 0x53380d13, 0x650a7354, 0x766a0abb, 0x81c2c92e, 0x92722c85,
  0xa2bfe8a1, 0xa81a664b, 0xc24b8b70, 0xc76c51a3, 0xd192e819, 0xd6990624, 0xf40e3585, 0x106aa070,
  0x19a4c116, 0x1e376c08, 0x2748774c, 0x34b0bcb5, 0x391c0cb3, 0x4ed8aa4a, 0x5b9cca4f, 0x682e6ff3,
  0x748f82ee, 0x78a5636f, 0x84c87814, 0x8cc70208, 0x90befffa, 0xa4506ceb, 0xbef9a3f7, 0xc67178f2]

/-- The bits of a word move to the right and come back on the left. -/
def rotate (word : UInt32) (count : UInt32) : UInt32 :=
  (word >>> count) ||| (word <<< (32 - count))

/-- A number of 64 bits is written with its highest byte first. -/
def lengthBytes (length : Nat) : List UInt8 :=
  (List.range 8).map fun index => UInt8.ofNat (length >>> (8 * (7 - index)))

/-- The message is followed by one set bit, by zeros, and by its length in bits, and so fills
whole blocks of 64 bytes. -/
def pad (message : List UInt8) : List UInt8 :=
  message ++ [0x80] ++ List.replicate ((119 - message.length % 64) % 64) 0 ++
    lengthBytes (8 * message.length)

/-- Four bytes make a word, the highest one first. -/
def words : List UInt8 → List UInt32
  | first :: second :: third :: fourth :: rest =>
      (first.toUInt32 <<< 24 ||| second.toUInt32 <<< 16 ||| third.toUInt32 <<< 8 |||
        fourth.toUInt32) :: words rest
  | _ => []

/-- The window holds the last 16 words of the schedule. Each step gives up the oldest word and
makes a new one. -/
def schedule : Nat → List UInt32 → List UInt32
  | 0, _ => []
  | count + 1, window =>
      let oldest := window.getD 0 0
      let second := window.getD 1 0
      let late := window.getD 14 0
      let low := rotate second 7 ^^^ rotate second 18 ^^^ (second >>> 3)
      let high := rotate late 17 ^^^ rotate late 19 ^^^ (late >>> 10)
      oldest :: schedule count (window.drop 1 ++ [oldest + low + window.getD 9 0 + high])

/-- One round mixes a constant and a word of the schedule into the state. -/
def round (state : State) (constant word : UInt32) : State :=
  let high := rotate state.e 6 ^^^ rotate state.e 11 ^^^ rotate state.e 25
  let choice := (state.e &&& state.f) ^^^ (~~~state.e &&& state.g)
  let first := state.h + high + choice + constant + word
  let low := rotate state.a 2 ^^^ rotate state.a 13 ^^^ rotate state.a 22
  let majority := (state.a &&& state.b) ^^^ (state.a &&& state.c) ^^^ (state.b &&& state.c)
  { a := first + low + majority, b := state.a, c := state.b, d := state.c
    e := state.d + first, f := state.e, g := state.f, h := state.g }

/-- The rounds of one block are added to the state. -/
def compress (state : State) (block : List UInt32) : State :=
  let mixed := (constants.zip (schedule 64 block)).foldl
    (fun state pair => round state pair.1 pair.2) state
  { a := state.a + mixed.a, b := state.b + mixed.b, c := state.c + mixed.c
    d := state.d + mixed.d, e := state.e + mixed.e, f := state.f + mixed.f
    g := state.g + mixed.g, h := state.h + mixed.h }

/-- Blocks of 16 words are compressed one after the other. -/
def compressAll (state : State) (words : List UInt32) : State :=
  match words with
  | [] => state
  | word :: rest =>
      compressAll (compress state ((word :: rest).take 16)) (rest.drop 15)
termination_by words.length
decreasing_by simp only [List.length_drop, List.length_cons]; omega

/-- A word is written as eight hexadecimal digits in lower case. -/
def hexWord (word : UInt32) : List Char :=
  (List.range 8).map fun index => Nat.digitChar (word.toNat >>> (4 * (7 - index)) % 16)

/-- The hash of a text is the hash of its UTF-8 bytes, written with 64 hexadecimal digits. -/
def hash (text : String) : String :=
  let state := compressAll initial (words (pad text.toUTF8.toList))
  String.ofList <| [state.a, state.b, state.c, state.d, state.e, state.f, state.g,
    state.h].flatMap hexWord

end SemanticQuery.Sha256
