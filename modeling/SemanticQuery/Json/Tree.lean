/-
This file builds the tree of a JSON text. Faults stay where they are in the text, so a reader
that goes through the tree from left to right meets the first one first.
-/

import SemanticQuery.Json.Token

namespace SemanticQuery.Json

/-- A tree says what a text means. The ending of an array or object is a fault when the closing
bracket is not where it should be. -/
inductive Tree where
  | null
  | boolean (value : Bool)
  | number (numeral : Numeral)
  | brokenNumber (fault : Fault)
  | string (quoted : Quoted)
  | stray (fault : Fault)
  | array (items : List Tree) (ending : Option Fault)
  | object (members : List (Quoted × Tree)) (ending : Option Fault)

namespace Tree

/-- A frame is an open array or object, with what stands before the current value, last
first. -/
inductive Frame where
  | array (before : List Tree)
  | object (before : List (Quoted × Tree)) (key : Quoted)

/-- A state says what may come next. The innermost open frame comes first. -/
inductive State where
  | value (frames : List Frame)
  | firstItem (frames : List Frame)
  | afterItem (before : List Tree) (frames : List Frame)
  | firstKey (frames : List Frame)
  | nextKey (before : List (Quoted × Tree)) (frames : List Frame)
  | colon (before : List (Quoted × Tree)) (key : Quoted) (frames : List Frame)
  | afterMember (before : List (Quoted × Tree)) (frames : List Frame)
  | finished (tree : Tree) (trailing : Bool)

/-- A complete value goes into the innermost frame. -/
def complete (tree : Tree) : List Frame → State
  | [] => .finished tree false
  | .array before :: frames => .afterItem (tree :: before) frames
  | .object before key :: frames => .afterMember ((key, tree) :: before) frames

/-- The open frames around a faulty tree are closed. No reader gets past the fault. -/
def wrap (tree : Tree) : List Frame → Tree
  | [] => tree
  | .array before :: frames => wrap (.array (tree :: before).reverse none) frames
  | .object before key :: frames =>
      wrap (.object ((key, tree) :: before).reverse none) frames

namespace State

/-- The fault is put where the next token should be. -/
def abandon (fault : Fault) : State → Tree
  | .value frames => wrap (.stray fault) frames
  | .firstItem frames => wrap (.array [] (some fault)) frames
  | .afterItem before frames => wrap (.array before.reverse (some fault)) frames
  | .firstKey frames => wrap (.object [] (some fault)) frames
  | .nextKey before frames => wrap (.object before.reverse (some fault)) frames
  | .colon before key frames =>
      wrap (.object ((key, .stray fault) :: before).reverse none) frames
  | .afterMember before frames => wrap (.object before.reverse (some fault)) frames
  | .finished tree _ => tree

/-- A value starts with this token, or the token is a stray one. -/
def takeValue (frames : List Frame) : Token → State
  | .openObject => .firstKey frames
  | .openArray => .firstItem frames
  | .null => complete .null frames
  | .boolean truth => complete (.boolean truth) frames
  | .number numeral => complete (.number numeral) frames
  | .brokenNumber fault => complete (.brokenNumber fault) frames
  | .string quoted => complete (.string quoted) frames
  | .stray fault => complete (.stray fault) frames
  | _ => .finished (wrap (.stray .malformed) frames) false

/-- One token is taken. A token that may not come next is a fault of the text. -/
def step (state : State) (token : Token) : State :=
  match state, token with
  | .value frames, token => takeValue frames token
  | .firstItem frames, .closeArray => complete (.array [] none) frames
  | .firstItem frames, token => takeValue (.array [] :: frames) token
  | .afterItem before frames, .comma => .value (.array before :: frames)
  | .afterItem before frames, .closeArray => complete (.array before.reverse none) frames
  | .firstKey frames, .closeObject => complete (.object [] none) frames
  | .firstKey frames, .string key => .colon [] key frames
  | .nextKey before frames, .string key => .colon before key frames
  | .colon before key frames, .colon => .value (.object before key :: frames)
  | .afterMember before frames, .comma => .nextKey before frames
  | .afterMember before frames, .closeObject =>
      complete (.object before.reverse none) frames
  | .finished tree _, _ => .finished tree true
  | state, _ => .finished (state.abandon .malformed) false

/-- A text that ends too early is truncated. -/
def finish : State → Tree × Bool
  | .finished tree trailing => (tree, trailing)
  | state => (state.abandon .truncated, false)

end State

/-- The tree of a token list comes with a note whether more tokens follow it. -/
def ofTokens (tokens : List Token) : Tree × Bool :=
  (tokens.foldl State.step (.value [])).finish

/-- The tree of a text comes with a note whether more follows it. -/
def ofText (text : String) : Tree × Bool :=
  ofTokens (Token.scan text.toList)

end Tree

end SemanticQuery.Json
