/-
This file splits the arguments of a command into flags, options and operands.
-/

namespace SemanticQuery

/-- A switch has a word and may have a letter. An option is a switch that takes a value. -/
structure Switch where
  word : String
  letter : Option Char
  hasValue : Bool

/-- An argument gives one or more parts. Nothing is known behind a misused one. -/
inductive Part where
  | flag (word : String)
  | value (word : String) (text : String)
  | operand (text : String)
  | misuse
deriving DecidableEq

/-- The parts of some arguments may end with an option that waits for its value. -/
structure Parts where
  parts : List Part
  waiting : Option String

/-- Arguments are scanned up to the name of a command, with which the rest is given back. A value
right in front of the name stays pending until the command has taken its own arguments. -/
structure Scan where
  parts : List Part
  pending : Option Part
  command : Option (String × List String)

/-- Anything but the name of a command settles the value in front of it. -/
def Scan.behindValue (value : Part) : Scan → Scan
  | ⟨[], none, some command⟩ => ⟨[], some value, some command⟩
  | after => { after with parts := value :: after.parts }

namespace Switch

/-- A value that is attached to a letter may follow an equals sign. -/
def attached : List Char → List Char
  | '=' :: value => value
  | value => value

/-- Letters may stand together, and the first option among them takes the rest. -/
def ofLetters (switches : List Switch) : List Char → Parts
  | [] => ⟨[], none⟩
  | letter :: rest =>
      match switches.find? (·.letter = some letter) with
      | none => ⟨[.misuse], none⟩
      | some switch =>
          if switch.hasValue then
            if rest.isEmpty then ⟨[], some switch.word⟩
            else ⟨[.value switch.word (String.ofList (attached rest))], none⟩
          else
            let after := ofLetters switches rest
            { after with parts := .flag switch.word :: after.parts }

/-- A word is written in full. Only an option may have a value behind an equals sign. -/
def ofWord (switches : List Switch) (text : List Char) : Parts :=
  let word := String.ofList (text.takeWhile (· != '='))
  match switches.find? (·.word = word), text.dropWhile (· != '=') with
  | none, _ => ⟨[.misuse], none⟩
  | some switch, [] =>
      if switch.hasValue then ⟨[], some word⟩ else ⟨[.flag word], none⟩
  | some switch, _ :: value =>
      if switch.hasValue then ⟨[.value word (String.ofList value)], none⟩
      else ⟨[.misuse], none⟩

/-- The name of a command is no option and no value of one. -/
def scan (switches : List Switch) (commands : List String) : Option String → List String → Scan
  | none, [] => ⟨[], none, none⟩
  | some _, [] => ⟨[.misuse], none, none⟩
  | some word, argument :: rest =>
      if argument.toList.head? = some '-' ∧ argument ≠ "-" then ⟨[.misuse], none, none⟩
      else (scan switches commands none rest).behindValue (.value word argument)
  | none, argument :: rest =>
      if argument ∈ commands then ⟨[], none, some (argument, rest)⟩
      else
        match argument.toList with
        | ['-', '-'] => ⟨rest.map .operand, none, none⟩
        | '-' :: '-' :: word =>
            let first := ofWord switches word
            let after := scan switches commands first.waiting rest
            { after with parts := first.parts ++ after.parts }
        | '-' :: letter :: letters =>
            let first := ofLetters switches (letter :: letters)
            let after := scan switches commands first.waiting rest
            { after with parts := first.parts ++ after.parts }
        | _ =>
            let after := scan switches commands none rest
            { after with parts := .operand argument :: after.parts }

end Switch

end SemanticQuery
