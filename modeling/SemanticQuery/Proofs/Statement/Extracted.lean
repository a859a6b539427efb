/-
This file says what happens to a decimal literal when a document is extracted first and compiled
later. The text between the two runs is always accepted, and it keeps every double whose digits are
rounded only once.
-/

import SemanticQuery.Proofs.Command.Exit
import SemanticQuery.Proofs.Json.Fraction
import SemanticQuery.Proofs.Statement.Replaced

namespace SemanticQuery

/-- Doubles with the same literal are the same double. -/
theorem Scalar.wording_float_injective (dialect : Dialect) {double other : Float}
    (finite : double.isFinite = true) (otherFinite : other.isFinite = true)
    (same : (Scalar.float double).wording dialect = (Scalar.float other).wording dialect) :
    double = other := by
  obtain ⟨exact, found⟩ := (isFinite_iff double).1 finite
  obtain ⟨otherExact, otherFound⟩ := (isFinite_iff other).1 otherFinite
  simp only [wording, found, otherFound] at same
  obtain rfl := Layout.literal.text_injective exact (.inl rfl) (isStored_of_magnitude found)
    (isStored_of_magnitude otherFound) same
  exact eq_of_magnitude found otherFound

/-- A compile command that is not strict tells the outcome of the document that its input holds. -/
theorem Command.tells_runCompile {environment : Environment} {file : Option String} {raw : Bool}
    {text : String} {document : Document} (read : readInput environment file = .ok text)
    (parsed : Document.ofInput raw text = .ok document) (level : LogLevel) (dialect : Dialect)
    (format : OutputFormat) :
    (runCompile environment level file dialect format false raw).Tells format
      (document.summary dialect) := by
  have accepts : Accepts environment file dialect false raw document :=
    ⟨⟨text, read, parsed⟩, nofun⟩
  rcases runCompile_ends level format with ⟨refuses, _⟩ | ⟨other, messages, accepted, finished⟩
  · exact absurd refuses accepts.not_refuses
  · obtain ⟨⟨again, readAgain, parsedAgain⟩, _⟩ := accepted
    rw [read] at readAgain
    cases readAgain
    rw [parsed] at parsedAgain
    cases parsedAgain
    rw [finished]
    exact Finish.tells_printed format dialect document _ messages

/-- Nothing is given to a run but its input. -/
def Environment.ofInput (text : String) : Environment :=
  ⟨fun _ => .absent "", text.toUTF8, none, none⟩

namespace Document

/-- The document is compiled from an input, and the other one from what is printed when the document
is extracted from that input. -/
def IsExtractedAs (document other : Document) : Prop :=
  ∀ environment file input, Command.readInput environment file = .ok input →
    ofResponse input = .ok document →
      (Command.runExtract environment file).code = 0 ∧ ∀ level dialect format,
        (Command.runCompile environment level file dialect format false true).Tells format
            (document.summary dialect) ∧
          ∀ later laterFile, Command.readInput later laterFile =
              .ok (Command.runExtract environment file).output →
            (Command.runCompile later level laterFile dialect format false false).Tells format
              (other.summary dialect)

theorem isExtractedAs_reread (document : Document) : document.IsExtractedAs document.reread := by
  intro environment file input found extracted
  obtain ⟨code, read⟩ := ofJson_runExtract found extracted
  refine ⟨code, fun level dialect format => ⟨?_, fun later laterFile laterFound => ?_⟩⟩
  · refine Command.tells_runCompile found ?_ level dialect format
    rw [ofInput, if_pos rfl, extracted]
    rfl
  · have parsed : ofInput false (Command.runExtract environment file).output =
        .ok document.reread := read
    exact Command.tells_runCompile laterFound parsed level dialect format

theorem reread_filterAt (document : Document) (place : Nat) (given : Condition) :
    (document.filterAt place given).reread = document.reread.filterAt place given.reread := by
  simp [filterAt, reread, List.map_take, List.map_drop]

/-- A condition value with a fraction or an exponent is a double wherever it is written, and the
text that is extracted has its shortest digits. These are read as a double again, which is the same
one if they are rounded only once. If the rest of the document is read back, nothing but the literal
can change in the outcome, and nothing changes exactly when the double is the same or its literal is
not written. -/
theorem compile_extracted {token : String} {value : Json.Value}
    (number : Json.Grammar.IsNumber token.toList)
    (fractional : ∃ character ∈ token.toList, character ∈ ['.', 'e', 'E'])
    (accepted : Json.readText (rawValue 3) token = .ok value) (document : Document) (place : Nat)
    (given : Condition) :
    let whole := document.filterAt place (given.comparing value)
    ∃ double finite again signed, value = .number (.real double finite) ∧
      IsConditionValue token.toList value ∧
      (Json.Number.real double finite).numeral.value = .ok (.real again signed) ∧
      ((Json.Number.real double finite).numeral.RoundsOnce → again = double) ∧
      whole.IsExtractedAs whole.reread ∧
      whole.reread =
        document.reread.filterAt place (given.comparing (.number (.real again signed))) ∧
      (document.reread = document → ∀ dialect,
        (document.Writes given → ∃ front back,
          (whole.compile dialect).value =
              .compiled (front ++ (Scalar.float double).wording dialect ++ back) ∧
            (whole.reread.compile dialect).value =
              .compiled (front ++ (Scalar.float again).wording dialect ++ back)) ∧
        ((whole.reread.compile dialect).value = (whole.compile dialect).value ↔
          again = double ∨ ¬document.Writes given)) := by
  intro whole
  obtain ⟨double, finite, rfl⟩ := Json.exists_real_of_readText number fractional accepted
  obtain ⟨again, signed, reread⟩ := Json.Number.exists_reread_real double finite
  have scalar (double : Float) (finite : double.isFinite = true) :
      interpretValue given.columnText (.number (.real double finite)) =
        .ok (some (.scalar (.float double))) := rfl
  have wholeReread : whole.reread =
      document.reread.filterAt place (given.comparing (.number (.real again signed))) := by
    rw [← reread, reread_filterAt]
    rfl
  have readThere : IsConditionValue token.toList (.number (.real double finite)) :=
    isConditionValue (.number number) (String.ofList_toList ▸ accepted) nofun
  refine ⟨double, finite, again, signed, rfl, readThere, ?_, fun once => ?_,
    whole.isExtractedAs_reread, wholeReread, fun rest dialect => ?_⟩
  · rw [Json.Number.value_numeral, reread]
  · rw [Json.Number.reread_of_roundsOnce once] at reread
    cases reread
    rfl
  · rw [wholeReread, rest]
    have written (writes : document.Writes given) : ∃ front back,
        (whole.compile dialect).value =
            .compiled (front ++ (Scalar.float double).wording dialect ++ back) ∧
          ((document.filterAt place (given.comparing (.number (.real again signed)))).compile
              dialect).value =
            .compiled (front ++ (Scalar.float again).wording dialect ++ back) := by
      obtain ⟨front, back, compiled⟩ := writes.exists_compile dialect place
      exact ⟨front, back, compiled _ _ (scalar double finite), compiled _ _ (scalar again signed)⟩
    refine ⟨written, fun same => ?_, ?_⟩
    · by_contra other
      rw [not_or, not_not] at other
      obtain ⟨front, back, direct, later⟩ := written other.2
      rw [direct, later, Outcome.compiled.injEq, String.append_left_inj,
        String.append_right_inj] at same
      exact other.1 (Scalar.wording_float_injective dialect signed finite same)
    · rintro (rfl | skipped)
      · rfl
      · exact compile_of_not_writes dialect document place skipped (scalar again signed)
          (scalar double finite)

/-- This condition is compared with a decimal. -/
def ratio : Condition := ⟨some "r", some ">", none, none⟩

/-- Its digits are few enough to be rounded only once. -/
def permille : Json.Value := .number (.real (-0.0025) (by decide +kernel))

/-- This number is written in another form when it is extracted, and its literal stays the same. -/
theorem compile_extracted_small :
    let whole := account.filterAt 1 (ratio.comparing permille)
    Json.readText (rawValue 3) "-2.50E-3" = .ok permille ∧ whole.IsExtractedAs whole.reread ∧
      (whole.compile .mysql).value = .compiled "SELECT * FROM t WHERE a = true AND r > -0.0025" ∧
      (whole.reread.compile .mysql).value = (whole.compile .mysql).value := by
  intro whole
  have number : Json.Grammar.IsNumber "-2.50E-3".toList := by
    have parts : Json.Grammar.IsNumber
        (['-'] ++ ['2'] ++ '.' :: ['5', '0'] ++ 'E' :: (['-'] ++ ['3'])) :=
      .parts (by decide) ⟨by decide, List.all_eq_true.1 (by decide)⟩ (by decide)
        (.point ⟨by decide, List.all_eq_true.1 (by decide)⟩)
        (.power (by decide) (by decide) ⟨by decide, List.all_eq_true.1 (by decide)⟩)
    exact parts
  have accepted : Json.readText (rawValue 3) "-2.50E-3" = .ok permille := by decide +kernel
  obtain ⟨double, finite, again, signed, same, _, _, once, extracted, _, outcome⟩ :=
    compile_extracted number ⟨'.', by decide, by decide⟩ accepted account 1 ratio
  cases same
  have written : (Json.Number.real (-0.0025) (by decide +kernel)).numeral =
      ⟨true, ['0'], ['0', '0', '2', '5'], none⟩ := by decide +kernel
  have digits : (Json.Number.real (-0.0025) finite).numeral.RoundsOnce := by
    rw [written]
    exact ⟨⟨25, by decide, 0, by decide⟩, by decide⟩
  obtain ⟨_, unchanged⟩ := outcome rfl .mysql
  exact ⟨accepted, extracted, by decide +kernel, unchanged.2 (.inl (once digits))⟩

/-- The digits of this double are rounded when they are read, and again when they are divided by
ten. -/
def large : Document :=
  { Document.empty with
    tables := ["t"]
    conditions := [⟨some "a", none,
      some (.number (.real 8000000000000001 (by decide +kernel))), none⟩] }

/-- The large double stands in this text without a point. -/
def largeText : String :=
  "\x7b\"tables\":[\"t\"],\"conditions\":[" ++
    "\x7b\"column\":\"a\",\"value\":8000000000000001e0\x7d]\x7d"

/-- Extracting the large double first gives another literal, although its number is accepted. -/
theorem runCompile_large :
    Json.Grammar.IsNumber "8000000000000001e0".toList ∧
      (∃ finite, Json.readText (rawValue 3) "8000000000000001e0" =
        .ok (.number (.real 8000000000000001 finite))) ∧
      ofResponse largeText = .ok large ∧
      (Command.runExtract (.ofInput largeText) none).code = 0 ∧
      (Command.runCompile (.ofInput largeText) .warn none .mysql .sql false true).output =
        "SELECT * FROM t WHERE a = 8000000000000001.0\n" ∧
      (Command.runCompile (.ofInput (Command.runExtract (.ofInput largeText) none).output) .warn
        none .mysql .sql false false).output = "SELECT * FROM t WHERE a = 8000000000000002.0\n" := by
  have number : Json.Grammar.IsNumber "8000000000000001e0".toList := by
    have parts : Json.Grammar.IsNumber
        ([] ++ "8000000000000001".toList ++ [] ++ 'e' :: ([] ++ ['0'])) :=
      .parts (by decide) ⟨by decide, List.all_eq_true.1 (by decide)⟩ (by decide) .none
        (.power (by decide) (by decide) ⟨by decide, List.all_eq_true.1 (by decide)⟩)
    exact parts
  have extracted : ofResponse largeText = .ok large := by decide +kernel
  have direct : (large.compile .mysql).value =
      .compiled "SELECT * FROM t WHERE a = 8000000000000001.0" := by decide +kernel
  have later : (large.reread.compile .mysql).value =
      .compiled "SELECT * FROM t WHERE a = 8000000000000002.0" := by decide +kernel
  obtain ⟨code, told⟩ :=
    large.isExtractedAs_reread (.ofInput largeText) none largeText (readInput_toUTF8 rfl) extracted
  obtain ⟨first, second⟩ := told .warn .mysql .sql
  have firstPrinted := first.printed
  have secondPrinted := (second (.ofInput _) none (readInput_toUTF8 rfl)).printed
  rw [summary_eq direct] at firstPrinted
  rw [summary_eq later] at secondPrinted
  exact ⟨number, ⟨by decide +kernel, by decide +kernel⟩, extracted, code, firstPrinted,
    secondPrinted⟩

end Document

end SemanticQuery
