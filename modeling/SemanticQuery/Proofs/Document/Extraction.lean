/-
This file shows that the first balanced span of a text is found. The positions of a text lie between
its characters, so a span is never cut in the middle of one.
-/

import SemanticQuery.Proofs.Document.Balanced

namespace SemanticQuery.Document

/-- A span that starts a text is the first one. -/
theorem firstObject_of_isSpan {text span : List Char} (balanced : IsSpan span)
    (front : span <+: text) : firstObject text = some span := by
  obtain ⟨after, rfl⟩ := front
  cases balanced with
  | braces inside =>
      have found := balanced_eq_some_iff.2 ⟨.braces inside, List.prefix_append _ after⟩
      rw [List.cons_append, firstObject, if_pos rfl, found]

/-- The first character is passed over if no span starts there. -/
theorem firstObject_cons {character : Char} {text : List Char}
    (none : ∀ span, IsSpan span → ¬span <+: character :: text) :
    firstObject (character :: text) = firstObject text := by
  rw [firstObject]
  split
  · next opening =>
      subst opening
      split
      · next rest found =>
          obtain ⟨balanced, front⟩ := balanced_eq_some_iff.1 found
          exact absurd ((List.prefix_cons_inj _).2 front) (none _ balanced)
      · rfl
  · rfl

theorem starts_or_not (text : List Char) :
    (∃ span, IsSpan span ∧ span <+: text) ∨ ∀ span, IsSpan span → ¬span <+: text := by
  rw [or_iff_not_imp_left]
  intro none span balanced front
  exact none ⟨span, balanced, front⟩

/-- The search gives back a span with no other one in front of it. -/
theorem firstObject_eq_some_iff {text span : List Char} :
    firstObject text = some span ↔
      ∃ before after, text = before ++ (span ++ after) ∧ IsSpan span ∧
        ∀ front back, before = front ++ back → back ≠ [] →
          ∀ other, IsSpan other → ¬other <+: back ++ (span ++ after) := by
  constructor
  · intro found
    induction text with
    | nil => cases found
    | cons character text inductionHypothesis =>
        rcases starts_or_not (character :: text) with ⟨other, balanced, front⟩ | none
        · rw [firstObject_of_isSpan balanced front] at found
          cases found
          obtain ⟨after, same⟩ := front
          refine ⟨[], after, same.symm, balanced, fun front back none some => ?_⟩
          exact absurd (List.append_eq_nil_iff.1 none.symm).2 some
        · rw [firstObject_cons none] at found
          obtain ⟨before, after, rfl, balanced, first⟩ := inductionHypothesis found
          refine ⟨character :: before, after, rfl, balanced, fun front back same some => ?_⟩
          -- Either the whole text is left, or less than the text behind its first character.
          cases front with
          | nil =>
              obtain rfl : character :: before = back := same
              exact none
          | cons _ front => exact first front back (List.cons.inj same).2 some
  · rintro ⟨before, after, rfl, balanced, first⟩
    induction before with
    | nil => exact firstObject_of_isSpan balanced (List.prefix_append span after)
    | cons character before inductionHypothesis =>
        have passed := firstObject_cons (first [] (character :: before) rfl (by simp))
        exact passed.trans (inductionHypothesis fun front back same =>
          first (character :: front) back (congrArg (character :: ·) same))

/-- The search does not fail if a span starts somewhere. -/
theorem exists_firstObject (before : List Char) {rest span : List Char} (balanced : IsSpan span)
    (front : span <+: rest) : ∃ other, firstObject (before ++ rest) = some other := by
  induction before with
  | nil => exact ⟨span, firstObject_of_isSpan balanced front⟩
  | cons character before inductionHypothesis =>
      rw [List.cons_append]
      rcases starts_or_not (character :: (before ++ rest)) with ⟨other, starts, otherFront⟩ | none
      · exact ⟨other, firstObject_of_isSpan starts otherFront⟩
      · rw [firstObject_cons none]
        exact inductionHypothesis

/-- A span stands in the text between this position and a later one. -/
def SpansFrom (text : String) (start : text.Pos) (span : String) : Prop :=
  IsSpan span.toList ∧
    ∃ (stop : text.Pos) (within : start ≤ stop), (text.slice start stop within).copy = span

theorem spansFrom_iff {text : String} {start : text.Pos} {span : String} :
    SpansFrom text start span ↔
      IsSpan span.toList ∧ ∃ before after, start.Splits before (span ++ after) := by
  simp only [SpansFrom, String.copy_slice_eq_iff_splits]
  refine and_congr_right fun _ => ?_
  constructor
  · rintro ⟨_, before, after, splits, _⟩
    exact ⟨before, after, splits⟩
  · rintro ⟨before, after, splits⟩
    have same : text = before ++ span ++ after := by rw [splits.eq_append, String.append_assoc]
    exact ⟨_, before, after, splits, String.Pos.splits_ofEqAppend same⟩

theorem embedded?_eq_some_iff {text span : String} :
    embedded? text = some span ↔ firstObject text.toList = some span.toList := by
  rw [embedded?, Option.map_eq_some_iff]
  constructor
  · rintro ⟨characters, found, rfl⟩
    rw [found, String.toList_ofList]
  · intro found
    exact ⟨span.toList, found, String.ofList_toList⟩

/-- The span at the least position is found. -/
theorem embedded?_eq_some_iff_least {text span : String} :
    embedded? text = some span ↔
      ∃ start : text.Pos, SpansFrom text start span ∧
        ∀ earlier < start, ∀ other, ¬SpansFrom text earlier other := by
  rw [embedded?_eq_some_iff, firstObject_eq_some_iff]
  constructor
  · rintro ⟨before, after, same, balanced, first⟩
    have joined : text = String.ofList before ++ (span ++ String.ofList after) :=
      String.toList_inj.1 (by simp [same])
    have splits := String.Pos.splits_ofEqAppend joined
    refine ⟨_, spansFrom_iff.2 ⟨balanced, _, _, splits⟩, fun earlier less other spans => ?_⟩
    obtain ⟨otherBalanced, front, rest, otherSplits⟩ := spansFrom_iff.1 spans
    obtain ⟨back, some, beforeSame, restSame⟩ :=
      (otherSplits.lt_iff_exists_eq_append splits).1 less
    have beforeList : before = front.toList ++ back.toList := by
      simpa using congrArg String.toList beforeSame
    have restList : other.toList ++ rest.toList = back.toList ++ (span.toList ++ after) := by
      simpa using congrArg String.toList restSame
    exact first front.toList back.toList beforeList (by simpa using some) other.toList
      otherBalanced ⟨rest.toList, restList⟩
  · rintro ⟨start, spans, first⟩
    obtain ⟨balanced, before, after, splits⟩ := spansFrom_iff.1 spans
    have same : text.toList = before.toList ++ (span.toList ++ after.toList) := by
      simpa using congrArg String.toList splits.eq_append
    refine ⟨before.toList, after.toList, same, balanced, ?_⟩
    rintro front back beforeList some other otherBalanced ⟨rest, restList⟩
    have joined : text = String.ofList front ++ (String.ofList other ++ String.ofList rest) :=
      String.toList_inj.1 (by simp [same, beforeList, restList])
    have otherSplits := String.Pos.splits_ofEqAppend joined
    have less := (otherSplits.lt_iff_exists_eq_append splits).2
      ⟨String.ofList back, by simpa using some, String.toList_inj.1 (by simp [beforeList]),
        String.toList_inj.1 (by simp [restList])⟩
    refine first _ less (String.ofList other) (spansFrom_iff.2 ⟨?_, _, _, otherSplits⟩)
    rw [String.toList_ofList]
    exact otherBalanced

/-- Nothing is found if there is no such position. -/
theorem embedded?_eq_none_iff {text : String} :
    embedded? text = none ↔ ∀ start span, ¬SpansFrom text start span := by
  constructor
  · intro none start span spans
    obtain ⟨balanced, before, after, splits⟩ := spansFrom_iff.1 spans
    have same : text.toList = before.toList ++ (span.toList ++ after.toList) := by
      simpa using congrArg String.toList splits.eq_append
    obtain ⟨other, found⟩ :=
      exists_firstObject before.toList balanced (List.prefix_append _ after.toList)
    rw [embedded?, same, found] at none
    cases none
  · intro none
    rw [Option.eq_none_iff_forall_ne_some]
    intro span found
    obtain ⟨start, spans, _⟩ := embedded?_eq_some_iff_least.1 found
    exact none start span spans

/-- The span at the least position is found, and nothing if there is no span at all. There is at
most one span at a position, no part in front of it is a span, and it is found in itself again. -/
theorem embedded_is_least_span (text : String) :
    (∀ span, embedded? text = some span ↔
      ∃ start : text.Pos, SpansFrom text start span ∧
        ∀ earlier < start, ∀ other, ¬SpansFrom text earlier other) ∧
      (embedded? text = none ↔ ∀ start span, ¬SpansFrom text start span) ∧
      (∀ start span other, SpansFrom text start span → SpansFrom text start other → other = span) ∧
      ∀ span, embedded? text = some span →
        (∀ other, IsSpan other → other <+: span.toList → other = span.toList) ∧
          embedded? span = some span := by
  refine ⟨fun _ => embedded?_eq_some_iff_least, embedded?_eq_none_iff, ?_, ?_⟩
  · intro start span other spans otherSpans
    obtain ⟨balanced, before, after, splits⟩ := spansFrom_iff.1 spans
    obtain ⟨otherBalanced, otherBefore, rest, otherSplits⟩ := spansFrom_iff.1 otherSpans
    have same : other.toList ++ rest.toList = span.toList ++ after.toList := by
      simpa using congrArg String.toList (otherSplits.eq_right splits)
    exact String.toList_inj.1 (otherBalanced.unique balanced ⟨rest.toList, same⟩
      (List.prefix_append _ after.toList))
  · intro span found
    obtain ⟨_, ⟨balanced, _⟩, _⟩ := embedded?_eq_some_iff_least.1 found
    refine ⟨fun other otherBalanced front => ?_, ?_⟩
    · exact otherBalanced.unique balanced front (List.prefix_refl _)
    · exact embedded?_eq_some_iff.2 (firstObject_of_isSpan balanced (List.prefix_refl _))

/-- The outer brace is never closed, and the one inside of a string does not count. -/
example : embedded? "\x7b\"x\": \x7b\"a\": \"\x7d\"\x7d" = some "\x7b\"a\": \"\x7d\"\x7d" := by
  decide +kernel

end SemanticQuery.Document
