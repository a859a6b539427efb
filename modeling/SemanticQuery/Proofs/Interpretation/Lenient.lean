/-
This file shows that a lenient interpretation accepts everything that a strict one does, with the
same query, and that it drops nothing then.
-/

import SemanticQuery.Proofs.Interpretation.Inversion

namespace SemanticQuery

namespace Keyword

/-- A loose reading does not change the canonical spellings of such a kind. -/
class IsSettled (α : Type) [Keyword α] : Prop where
  settled : ∀ keyword : α, Text.upper (Text.trim (spelling keyword)) = spelling keyword

instance : IsSettled Operator := ⟨fun keyword => by cases keyword <;> decide⟩

instance : IsSettled AggregateFunction := ⟨fun keyword => by cases keyword <;> decide⟩

instance : IsSettled JoinType := ⟨fun keyword => by cases keyword <;> decide⟩

instance : IsSettled Direction := ⟨fun keyword => by cases keyword <;> decide⟩

/-- A canonical spelling is read loosely as the same keyword. -/
theorem loose?_eq_some_of_canonical? {α : Type} [Keyword α] [IsSettled α] {text : String}
    {keyword : α} (canonical : canonical? α text = some keyword) :
    loose? α text = some keyword := by
  have spelled := canonical?_eq_some_iff.1 canonical
  rw [loose?, ← spelled, IsSettled.settled]
  exact canonical?_spelling keyword

end Keyword

theorem Mode.read?_lenient {α : Type} [Keyword α] [Keyword.IsSettled α] {text : String}
    {keyword : α} (strict : Mode.strict.read? α text = some keyword) :
    Mode.lenient.read? α text = some keyword :=
  Keyword.loose?_eq_some_of_canonical? strict

namespace Document

theorem Aggregation.read?_lenient {given : Aggregation}
    {aggregation : SemanticQuery.Aggregation} (strict : given.read? .strict = some aggregation) :
    given.read? .lenient = some aggregation := by
  simp only [Aggregation.read?, Option.bind_eq_bind, Option.bind_eq_some_iff] at strict ⊢
  obtain ⟨text, present, function, read, same⟩ := strict
  exact ⟨text, present, function, Mode.read?_lenient read, same⟩

/-- When all aggregations are readable in strict mode, none is dropped in lenient mode. -/
theorem interpretAggregations_lenient {given : List Aggregation}
    {aggregations : List SemanticQuery.Aggregation}
    (strict : (interpretAggregations .strict given).value = .ok aggregations) :
    interpretAggregations .lenient given = pure (.ok aggregations) := by
  induction given generalizing aggregations with
  | nil =>
      cases strict
      rfl
  | cons first rest inductionHypothesis =>
      cases read : first.read? .strict with
      | none =>
          simp only [interpretAggregations, read] at strict
          cases strict
      | some readable =>
          simp only [interpretAggregations, read, Logged.value_bind, Logged.value_pure] at strict
          obtain ⟨later, laterRead, rfl⟩ := map_eq_ok_iff.1 strict
          simp only [interpretAggregations, Aggregation.read?_lenient read,
            inductionHypothesis laterRead]
          rfl

theorem Condition.operator?_lenient {given : Condition} {operator : Operator}
    (strict : given.operator? .strict = some operator) :
    given.operator? .lenient = some operator := by
  unfold Condition.operator? at strict ⊢
  cases present : given.operator with
  | none =>
      rw [present] at strict
      cases strict
  | some text =>
      rw [present] at strict
      exact Mode.read?_lenient strict

theorem Condition.interpret_lenient {given : Condition} {condition : SemanticQuery.Condition}
    (strict : given.interpret .strict = .ok condition) :
    given.interpret .lenient = .ok condition := by
  obtain ⟨operator, others⟩ := Condition.interpret_eq_ok_iff.1 strict
  exact Condition.interpret_eq_ok_iff.2 ⟨Condition.operator?_lenient operator, others⟩

theorem Join.interpret_lenient {given : Join} {join : SemanticQuery.Join}
    (strict : given.interpret .strict = .ok join) : given.interpret .lenient = .ok join := by
  simp only [Join.interpret, bind_eq_ok_iff, orDefect_eq_ok_iff] at strict ⊢
  obtain ⟨type, read, same⟩ := strict
  refine ⟨type, ?_, same⟩
  split at read
  · exact read
  · exact Mode.read?_lenient read

theorem OrderTerm.interpret_lenient {given : OrderTerm} {term : SemanticQuery.OrderTerm}
    (strict : given.interpret .strict = .ok term) : given.interpret .lenient = .ok term := by
  simp only [OrderTerm.interpret, bind_eq_ok_iff, orDefect_eq_ok_iff] at strict ⊢
  obtain ⟨direction, read, same⟩ := strict
  refine ⟨direction, ?_, same⟩
  split at read
  · exact read
  · exact Mode.read?_lenient read

theorem interpretOrder_lenient {given : Option (List OrderTerm)}
    {terms : Option (List SemanticQuery.OrderTerm)}
    (strict : interpretOrder .strict given = .ok terms) :
    interpretOrder .lenient given = .ok terms := by
  cases given with
  | none => exact strict
  | some items =>
      obtain ⟨values, interpreted, rfl⟩ := map_eq_ok_iff.1 strict
      refine map_eq_ok_iff.2 ⟨values, ?_, rfl⟩
      rw [interpretAll_eq_ok_iff] at interpreted ⊢
      exact interpreted.imp fun _ _ => OrderTerm.interpret_lenient

/-- The lenient mode only adds limits that are doubles. -/
theorem limit?_lenient {value : Json.Value} {limit : UInt64}
    (strict : limit? .strict value = some limit) : limit? .lenient value = some limit := by
  unfold limit? at strict ⊢
  split at strict
  · exact strict
  · cases strict
  · exact strict
  · cases strict

theorem interpretLimit_lenient {given : Option Json.Value} {limit : Option UInt64}
    (strict : interpretLimit .strict given = .ok limit) :
    interpretLimit .lenient given = .ok limit := by
  unfold interpretLimit at strict ⊢
  split at strict
  · exact strict
  · exact strict
  · obtain ⟨value, read, same⟩ := map_eq_ok_iff.1 strict
    have strictRead := orDefect_eq_ok_iff.1 read
    exact map_eq_ok_iff.2 ⟨value, orDefect_eq_ok_iff.2 (limit?_lenient strictRead), same⟩

/-- A strict interpretation is also the lenient one. -/
theorem Interprets.lenient {document : Document} {query : Query}
    (strict : Interprets .strict document query) : Interprets .lenient document query where
  tables := strict.tables
  columns := strict.columns
  aggregations := by
    rw [interpretAggregations_lenient strict.aggregations]
    rfl
  conditions := strict.conditions.imp fun _ _ => Condition.interpret_lenient
  joins := strict.joins.imp fun _ _ => Join.interpret_lenient
  orderBy := interpretOrder_lenient strict.orderBy
  groupBy := strict.groupBy
  limit := interpretLimit_lenient strict.limit

/-- A lenient interpretation that finds what a strict one would find logs nothing. -/
theorem interpret_lenient_eq_pure {document : Document} {query : Query}
    (strict : (document.interpret .strict).value = .ok query) :
    document.interpret .lenient = pure (.ok query) := by
  have parts := interpret_eq_ok_iff.1 strict
  have value := interpret_eq_ok_iff.2 parts.lenient
  have events : (document.interpret .lenient).events = [] := by
    simp only [interpret, Logged.events_bind, Logged.events_pure,
      interpretAggregations_lenient parts.aggregations, List.append_nil]
  exact Logged.ext value events

end Document

end SemanticQuery
