/-
This file shows what changes in the outcome of a document when the scalar of one condition is
replaced. Either its literal changes and nothing else, or the scalar has no part in the outcome.
-/

import SemanticQuery.Proofs.Statement.Integers

namespace SemanticQuery

/-- Everything but this item is the same in all such texts. -/
theorem exists_intercalate (separator : String) (before after : List String) :
    ∃ front back, ∀ item, separator.intercalate (before ++ item :: after) =
      front ++ item ++ back := by
  have following : ∃ back, ∀ item, separator.intercalate (item :: after) = item ++ back := by
    cases after with
    | nil => exact ⟨"", by simp⟩
    | cons next rest =>
        refine ⟨separator ++ separator.intercalate (next :: rest), fun item => ?_⟩
        rw [String.intercalate_cons_cons, String.append_assoc]
  obtain ⟨back, behind⟩ := following
  cases before with
  | nil => exact ⟨"", back, fun item => by simpa using behind item⟩
  | cons first rest =>
      refine ⟨separator.intercalate (first :: rest) ++ separator, back, fun item => ?_⟩
      rw [String.intercalate_append_of_ne_nil (List.cons_ne_nil _ _) (List.cons_ne_nil _ _),
        behind]
      apply String.toList_inj.1
      simp

/-- A scalar stands alone or between parentheses. -/
theorem Operand.exists_wording_scalar (dialect : Dialect) (operator : Operator) :
    ∃ front back, ∀ scalar : Scalar, (Operand.scalar scalar).wording dialect operator =
      front ++ scalar.wording dialect ++ back := by
  cases operator with
  | oneOf => exact ⟨"(", ")", fun _ => rfl⟩
  | _ => exact ⟨"", "", fun _ => by simp [wording]⟩

namespace Query

variable (dialect : Dialect) (query : Query) (place : Nat)

/-- The phrases around the predicates do not depend on the conditions. -/
theorem exists_phrases : ∃ front back, ∀ conditions,
    { query with conditions }.phrases dialect = front ++
      phrase "WHERE" " AND "
        ((conditions.filter Condition.isRenderable).map (Condition.wording dialect)) ++ back := by
  refine ⟨phrase "SELECT" ", " query.selected ++ phrase "FROM" ", " query.listed ++
    (Plan.ofQuery query).steps.map Plan.Step.wording,
    phrase "GROUP BY" ", " ((query.groupBy.getD []).filter (· ≠ "")) ++
      phrase "ORDER BY" ", "
        (((query.orderBy.getD []).filter (·.column ≠ "")).map OrderTerm.wording) ++
      (query.limit.filter (0 < ·)).toList.map fun limit => "LIMIT " ++ toString limit.toNat,
    fun conditions => ?_⟩
  simp only [phrases, List.append_assoc]
  rfl

/-- A condition that can be rendered has its wording at one place of the statement. -/
theorem exists_wording : ∃ front back, ∀ condition : Condition, condition.isRenderable = true →
    (query.filterAt place condition).wording dialect =
      front ++ condition.wording dialect ++ back := by
  obtain ⟨phrasesBefore, phrasesAfter, phrases⟩ := exists_phrases dialect query
  obtain ⟨outerFront, outerBack, outer⟩ := exists_intercalate " " phrasesBefore phrasesAfter
  obtain ⟨innerFront, innerBack, inner⟩ := exists_intercalate " AND "
    (((query.conditions.take place).filter Condition.isRenderable).map (Condition.wording dialect))
    (((query.conditions.drop place).filter Condition.isRenderable).map (Condition.wording dialect))
  refine ⟨outerFront ++ ("WHERE " ++ innerFront), innerBack ++ outerBack,
    fun condition renderable => ?_⟩
  have predicates : phrase "WHERE" " AND " (((query.conditions.take place ++
      condition :: query.conditions.drop place).filter Condition.isRenderable).map
        (Condition.wording dialect)) =
          ["WHERE " ++ (innerFront ++ condition.wording dialect ++ innerBack)] := by
    rw [List.filter_append, List.filter_cons_of_pos renderable, List.map_append, List.map_cons,
      phrase, inner]
    simp
  rw [wording, filterAt, phrases, predicates, List.append_assoc, List.singleton_append, outer]
  apply String.toList_inj.1
  simp

/-- Other conditions leave no trace. -/
theorem wording_filterAt_of_skipped {condition : Condition}
    (skipped : condition.isRenderable = false) :
    (query.filterAt place condition).wording dialect = query.wording dialect := by
  obtain ⟨_, _, phrases⟩ := exists_phrases dialect query
  have whole := phrases query.conditions
  have others : (query.conditions.take place ++ condition :: query.conditions.drop place).filter
      Condition.isRenderable = query.conditions.filter Condition.isRenderable := by
    rw [List.filter_append, List.filter_cons_of_neg (Bool.eq_false_iff.1 skipped),
      ← List.filter_append, List.take_append_drop]
  rw [wording, filterAt, phrases, others, ← whole]
  rfl

end Query

namespace Document

section Interpretation

variable {α β : Type} {interpret : α → Except Defect β}

/-- One more item that can be interpreted does not change the defect of a list. -/
theorem interpretAll_insert {item : α} {interpreted : β} (read : interpret item = .ok interpreted)
    (place : Nat) (items : List α) :
    interpretAll interpret (items.take place ++ item :: items.drop place) =
      (interpretAll interpret items).map fun results =>
        results.take place ++ interpreted :: results.drop place := by
  induction place generalizing items with
  | zero =>
      rw [List.take_zero, List.drop_zero, List.nil_append, interpretAll, read]
      cases interpretAll interpret items <;> rfl
  | succ place inductionHypothesis =>
      cases items with
      | nil =>
          simp only [List.take_nil, List.drop_nil, List.nil_append, interpretAll, read]
          rfl
      | cons first rest =>
          rw [List.take_succ_cons, List.drop_succ_cons, List.cons_append, interpretAll,
            inductionHypothesis, interpretAll]
          cases interpret first with
          | error => rfl
          | ok => cases interpretAll interpret rest <;> rfl

/-- Items that are interpreted alike can replace each other. -/
theorem interpretAll_congr {item other : α} (same : interpret item = interpret other)
    (before after : List α) :
    interpretAll interpret (before ++ item :: after) =
      interpretAll interpret (before ++ other :: after) := by
  induction before with
  | nil => rw [List.nil_append, List.nil_append, interpretAll, interpretAll, same]
  | cons first rest inductionHypothesis =>
      rw [List.cons_append, List.cons_append, interpretAll, interpretAll, inductionHypothesis]

variable (mode : Mode) (document : Document) (place : Nat)

/-- One more condition that can be interpreted is put into the query, or the defect is that of the
document without it. -/
theorem interpret_filterAt {given : Condition} {condition : SemanticQuery.Condition}
    (read : given.interpret mode = .ok condition) :
    ((document.filterAt place given).interpret mode).value =
      (document.interpret mode).value.map (·.filterAt place condition) := by
  have inserted := interpretAll_insert read place document.conditions
  simp only [interpret, filterAt, Logged.value_bind, Logged.value_pure]
  cases (interpretAggregations mode document.aggregations).value with
  | error => rfl
  | ok aggregations =>
      change interpretRest mode _ aggregations = (interpretRest mode _ aggregations).map _
      simp only [interpretRest, inserted]
      cases interpretAll (Condition.interpret mode) document.conditions with
      | error => rfl
      | ok =>
          cases interpretAll (Join.interpret mode) document.joins with
          | error => rfl
          | ok =>
              cases interpretOrder mode document.orderBy with
              | error => rfl
              | ok => cases interpretLimit mode document.limit <;> rfl

theorem interpret_filterAt_congr {given other : Condition}
    (same : given.interpret mode = other.interpret mode) :
    ((document.filterAt place given).interpret mode).value =
      ((document.filterAt place other).interpret mode).value := by
  have rest (aggregations : List SemanticQuery.Aggregation) :
      interpretRest mode (document.filterAt place given) aggregations =
        interpretRest mode (document.filterAt place other) aggregations := by
    simp only [interpretRest, filterAt, interpretAll_congr same]
  simp only [interpret, Logged.value_bind, Logged.value_pure, filterAt] at rest ⊢
  rw [funext rest]

end Interpretation

/-- One more condition is written into the statement of a document if the document compiles without
it, its column has a name, and its operator can be read. -/
structure Writes (document : Document) (given : Condition) : Prop where
  tables : document.tables ≠ []
  interpreted : ∃ query, (document.interpret .lenient).value = .ok query
  named : given.columnText ≠ ""
  read : ∃ operator, given.operator? .lenient = some operator

section Replaced

variable (dialect : Dialect) (document : Document) (place : Nat) {given : Condition}
  {value other : Json.Value} {first second : Scalar}

/-- The scalar becomes the operand of the condition, whose other parts do not depend on it. -/
theorem Condition.interpret_comparing (mode : Mode)
    (read : interpretValue given.columnText value = .ok (some (.scalar first))) :
    (given.comparing value).interpret mode =
      (orDefect (.operator given.columnText given.operator) (given.operator? mode)).map
        fun operator => ⟨given.columnText, operator, some (.scalar first), given.table⟩ := by
  change (orDefect _ (given.operator? mode) >>= fun _ =>
    interpretValue given.columnText value >>= fun _ => _) = _
  rw [read]
  rfl

/-- The literal of a scalar stands at a place of the statement that does not depend on it. -/
theorem Writes.exists_compile {document : Document} (writes : document.Writes given) :
    ∃ front back, ∀ value scalar,
      interpretValue given.columnText value = .ok (some (.scalar scalar)) →
        ((document.filterAt place (given.comparing value)).compile dialect).value =
          .compiled (front ++ scalar.wording dialect ++ back) := by
  obtain ⟨tables, ⟨query, found⟩, named, operator, read⟩ := writes
  obtain ⟨front, back, statement⟩ := query.exists_wording dialect place
  obtain ⟨opening, closing, operand⟩ := Operand.exists_wording_scalar dialect operator
  refine ⟨front ++ (given.columnText ++ " " ++ Keyword.spelling operator ++ " ") ++ opening,
    closing ++ back, fun value scalar scalarRead => ?_⟩
  have comparing : (given.comparing value).operand = .ok (some (.scalar scalar)) := scalarRead
  have again : (given.comparing value).operator? .lenient = some operator := read
  have kept : (given.comparing value).columnText = given.columnText := rfl
  obtain ⟨condition, renderable, wording, compiled⟩ :=
    compares_of_operand dialect place tables found (kept ▸ named) again comparing (by simp)
  rw [compiled, statement condition renderable, wording, operand, kept]
  congr 1
  apply String.toList_inj.1
  simp

theorem compile_congr {whole later : Document} (tables : whole.tables = later.tables)
    (same : (whole.interpret .lenient).value = (later.interpret .lenient).value) :
    (whole.compile dialect).value = (later.compile dialect).value := by
  by_cases none : later.tables = []
  · rw [compile_of_noTables dialect none, compile_of_noTables dialect (tables.trans none)]
  · rw [value_compile dialect none, value_compile dialect (tables ▸ none), same]

/-- A condition without a column is left out. -/
theorem compile_of_unnamed {query : Query} {condition : SemanticQuery.Condition}
    (tables : document.tables ≠ []) (found : (document.interpret .lenient).value = .ok query)
    (read : given.interpret .lenient = .ok condition) (unnamed : given.columnText = "") :
    ((document.filterAt place given).compile dialect).value =
      .compiled (query.wording dialect) := by
  have whole : ((document.filterAt place given).interpret .lenient).value =
      .ok (query.filterAt place condition) := by
    rw [interpret_filterAt _ _ _ read, found]
    rfl
  have kept : (document.filterAt place given).tables ≠ [] := tables
  obtain ⟨tokens, rendered, compiled⟩ := compile_of_ok dialect kept whole
  have skipped : condition.isRenderable = false := by
    have column := (Condition.interpret_eq_ok_iff.1 read).2.2.1
    simp [SemanticQuery.Condition.isRenderable, column, unnamed]
  rw [compiled, Query.text_of_statement rendered,
    Query.wording_filterAt_of_skipped dialect query place skipped]

/-- A scalar that is not written has no part in the outcome, even if there is no statement. -/
theorem compile_of_not_writes (skipped : ¬document.Writes given)
    (firstRead : interpretValue given.columnText value = .ok (some (.scalar first)))
    (secondRead : interpretValue given.columnText other = .ok (some (.scalar second))) :
    ((document.filterAt place (given.comparing value)).compile dialect).value =
      ((document.filterAt place (given.comparing other)).compile dialect).value := by
  have firstInterpreted := Condition.interpret_comparing .lenient firstRead
  have secondInterpreted := Condition.interpret_comparing .lenient secondRead
  cases read : given.operator? .lenient with
  | none =>
      refine compile_congr dialect rfl (interpret_filterAt_congr _ _ _ ?_)
      rw [firstInterpreted, secondInterpreted, read]
      rfl
  | some operator =>
      rw [read] at firstInterpreted secondInterpreted
      cases found : (document.interpret .lenient).value with
      | error defect =>
          refine compile_congr dialect rfl ?_
          rw [interpret_filterAt _ _ _ firstInterpreted,
            interpret_filterAt _ _ _ secondInterpreted, found]
          rfl
      | ok query =>
          by_cases tables : document.tables = []
          · have noTables (condition : Condition) :
                ((document.filterAt place condition).compile dialect).value =
                  .degraded .noTables := compile_of_noTables dialect tables
            rw [noTables, noTables]
          · -- Only the name of the column can be missing now.
            have unnamed : given.columnText = "" := by
              by_contra named
              exact skipped ⟨tables, ⟨query, found⟩, named, ⟨operator, read⟩⟩
            rw [compile_of_unnamed dialect document place tables found firstInterpreted unnamed,
              compile_of_unnamed dialect document place tables found secondInterpreted unnamed]

end Replaced

end Document

end SemanticQuery
