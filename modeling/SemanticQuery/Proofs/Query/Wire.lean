/-
This file shows that a query is the strict interpretation of the document that its JSON form is read
as, so the form says everything about the query.
-/

import SemanticQuery.Proofs.Interpretation.Inversion
import SemanticQuery.Proofs.Query.Form

namespace SemanticQuery

/-- Items that are interpreted from their forms are so as a list. -/
theorem Document.interpretAll_map {α β : Type} {interpret : α → Except Defect β} {write : β → α}
    {items : List β} (read : ∀ item ∈ items, interpret (write item) = .ok item) :
    interpretAll interpret (items.map write) = .ok items :=
  interpretAll_eq_ok_iff.2 (List.forall₂_map_left_iff.2 (List.forall₂_same.2 read))

/-- A scalar is interpreted from its own form. -/
theorem Scalar.IsExact.interpretScalar_toJson {scalar : Scalar} (exact : scalar.IsExact)
    (column : String) :
    Document.interpretScalar column scalar.toJson = .ok scalar := by
  cases scalar with
  | float number => exact absurd rfl (exact number)
  | _ => rfl

/-- A writable operand is interpreted from its own form. -/
theorem Operand.IsWritable.interpretValue_toJson {operand : Operand}
    (writable : operand.IsWritable) (column : String) :
    Document.interpretValue column operand.toJson = .ok (some operand) := by
  cases operand with
  | scalar value =>
      cases value with
      | null => exact absurd rfl writable.present
      | float number => exact absurd rfl (writable.exact _ (List.mem_singleton_self _) number)
      | _ => rfl
  | list items =>
      refine map_eq_ok_iff.2 ⟨items, Document.interpretAll_map fun item inside => ?_, rfl⟩
      exact (writable.exact item inside).interpretScalar_toJson column

/-- The document of a writable condition is interpreted as the condition. -/
theorem Condition.interpret_toDocument {condition : Condition} (writable : condition.IsWritable) :
    condition.toDocument.interpret .strict = .ok condition := by
  refine Document.Condition.interpret_eq_ok_iff.2 ⟨?_, ?_, rfl, rfl⟩
  · exact Keyword.canonical?_spelling condition.operator
  · unfold toDocument Document.Condition.operand
    cases present : condition.operand with
    | none => rfl
    | some operand => exact (writable operand present).interpretValue_toJson condition.column

namespace Aggregation

theorem read?_toDocument (aggregation : Aggregation) :
    aggregation.toDocument.read? .strict = some aggregation := by
  have canonical := Keyword.canonical?_spelling aggregation.function
  change (Keyword.canonical? AggregateFunction _ >>= fun function => _) = _
  rw [canonical]
  rfl

/-- No aggregation is a defect. -/
theorem interpretAggregations_map (aggregations : List Aggregation) :
    (Document.interpretAggregations .strict (aggregations.map toDocument)).value =
      .ok aggregations := by
  induction aggregations with
  | nil => rfl
  | cons aggregation aggregations inductionHypothesis =>
      simp only [List.map_cons, Document.interpretAggregations, read?_toDocument,
        Logged.value_bind, Logged.value_pure, inductionHypothesis]
      rfl

end Aggregation

theorem Join.interpret_toDocument (join : Join) :
    join.toDocument.interpret .strict = .ok join := by
  simp only [Document.Join.interpret, bind_eq_ok_iff, orDefect_eq_ok_iff]
  exact ⟨join.type, Keyword.canonical?_spelling join.type, rfl⟩

namespace OrderTerm

theorem interpret_toDocument (term : OrderTerm) :
    term.toDocument.interpret .strict = .ok term := by
  simp only [Document.OrderTerm.interpret, bind_eq_ok_iff, orDefect_eq_ok_iff]
  exact ⟨term.direction, Keyword.canonical?_spelling term.direction, rfl⟩

theorem interpretOrder_map (order : Option (List OrderTerm)) :
    Document.interpretOrder .strict (order.map (·.map toDocument)) = .ok order := by
  cases order with
  | none => rfl
  | some terms =>
      exact map_eq_ok_iff.2
        ⟨terms, Document.interpretAll_map fun term _ => term.interpret_toDocument, rfl⟩

end OrderTerm

namespace Query

/-- A limit is interpreted from its own form. -/
theorem interpretLimit_map (limit : Option UInt64) :
    Document.interpretLimit .strict
      (limit.map fun limit => .number (.integer (.ofUInt64 limit))) = .ok limit := by
  cases limit with
  | none => rfl
  | some limit =>
      have read : Document.limit? .strict (.number (.integer (.ofUInt64 limit))) = some limit :=
        Integer.toUInt64?_ofUInt64 limit
      simp only [Option.map_some, Document.interpretLimit, read]
      rfl

variable {query : Query}

/-- A query is the strict interpretation of its document. -/
theorem interprets_toDocument (writable : query.IsWritable) :
    Document.Interprets .strict query.toDocument query where
  tables := rfl
  columns := rfl
  aggregations := Aggregation.interpretAggregations_map query.aggregations
  conditions := List.forall₂_map_left_iff.2 <| List.forall₂_same.2 fun condition inside =>
    Condition.interpret_toDocument (writable condition inside)
  joins := List.forall₂_map_left_iff.2 <| List.forall₂_same.2 fun join _ =>
    join.interpret_toDocument
  orderBy := OrderTerm.interpretOrder_map query.orderBy
  groupBy := rfl
  limit := interpretLimit_map query.limit

/-- The scalars of an exact query are no doubles. -/
def IsExact (query : Query) : Prop := ∀ number, .float number ∉ query.scalars

/-- An interpreted operand is not null, because null means that there is none. -/
theorem ne_null_of_operand {given : Document.Condition} {operand : Operand}
    (read : given.operand = .ok (some operand)) : operand ≠ .scalar .null := by
  rintro rfl
  unfold Document.Condition.operand at read
  split at read
  · cases read
  · unfold Document.interpretValue at read
    split at read
    · cases read
    · obtain ⟨_, _, impossible⟩ := map_eq_ok_iff.1 read
      cases impossible
    · next notNull _ =>
        obtain ⟨scalar, interpreted, same⟩ := map_eq_ok_iff.1 read
        cases same
        unfold Document.interpretScalar at interpreted
        split at interpreted <;> cases interpreted
        exact notNull rfl

/-- An interpreted query is writable when it is exact. -/
theorem IsExact.isWritable {mode : Mode} {document : Document} (exact : query.IsExact)
    (interprets : Document.Interprets mode document query) : query.IsWritable := by
  intro condition inside operand present
  obtain ⟨given, _, interpreted⟩ :=
    Document.exists_of_forall₂ interprets.conditions condition inside
  have read := (Document.Condition.interpret_eq_ok_iff.1 interpreted).2.1
  rw [Option.mem_def.1 present] at read
  refine ⟨ne_null_of_operand read, ?_⟩
  rintro scalar member number rfl
  refine exact number (List.mem_flatMap.2 ⟨condition, inside, ?_⟩)
  rw [Option.mem_def.1 present]
  exact member

/-- The text of an exact query is read as its document, and that document is interpreted as the
query. -/
theorem IsExact.read_back {mode : Mode} {document : Document} (exact : query.IsExact)
    (interpreted : (document.interpret mode).value = .ok query) :
    Document.ofJson query.jsonText = .ok query.toDocument ∧
      (query.toDocument.interpret .strict).value = .ok query := by
  have writable := exact.isWritable (Document.interpret_eq_ok_iff.1 interpreted)
  exact ⟨ofJson_jsonText writable,
    Document.interpret_eq_ok_iff.2 (interprets_toDocument writable)⟩

/-- The text of an interpreted query without doubles is a document, whose strict interpretation is
the query. Two such queries with the same text are therefore equal, and they compile to the same
statements. -/
theorem interpret_jsonText {mode : Mode} {document : Document}
    (interpreted : (document.interpret mode).value = .ok query) (exact : query.IsExact) :
    (∃ written, Document.ofJson query.jsonText = .ok written ∧
        (written.interpret .strict).value = .ok query) ∧
      ∀ otherMode otherDocument other,
        (Document.interpret otherMode otherDocument).value = .ok other → other.IsExact →
          other.jsonText = query.jsonText →
            other = query ∧ ∀ dialect, other.compile dialect = query.compile dialect := by
  obtain ⟨read, back⟩ := exact.read_back interpreted
  refine ⟨⟨_, read, back⟩, ?_⟩
  intro otherMode otherDocument other otherInterpreted otherExact sameText
  obtain ⟨otherRead, otherBack⟩ := otherExact.read_back otherInterpreted
  -- The text is read as one document, and the document as one query.
  rw [sameText, read] at otherRead
  rw [← Except.ok.inj otherRead, back] at otherBack
  obtain rfl := Except.ok.inj otherBack
  exact ⟨rfl, fun _ => rfl⟩

/-- The keywords of this document are not canonical, and its limit is a text. -/
def loose : Document :=
  { Document.empty with
    conditions := [
      ⟨some "\"é", some " in", some (.array [.null, .string "\n",
        .number (.integer ⟨18446744073709551615, by decide, by decide⟩)]), none⟩,
      ⟨none, none, none, some ""⟩]
    aggregations := [⟨some "sum", none, none⟩, ⟨some "median", none, none⟩]
    groupBy := some []
    limit := some (.string " 7") }

/-- This query is its lenient interpretation. -/
def settled : Query :=
  { Query.ofTables [] with
    conditions := [
      ⟨"\"é", .oneOf, some (.list [.null, .string "\n",
        .integer ⟨18446744073709551615, by decide, by decide⟩]), none⟩,
      ⟨"", .equal, none, some ""⟩]
    aggregations := [⟨.sum, "", none⟩]
    groupBy := some []
    limit := some 7 }

/-- The text of the settled query leads back to it. -/
theorem interpret_jsonText_settled :
    ∃ written, Document.ofJson settled.jsonText = .ok written ∧
      (written.interpret .strict).value = .ok settled := by
  have interpreted : (loose.interpret .lenient).value = .ok settled := by decide +kernel
  have exact : settled.IsExact := by
    intro number
    simp [settled, scalars, Operand.scalars]
  exact (interpret_jsonText interpreted exact).1

end Query

end SemanticQuery
