/-
This file shows that the JSON form of a query is read as a document. The scalars of the query must
not be doubles.
-/

import SemanticQuery.Proofs.Document.RoundTrip
import SemanticQuery.Proofs.Statement.Unquotable

namespace SemanticQuery

open Json (Reader Tree Value)

/-- The value of the document is the form of the operand. -/
def Condition.toDocument (condition : Condition) : Document.Condition where
  column := some condition.column
  operator := some (Keyword.spelling condition.operator)
  value := condition.operand.map Operand.toJson
  table := condition.table

/-- The function is given by its canonical spelling. -/
def Aggregation.toDocument (aggregation : Aggregation) : Document.Aggregation where
  function := some (Keyword.spelling aggregation.function)
  column := some aggregation.column
  label := aggregation.label

/-- No part of the join is missing. -/
def Join.toDocument (join : Join) : Document.Join where
  type := some (Keyword.spelling join.type)
  table1 := some join.table1
  table2 := some join.table2
  condition := some join.condition

/-- No part of the order term is missing. -/
def OrderTerm.toDocument (term : OrderTerm) : Document.OrderTerm where
  column := some term.column
  direction := some (Keyword.spelling term.direction)

/-- This document is what the form of a query is read as. -/
def Query.toDocument (query : Query) : Document where
  tables := query.tables
  columns := query.columns
  conditions := query.conditions.map Condition.toDocument
  aggregations := query.aggregations.map Aggregation.toDocument
  joins := query.joins.map Join.toDocument
  orderBy := query.orderBy.map (·.map OrderTerm.toDocument)
  groupBy := query.groupBy
  limit := query.limit.map fun limit => .number (.integer (.ofUInt64 limit))

theorem Json.Reader.optional_keyword {α : Type} [Keyword α] (keyword : α) :
    optional text (Keyword.toJson keyword).tree = .ok (some (Keyword.spelling keyword)) :=
  optional_string _

/-- A text that is left out at the end of a record is read like one that is null. -/
theorem Json.Reader.positions_optionalMember {ρ : Type} {key : String}
    {replace : Option String → ρ → ρ} {part : Option String} {record : ρ}
    (absent : replace none record = record) :
    positions [.of key (.optional .text) replace]
        (Value.itemTrees ((optionalMember key part).map (·.2))) none record =
      .ok (replace part record) := by
  cases part with
  | none =>
      rw [absent]
      rfl
  | some value => exact positions_itemTrees_cons (optional_string value) [] record

theorem Json.Value.isExact_append_optionalMember {members : List (String × Value)} {key : String}
    {part : Option String} (exact : haveExact members = true) :
    (object (members ++ optionalMember key part)).isExact = true := by
  refine haveExact_eq_true_iff.2 fun member inside => ?_
  rcases List.mem_append.1 inside with old | last
  · exact haveExact_eq_true_iff.1 exact member old
  · cases part with
    | none => cases last
    | some text =>
        obtain rfl := List.mem_singleton.1 last
        rfl

/-- An exact scalar is no double. -/
def Scalar.IsExact (scalar : Scalar) : Prop := ∀ number, scalar ≠ .float number

theorem Scalar.IsExact.isExact_toJson {scalar : Scalar} (exact : scalar.IsExact) :
    scalar.toJson.isExact = true := by
  cases scalar with
  | float number => exact absurd rfl (exact number)
  | _ => rfl

theorem Scalar.fits_toJson (room : Nat) (scalar : Scalar) : scalar.toJson.Fits room := by
  cases scalar with
  | float number =>
      rw [toJson]
      split
      · exact .number _
      · exact .null
  | string value => exact .string value
  | integer value => exact .number _
  | boolean value => exact .boolean value
  | null => exact .null

theorem Operand.fits_toJson (room : Nat) (operand : Operand) : operand.toJson.Fits (room + 1) := by
  cases operand with
  | scalar value => exact value.fits_toJson _
  | list items =>
      refine .array fun value inside => ?_
      obtain ⟨item, _, rfl⟩ := List.mem_map.1 inside
      exact item.fits_toJson room

/-- A writable operand is told apart from an absent one, and it has no doubles. -/
structure Operand.IsWritable (operand : Operand) : Prop where
  present : operand ≠ .scalar .null
  exact : ∀ scalar ∈ operand.scalars, scalar.IsExact

namespace Operand.IsWritable

variable {operand : Operand}

theorem isExact_toJson (writable : operand.IsWritable) : operand.toJson.isExact = true := by
  cases operand with
  | scalar value => exact (writable.exact value (List.mem_singleton_self value)).isExact_toJson
  | list items =>
      exact Value.isExact_ofList fun item inside => (writable.exact item inside).isExact_toJson

theorem toJson_ne_null (writable : operand.IsWritable) : operand.toJson ≠ .null := by
  cases operand with
  | scalar value =>
      cases value with
      | null => exact absurd rfl writable.present
      | float number => exact absurd rfl (writable.exact _ (List.mem_singleton_self _) number)
      | _ => exact Value.noConfusion
  | list items => exact Value.noConfusion

end Operand.IsWritable

namespace Condition

/-- The operand of a writable condition can be written if there is one. -/
def IsWritable (condition : Condition) : Prop :=
  ∀ operand ∈ condition.operand, operand.IsWritable

variable {condition : Condition}

theorem isStored_toDocument (writable : condition.IsWritable) : condition.toDocument.IsStored := by
  intro value inside
  obtain ⟨operand, present, rfl⟩ := Option.map_eq_some_iff.1 inside
  exact ⟨(writable operand present).toJson_ne_null, operand.fits_toJson _⟩

theorem isExact_value (writable : condition.IsWritable) :
    ∀ value ∈ condition.toDocument.value, value.isExact = true := by
  intro value inside
  obtain ⟨operand, present, rfl⟩ := Option.map_eq_some_iff.1 inside
  exact (writable operand present).isExact_toJson

/-- The form of an operand is read as a raw value. -/
theorem optional_operand (writable : condition.IsWritable) :
    Reader.optional (Document.rawValue 3) (Value.ofOption Operand.toJson condition.operand).tree =
      .ok condition.toDocument.value := by
  have read := Document.optional_rawValue (isStored_toDocument writable) (isExact_value writable)
  unfold toDocument at read ⊢
  cases present : condition.operand with
  | none => rfl
  | some operand =>
      rw [present] at read
      exact read

/-- The form of a condition is read as its document, with or without a table. -/
theorem record_toJson (writable : condition.IsWritable) :
    Reader.record Document.Condition.fields ⟨none, none, none, none⟩ condition.toJson.tree =
      .ok condition.toDocument := by
  have named : ([("column", Value.string condition.column),
      ("operator", Keyword.toJson condition.operator),
      ("value", Value.ofOption Operand.toJson condition.operand)] ++
        optionalMember "table" condition.table).map (·.1) <+:
          Document.Condition.fields.map (·.key) := by
    cases condition.table with
    | none => exact ⟨["table"], rfl⟩
    | some table => exact ⟨[], rfl⟩
  rw [toJson, Reader.record_object (by decide) named]
  change Reader.positions Document.Condition.fields
    (Value.itemTrees (_ :: _ :: _ :: (optionalMember "table" condition.table).map (·.2))) none _ = _
  rw [Document.Condition.fields,
    Reader.positions_itemTrees_cons (Reader.optional_string condition.column),
    Reader.positions_itemTrees_cons (Reader.optional_keyword condition.operator),
    Reader.positions_itemTrees_cons (optional_operand writable),
    Reader.positions_optionalMember rfl]
  rfl

theorem isExact_toJson (writable : condition.IsWritable) : condition.toJson.isExact = true := by
  have operand : (Value.ofOption Operand.toJson condition.operand).isExact = true :=
    Value.isExact_ofOption fun operand present => (writable operand present).isExact_toJson
  exact Value.isExact_append_optionalMember
    (by simp [Value.haveExact, Value.isExact, Keyword.toJson, operand])

end Condition

namespace Aggregation

/-- The form of an aggregation is read as its document, with or without a label. -/
theorem record_toJson (aggregation : Aggregation) :
    Reader.record Document.Aggregation.fields ⟨none, none, none⟩ aggregation.toJson.tree =
      .ok aggregation.toDocument := by
  have named : ([("function", Keyword.toJson aggregation.function),
      ("column", Value.string aggregation.column)] ++
        optionalMember "alias" aggregation.label).map (·.1) <+:
          Document.Aggregation.fields.map (·.key) := by
    cases aggregation.label with
    | none => exact ⟨["alias"], rfl⟩
    | some label => exact ⟨[], rfl⟩
  rw [toJson, Reader.record_object (by decide) named]
  change Reader.positions Document.Aggregation.fields
    (Value.itemTrees (_ :: _ :: (optionalMember "alias" aggregation.label).map (·.2))) none _ = _
  rw [Document.Aggregation.fields,
    Reader.positions_itemTrees_cons (Reader.optional_keyword aggregation.function),
    Reader.positions_itemTrees_cons (Reader.optional_string aggregation.column),
    Reader.positions_optionalMember rfl]
  rfl

theorem isExact_toJson (aggregation : Aggregation) : aggregation.toJson.isExact = true :=
  Value.isExact_append_optionalMember (by simp [Value.haveExact, Value.isExact, Keyword.toJson])

end Aggregation

namespace Query

/-- A writable query has no doubles, and no operand of it is null. -/
def IsWritable (query : Query) : Prop := ∀ condition ∈ query.conditions, condition.IsWritable

variable {query : Query}

theorem isExact_toJson (writable : query.IsWritable) : query.toJson.isExact = true := by
  have conditions : (Value.ofList Condition.toJson query.conditions).isExact = true :=
    Value.isExact_ofList fun condition inside =>
      Condition.isExact_toJson (writable condition inside)
  have aggregations : (Value.ofList Aggregation.toJson query.aggregations).isExact = true :=
    Value.isExact_ofList fun aggregation _ => aggregation.isExact_toJson
  have joins : (Value.ofList Join.toJson query.joins).isExact = true :=
    Value.isExact_ofList fun join _ => join.toDocument.isExact_toJson
  have orderBy : (Value.ofOption (Value.ofList OrderTerm.toJson) query.orderBy).isExact = true :=
    Value.isExact_ofOption fun _ _ =>
      Value.isExact_ofList fun term _ => term.toDocument.isExact_toJson
  have groupBy : (Value.ofOption (Value.ofList .string) query.groupBy).isExact = true :=
    Value.isExact_ofOption fun items _ => Document.isExact_texts items
  have limit : (Value.ofOption (fun limit => .number (.integer (.ofUInt64 limit)))
      query.limit).isExact = true := Value.isExact_ofOption fun _ _ => rfl
  simp [toJson, Value.isExact, Value.haveExact, Document.isExact_texts, conditions, aggregations,
    joins, orderBy, groupBy, limit]

/-- The form of a limit is read as a raw value. -/
theorem optional_limit (limit : Option UInt64) :
    Reader.optional (Document.rawValue 1)
        (Value.ofOption (fun limit => .number (.integer (.ofUInt64 limit))) limit).tree =
      .ok (limit.map fun limit => .number (.integer (.ofUInt64 limit))) := by
  cases limit with
  | none => rfl
  | some limit => exact Reader.optional_of_ok Tree.noConfusion (Value.value_tree (.number _) rfl)

/-- The form of a writable query is read as its document. -/
theorem reader_toJson (writable : query.IsWritable) :
    Document.reader query.toJson.tree = .ok query.toDocument := by
  apply Document.reader_object
  case tablesRead => exact Reader.listOrNull_self fun text _ => Reader.text_tree text
  case columnsRead => exact Reader.listOrNull_self fun text _ => Reader.text_tree text
  case conditionsRead =>
    exact Reader.listOrNull_tree fun condition inside =>
      Condition.record_toJson (writable condition inside)
  case aggregationsRead =>
    exact Reader.listOrNull_tree fun aggregation _ => aggregation.record_toJson
  case joinsRead =>
    exact Reader.listOrNull_tree fun join _ => join.toDocument.record_toJson
  case orderByRead =>
    exact Reader.optional_list_tree fun _ _ term _ => term.toDocument.record_toJson
  case groupByRead => exact Reader.optional_list_self fun _ _ text _ => Reader.text_tree text
  case limitRead => exact optional_limit query.limit

/-- The text of a writable query is read as its document. -/
theorem ofJson_jsonText (writable : query.IsWritable) :
    Document.ofJson query.jsonText = .ok query.toDocument :=
  Document.ofJson_of_written (Value.isWrittenAs_compactText (isExact_toJson writable))
    (reader_toJson writable)

end Query

end SemanticQuery
