/-
This file shows that a document is read again from its own JSON form in both layouts. It is read back
unchanged if its numbers are integers.
-/

import SemanticQuery.Command.Run
import SemanticQuery.Proofs.Json.Record

namespace SemanticQuery

namespace Document

open Json (Reader Tree Value)

section Parts

/-- A raw part is missing, or it is a value that can be read at this place. Null counts as
missing. -/
def IsRaw (levels : Nat) (part : Option Value) : Prop :=
  ∀ value ∈ part, value ≠ .null ∧ value.Fits (Tree.maximumDepth - levels)

variable {levels : Nat} {part : Option Value}

theorem isRaw_none : IsRaw levels none := by
  intro value inside
  cases inside

theorem isRaw_of_read {tree : Tree} (read : Reader.optional (rawValue levels) tree = .ok part) :
    IsRaw levels part := by
  intro value inside
  obtain rfl : part = some value := inside
  obtain ⟨some, here⟩ := Reader.optional_eq_ok_some read
  refine ⟨?_, Tree.fits_of_value here⟩
  rintro rfl
  exact some (Tree.eq_null_of_value here)

/-- Only the doubles of a raw part can change when it is read again. -/
theorem optional_rawValue_reread (raw : IsRaw levels part) :
    Reader.optional (rawValue levels) (part.getD .null).tree = .ok (part.map Value.reread) := by
  cases part with
  | none => rfl
  | some value =>
      obtain ⟨present, fits⟩ := raw value rfl
      exact Reader.optional_of_ok (Value.tree_ne_null present) (Value.value_tree_reread fits)

theorem map_reread (exact : ∀ value ∈ part, value.isExact = true) :
    part.map Value.reread = part := by
  cases part with
  | none => rfl
  | some value => rw [Option.map_some, value.reread_of_isExact (exact value rfl)]

theorem optional_rawValue (raw : IsRaw levels part)
    (exact : ∀ value ∈ part, value.isExact = true) :
    Reader.optional (rawValue levels) (part.getD .null).tree = .ok part := by
  rw [optional_rawValue_reread raw, map_reread exact]

theorem optional_text (part : Option String) :
    Reader.optional .text (optionalText part).tree = .ok part := by
  cases part with
  | none => rfl
  | some value => exact Reader.optional_string value

end Parts

/-- The value of a stored condition is nested in the condition, its list and the document. -/
def Condition.IsStored (condition : Condition) : Prop := IsRaw 3 condition.value

/-- The value of a condition is read again. -/
def Condition.reread (condition : Condition) : Condition :=
  { condition with value := condition.value.map Value.reread }

/-- All values and the limit of a document are read again. -/
def reread (document : Document) : Document :=
  { document with
    conditions := document.conditions.map Condition.reread
    limit := document.limit.map Value.reread }

section Records

/-- A stored condition is read again. -/
theorem Condition.record_toJson {condition : Condition} (stored : condition.IsStored) :
    Reader.record Condition.fields ⟨none, none, none, none⟩ condition.toJson.tree =
      .ok condition.reread := by
  rw [toJson, Reader.record_object (by decide) ⟨[], rfl⟩]
  change Reader.positions Condition.fields (Value.itemTrees [_, _, _, _]) none _ = _
  rw [fields, Reader.positions_itemTrees_cons (optional_text condition.column),
    Reader.positions_itemTrees_cons (optional_text condition.operator),
    Reader.positions_itemTrees_cons (optional_rawValue_reread stored),
    Reader.positions_itemTrees_cons (optional_text condition.table)]
  rfl

theorem Aggregation.record_toJson (aggregation : Aggregation) :
    Reader.record Aggregation.fields ⟨none, none, none⟩ aggregation.toJson.tree =
      .ok aggregation := by
  rw [toJson, Reader.record_object (by decide) ⟨[], rfl⟩]
  change Reader.positions Aggregation.fields (Value.itemTrees [_, _, _]) none _ = _
  rw [fields, Reader.positions_itemTrees_cons (optional_text aggregation.function),
    Reader.positions_itemTrees_cons (optional_text aggregation.column),
    Reader.positions_itemTrees_cons (optional_text aggregation.label)]
  rfl

theorem Join.record_toJson (join : Join) :
    Reader.record Join.fields ⟨none, none, none, none⟩ join.toJson.tree = .ok join := by
  rw [toJson, Reader.record_object (by decide) ⟨[], rfl⟩]
  change Reader.positions Join.fields (Value.itemTrees [_, _, _, _]) none _ = _
  rw [fields, Reader.positions_itemTrees_cons (optional_text join.type),
    Reader.positions_itemTrees_cons (optional_text join.table1),
    Reader.positions_itemTrees_cons (optional_text join.table2),
    Reader.positions_itemTrees_cons (optional_text join.condition)]
  rfl

theorem OrderTerm.record_toJson (term : OrderTerm) :
    Reader.record OrderTerm.fields ⟨none, none⟩ term.toJson.tree = .ok term := by
  rw [toJson, Reader.record_object (by decide) ⟨[], rfl⟩]
  change Reader.positions OrderTerm.fields (Value.itemTrees [_, _]) none _ = _
  rw [fields, Reader.positions_itemTrees_cons (optional_text term.column),
    Reader.positions_itemTrees_cons (optional_text term.direction)]
  rfl

/-- An object of these members is read as the document when each of them is read as its part. -/
theorem reader_object {document : Document}
    {tables columns conditions aggregations joins orderBy groupBy limit : Value}
    (tablesRead : Reader.listOrNull .text tables.tree = .ok document.tables)
    (columnsRead : Reader.listOrNull .text columns.tree = .ok document.columns)
    (conditionsRead : Reader.listOrNull (.record Condition.fields ⟨none, none, none, none⟩)
      conditions.tree = .ok document.conditions)
    (aggregationsRead : Reader.listOrNull (.record Aggregation.fields ⟨none, none, none⟩)
      aggregations.tree = .ok document.aggregations)
    (joinsRead : Reader.listOrNull (.record Join.fields ⟨none, none, none, none⟩) joins.tree =
      .ok document.joins)
    (orderByRead : Reader.optional (.list (.record OrderTerm.fields ⟨none, none⟩)) orderBy.tree =
      .ok document.orderBy)
    (groupByRead : Reader.optional (.list .text) groupBy.tree = .ok document.groupBy)
    (limitRead : Reader.optional (rawValue 1) limit.tree = .ok document.limit) :
    reader (Value.object [("tables", tables), ("columns", columns), ("conditions", conditions),
      ("aggregations", aggregations), ("joins", joins), ("order_by", orderBy),
      ("group_by", groupBy), ("limit", limit)]).tree = .ok document := by
  rw [reader, Reader.record_object (by decide) ⟨[], rfl⟩]
  change Reader.positions Document.fields (Value.itemTrees [_, _, _, _, _, _, _, _]) none _ = _
  rw [fields, Reader.positions_itemTrees_cons tablesRead,
    Reader.positions_itemTrees_cons columnsRead, Reader.positions_itemTrees_cons conditionsRead,
    Reader.positions_itemTrees_cons aggregationsRead, Reader.positions_itemTrees_cons joinsRead,
    Reader.positions_itemTrees_cons orderByRead, Reader.positions_itemTrees_cons groupByRead,
    Reader.positions_itemTrees_cons limitRead]
  rfl

end Records

/-- The raw parts of a stored document are such as a reader leaves them. -/
structure IsStored (document : Document) : Prop where
  conditions : ∀ condition ∈ document.conditions, condition.IsStored
  limit : IsRaw 1 document.limit

section Stored

open Json.FieldReader (keeps_of)

/-- Only one field of a condition reads a raw value. -/
theorem Condition.isStored_of_record {tree : Tree} {condition : Condition}
    (read : Reader.record Condition.fields ⟨none, none, none, none⟩ tree = .ok condition) :
    condition.IsStored := by
  have kept : ∀ field ∈ Condition.fields, field.Keeps Condition.IsStored := by
    simp only [Condition.fields, List.forall_mem_cons]
    refine ⟨keeps_of ?column, keeps_of ?operator, keeps_of ?value, keeps_of ?table, by simp⟩
    case value => exact fun _ _ _ here _ => isRaw_of_read here
    all_goals exact fun _ _ _ _ stored => stored
  have start : Condition.IsStored ⟨none, none, none, none⟩ := isRaw_none
  exact Reader.record_induction kept start read

/-- Every document that is read is a stored one, whether its fields come with keys or by their
positions. -/
theorem isStored_of_reader {tree : Tree} {document : Document}
    (read : reader tree = .ok document) : document.IsStored := by
  have kept : ∀ field ∈ Document.fields, field.Keeps IsStored := by
    simp only [Document.fields, List.forall_mem_cons]
    refine ⟨keeps_of ?tables, keeps_of ?columns, keeps_of ?conditions, keeps_of ?aggregations,
      keeps_of ?joins, keeps_of ?orderBy, keeps_of ?groupBy, keeps_of ?limit, by simp⟩
    -- All fields but these two leave the raw parts alone.
    case conditions =>
      intro _ conditions _ here stored
      refine ⟨fun condition inside => ?_, stored.limit⟩
      obtain ⟨tree, found⟩ := Reader.exists_of_mem_listOrNull here condition inside
      exact Condition.isStored_of_record found
    case limit => exact fun _ _ _ here stored => ⟨stored.conditions, isRaw_of_read here⟩
    all_goals exact fun _ _ _ _ stored => ⟨stored.conditions, stored.limit⟩
  have start : empty.IsStored := ⟨by simp [empty], isRaw_none⟩
  exact Reader.record_induction kept start read

end Stored

/-- The numbers of an exact document are integers, inside of its raw parts as well. -/
structure IsExact (document : Document) : Prop where
  conditions : ∀ condition ∈ document.conditions, ∀ value ∈ condition.value, value.isExact = true
  limit : ∀ value ∈ document.limit, value.isExact = true

section Exact

theorem isExact_optionalText (part : Option String) : (optionalText part).isExact = true :=
  Value.isExact_ofOption fun _ _ => rfl

theorem isExact_getD {part : Option Value} (exact : ∀ value ∈ part, value.isExact = true) :
    (part.getD .null).isExact = true := by
  cases part with
  | none => rfl
  | some value => exact exact value rfl

theorem Condition.isExact_toJson {condition : Condition}
    (exact : ∀ value ∈ condition.value, value.isExact = true) :
    condition.toJson.isExact = true := by
  simp [toJson, Value.isExact, Value.haveExact, isExact_optionalText, isExact_getD exact]

theorem Aggregation.isExact_toJson (aggregation : Aggregation) :
    aggregation.toJson.isExact = true := by
  simp [toJson, Value.isExact, Value.haveExact, isExact_optionalText]

theorem Join.isExact_toJson (join : Join) : join.toJson.isExact = true := by
  simp [toJson, Value.isExact, Value.haveExact, isExact_optionalText]

theorem OrderTerm.isExact_toJson (term : OrderTerm) : term.toJson.isExact = true := by
  simp [toJson, Value.isExact, Value.haveExact, isExact_optionalText]

theorem isExact_texts (items : List String) : (Value.ofList .string items).isExact = true :=
  Value.isExact_ofList fun _ _ => rfl

/-- The form of an exact document has no doubles. -/
theorem IsExact.isExact_toJson {document : Document} (exact : document.IsExact) :
    document.toJson.isExact = true := by
  have conditions : (Value.ofList Condition.toJson document.conditions).isExact = true :=
    Value.isExact_ofList fun condition inside =>
      Condition.isExact_toJson (exact.conditions condition inside)
  have aggregations : (Value.ofList Aggregation.toJson document.aggregations).isExact = true :=
    Value.isExact_ofList fun aggregation _ => aggregation.isExact_toJson
  have joins : (Value.ofList Join.toJson document.joins).isExact = true :=
    Value.isExact_ofList fun join _ => join.isExact_toJson
  have orderBy :
      (Value.ofOption (Value.ofList OrderTerm.toJson) document.orderBy).isExact = true :=
    Value.isExact_ofOption fun _ _ => Value.isExact_ofList fun term _ => term.isExact_toJson
  have groupBy : (Value.ofOption (Value.ofList .string) document.groupBy).isExact = true :=
    Value.isExact_ofOption fun items _ => isExact_texts items
  simp [toJson, Value.isExact, Value.haveExact, isExact_texts, conditions, aggregations, joins,
    orderBy, groupBy, isExact_getD exact.limit]

end Exact

/-- The form of a stored document is read as the document with all its doubles read again. -/
theorem IsStored.reader_toJson {document : Document} (stored : document.IsStored) :
    reader document.toJson.tree = .ok document.reread := by
  apply reader_object
  case tablesRead => exact Reader.listOrNull_self fun text _ => Reader.text_tree text
  case columnsRead => exact Reader.listOrNull_self fun text _ => Reader.text_tree text
  case conditionsRead =>
    exact Reader.listOrNull_tree fun condition inside =>
      Condition.record_toJson (stored.conditions condition inside)
  case aggregationsRead =>
    exact Reader.listOrNull_self fun aggregation _ => aggregation.record_toJson
  case joinsRead => exact Reader.listOrNull_self fun join _ => join.record_toJson
  case orderByRead => exact Reader.optional_list_self fun _ _ term _ => term.record_toJson
  case groupByRead => exact Reader.optional_list_self fun _ _ text _ => Reader.text_tree text
  case limitRead => exact optional_rawValue_reread stored.limit

/-- A document without doubles does not change. -/
theorem IsExact.reread_eq {document : Document} (exact : document.IsExact) :
    document.reread = document := by
  have conditions : document.conditions.map Condition.reread = document.conditions := by
    refine (List.map_congr_left fun condition inside => ?_).trans (List.map_id _)
    rw [Condition.reread, map_reread (exact.conditions condition inside)]
    rfl
  rw [reread, conditions, map_reread exact.limit]

/-- The form of an exact document is read as the document itself. -/
theorem IsExact.reader_toJson {document : Document} (exact : document.IsExact)
    (stored : document.IsStored) : reader document.toJson.tree = .ok document := by
  rw [stored.reader_toJson, exact.reread_eq]

/-- A text is read like the form that it is written as. -/
theorem ofJson_of_written {value : Value} {text : String} {document : Document}
    (written : value.IsWrittenAs text) (read : reader value.tree = .ok document) :
    ofJson text = .ok document := by
  rw [ofJson, written.readText, read]
  rfl

/-- Whatever is read from a text is a stored document. -/
theorem isStored_of_ofJson {text : String} {document : Document}
    (read : ofJson text = .ok document) : document.IsStored := by
  cases whole : Json.readText reader text with
  | error fault =>
      rw [ofJson, whole] at read
      cases read
  | ok found =>
      rw [ofJson, whole] at read
      cases read
      obtain ⟨_, inside, _, _, same⟩ := by simpa only [Json.readText, bind_eq_ok_iff] using whole
      cases same
      exact isStored_of_reader inside

/-- The document may stand anywhere in the text. -/
theorem isStored_of_ofResponse {text : String} {document : Document}
    (read : ofResponse text = .ok document) : document.IsStored := by
  unfold ofResponse at read
  split at read
  · cases read
  · exact isStored_of_ofJson read

/-- What is printed when a document is extracted can always be read, and only its doubles can
change. -/
theorem ofJson_runExtract {environment : Environment} {file : Option String} {input : String}
    {document : Document} (found : Command.readInput environment file = .ok input)
    (extracted : ofResponse input = .ok document) :
    (Command.runExtract environment file).code = 0 ∧
      ofJson (Command.runExtract environment file).output = .ok document.reread := by
  have printed : Command.runExtract environment file =
      ⟨0, document.toJson.prettyText ++ "\n", []⟩ := by
    rw [Command.runExtract, found]
    simp only [extracted]
  rw [printed]
  exact ⟨rfl, ofJson_of_written (Value.writes_line _)
    (isStored_of_ofResponse extracted).reader_toJson⟩

/-- A document without doubles that was read from a text is read back from both layouts of its form,
and from what is printed when it is extracted from an input. -/
theorem ofJson_toJson {text : String} {document : Document} (read : ofJson text = .ok document)
    (exact : document.IsExact) :
    ofJson document.toJson.compactText = .ok document ∧
      ofJson document.toJson.prettyText = .ok document ∧
      ∀ environment file input, Command.readInput environment file = .ok input →
        ofResponse input = .ok document →
          (Command.runExtract environment file).code = 0 ∧
            ofJson (Command.runExtract environment file).output = .ok document := by
  have same := exact.reader_toJson (isStored_of_ofJson read)
  have integers := exact.isExact_toJson
  refine ⟨ofJson_of_written (Value.isWrittenAs_compactText integers) same,
    ofJson_of_written (Value.isWrittenAs_prettyText integers) same, ?_⟩
  intro environment file input found extracted
  have printed : Command.runExtract environment file =
      ⟨0, document.toJson.prettyText ++ "\n", []⟩ := by
    rw [Command.runExtract, found]
    simp only [extracted]
  rw [printed]
  exact ⟨rfl, ofJson_of_written (Value.isWrittenAs_line integers) same⟩

/-- An input that holds the bytes of a text is read as that text. -/
theorem readInput_toUTF8 {environment : Environment} {text : String}
    (holds : environment.input = text.toUTF8) :
    Command.readInput environment none = .ok text := by
  have valid : text.toUTF8.IsValidUTF8 := text.isValidUTF8
  have decoded : decodeText text.toUTF8 = .ok text := by
    unfold decodeText String.fromUTF8?
    rw [dif_pos valid]
    rfl
  rw [Command.readInput, Command.inputFile?, Option.filter_none, holds, decoded]
  rfl

/-- This document is an array of its fields. A key of the object in its condition comes twice. -/
def positional : String :=
  "[[],[],[[\"c\",null,\x7b\"b\":1.5,\"a\":\"\\u00e9\",\"b\":[null,-7]\x7d]],[],[],null,[]]"

/-- The same document has keys for its fields here, and stands inside of a response. -/
def response : String :=
  "Here: \x7b\"conditions\":[\x7b\"value\":\x7b\"a\":\"é\",\"b\":[null,-7]\x7d," ++
    "\"column\":\"c\"\x7d],\"group_by\":[]\x7d."

/-- This document is read from both texts. -/
def nested : Document :=
  { empty with
    conditions := [⟨some "c", none, some (.object [("a", .string "é"),
      ("b", .array [.null, .number (.integer ⟨-7, by decide, by decide⟩)])]), none⟩]
    groupBy := some [] }

/-- The nested document survives both layouts and the command. -/
theorem ofJson_toJson_nested :
    ofJson nested.toJson.compactText = .ok nested ∧
      ofJson nested.toJson.prettyText = .ok nested ∧
      ofJson (Command.runExtract ⟨fun _ => .absent "", response.toUTF8, none, none⟩ none).output =
        .ok nested := by
  have read : ofJson positional = .ok nested := by decide +kernel
  have extracted : ofResponse response = .ok nested := by decide +kernel
  have exact : nested.IsExact := by
    refine ⟨?_, by simp [nested, empty]⟩
    simp [nested, Value.isExact, Value.haveExact, Value.areExact, Json.Number.isExact]
  obtain ⟨compact, pretty, printed⟩ := ofJson_toJson read exact
  exact ⟨compact, pretty, (printed _ _ _ (readInput_toUTF8 rfl) extracted).2⟩

end Document

end SemanticQuery
