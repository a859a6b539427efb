/-
This file shows that a lenient interpretation is the strict interpretation of a normal form. The
normal form spells every keyword canonically, gives every condition an operator, and leaves out the
aggregations that cannot be read.
-/

import SemanticQuery.Proofs.Interpretation.Lenient
import SemanticQuery.Proofs.Number.Exact

namespace SemanticQuery

namespace Keyword

/-- Such a text is the spelling of a keyword, apart from its case and the blanks around it. -/
def isKnown (α : Type) [Keyword α] (text : String) : Bool :=
  (all : List α).any fun keyword => spelling keyword = Text.upper (Text.trim text)

/-- A known text gives way to the canonical spelling, and any other text stays. -/
def normal (α : Type) [Keyword α] (text : String) : String :=
  if isKnown α text then Text.upper (Text.trim text) else text

variable {α : Type} [Keyword α]

theorem isSome_loose? (text : String) : (loose? α text).isSome = isKnown α text := by
  rw [loose?, canonical?, List.isSome_find?]
  rfl

/-- A loose reading is an exact reading of the normal form. -/
theorem canonical?_normal [IsSettled α] (text : String) :
    canonical? α (normal α text) = loose? α text := by
  have some := isSome_loose? (α := α) text
  unfold normal
  split
  · rfl
  · next unknown =>
      rw [Bool.not_eq_true] at unknown
      rw [unknown, Option.isSome_eq_false_iff, Option.isNone_iff_eq_none] at some
      rw [some]
      -- What is canonical can be read loosely as well, so this text is not.
      cases canonical : canonical? α text with
      | none => rfl
      | some keyword =>
          rw [loose?_eq_some_of_canonical? canonical] at some
          cases some

example : normal Operator "\tlıke " = "LIKE" ∧ normal Operator "<>" = "<>" := by decide

end Keyword

theorem Mode.read?_normal {α : Type} [Keyword α] [Keyword.IsSettled α] (text : String) :
    Mode.strict.read? α (Keyword.normal α text) = Mode.lenient.read? α text :=
  Keyword.canonical?_normal text

namespace Document

namespace Aggregation

/-- An aggregation is known when its function is. -/
def isKnown (aggregation : Aggregation) : Bool :=
  aggregation.function.any (Keyword.isKnown AggregateFunction)

/-- The function is a keyword. -/
def normal (aggregation : Aggregation) : Aggregation :=
  { aggregation with function := aggregation.function.map (Keyword.normal AggregateFunction) }

theorem read?_normal (aggregation : Aggregation) :
    aggregation.normal.read? .strict = aggregation.read? .lenient := by
  obtain ⟨function, column, label⟩ := aggregation
  cases function with
  | none => simp only [read?, normal, Option.map_none, Option.bind_eq_bind, Option.bind_none]
  | some text =>
      simp only [read?, normal, columnText, Option.map_some, Option.bind_eq_bind,
        Option.bind_some, Mode.read?_normal]

theorem isSome_read?_lenient (aggregation : Aggregation) :
    (aggregation.read? .lenient).isSome = aggregation.isKnown := by
  obtain ⟨function, column, label⟩ := aggregation
  cases function with
  | none => rfl
  | some text =>
      simp only [read?, isKnown, Mode.read?, Option.bind_eq_bind, Option.bind_some,
        Option.any_some, ← Keyword.isSome_loose?]
      cases Keyword.loose? AggregateFunction text <;> rfl

end Aggregation

/-- A missing operator gives way to the sign of equality. -/
def Condition.normal (condition : Condition) : Condition :=
  { condition with operator := some (condition.operator.elim "=" (Keyword.normal Operator)) }

/-- The type of a join is a keyword, unless it is missing. -/
def Join.normal (join : Join) : Join :=
  { join with type := join.type.map (Keyword.normal JoinType) }

/-- The direction of an order is a keyword, unless it is missing. -/
def OrderTerm.normal (term : OrderTerm) : OrderTerm :=
  { term with direction := term.direction.map (Keyword.normal Direction) }

/-- A double gives way to the natural number of 64 bits that is its exact value, if there is one. -/
def normalLimit : Json.Value → Json.Value
  | .number (.real value finite) =>
      match wholeUInt64? value with
      | some whole => .number (.integer (.ofUInt64 whole))
      | none => .number (.real value finite)
  | value => value

/-- Only the unknown aggregations have no place in a normal form. -/
def normal (document : Document) : Document :=
  { document with
    conditions := document.conditions.map Condition.normal
    aggregations := (document.aggregations.filter Aggregation.isKnown).map Aggregation.normal
    joins := document.joins.map Join.normal
    orderBy := document.orderBy.map (List.map OrderTerm.normal)
    limit := document.limit.map normalLimit }

/-- The integer is the rational value of the double. -/
theorem normalLimit_eq_iff {number : Float} {finite : number.isFinite = true} {whole : UInt64} :
    normalLimit (.number (.real number finite)) = .number (.integer (.ofUInt64 whole)) ↔
      ∃ exact, magnitude number = .finite exact ∧ exact.value = whole.toNat := by
  rw [← wholeUInt64?_eq_some_iff, normalLimit]
  cases wholeUInt64? number with
  | none => simp
  | some other =>
      simp only [Json.Value.number.injEq, Json.Number.integer.injEq, Option.some.injEq]
      constructor
      · intro same
        have read := Integer.toUInt64?_ofUInt64 other
        rw [same, Integer.toUInt64?_ofUInt64] at read
        exact (Option.some.inj read).symm
      · rintro rfl
        rfl

section Parts

/-- The aggregations that a lenient reading drops are those that the normal form leaves out. -/
theorem interpretAggregations_normal (aggregations : List Aggregation) :
    (interpretAggregations .strict
        ((aggregations.filter Aggregation.isKnown).map Aggregation.normal)).value =
      (interpretAggregations .lenient aggregations).value := by
  induction aggregations with
  | nil => rfl
  | cons aggregation rest inductionHypothesis =>
      have known := aggregation.isSome_read?_lenient
      cases read : aggregation.read? .lenient with
      | none =>
          rw [read] at known
          rw [List.filter_cons_of_neg (by simp [← known]), inductionHypothesis]
          simp only [interpretAggregations, read, Logged.value_bind]
      | some readable =>
          rw [read] at known
          have strict := aggregation.read?_normal.trans read
          rw [List.filter_cons_of_pos known.symm, List.map_cons]
          simp only [interpretAggregations, read, strict, Logged.value_bind, Logged.value_pure,
            inductionHypothesis]

/-- The same holds for lists when it holds for their items. -/
theorem interpretAll_normal {α β : Type} {strict lenient : α → Except Defect β} {normal : α → α}
    (same : ∀ item, strict (normal item) = lenient item) (items : List α) :
    interpretAll strict (items.map normal) = interpretAll lenient items := by
  induction items with
  | nil => rfl
  | cons item rest inductionHypothesis =>
      rw [List.map_cons, interpretAll, interpretAll, same, inductionHypothesis]

/-- A defect quotes a keyword only when it is unknown, and the normal form keeps it then. -/
theorem orDefect_normal {α : Type} [Keyword α] [Keyword.IsSettled α] (defect : String → Defect)
    (text : String) :
    orDefect (defect (Keyword.normal α text)) (Mode.strict.read? α (Keyword.normal α text)) =
      orDefect (defect text) (Mode.lenient.read? α text) := by
  have known := Keyword.isSome_loose? (α := α) text
  rw [Mode.read?_normal]
  change (Mode.lenient.read? α text).isSome = _ at known
  cases read : Mode.lenient.read? α text with
  | some keyword => rfl
  | none =>
      rw [read] at known
      rw [Keyword.normal, if_neg (by simp [← known])]

theorem Condition.interpret_normal (condition : Condition) :
    condition.normal.interpret .strict = condition.interpret .lenient := by
  obtain ⟨column, operator, value, table⟩ := condition
  cases operator with
  | none => rfl
  | some text =>
      have same := orDefect_normal (α := Operator) (fun text => .operator (column.getD "") text) text
      simp only [interpret, normal, operator?, operand, Option.elim, columnText, same]

theorem Join.interpret_normal (join : Join) :
    join.normal.interpret .strict = join.interpret .lenient := by
  obtain ⟨type, table1, table2, condition⟩ := join
  cases type with
  | none => rfl
  | some text =>
      simp only [interpret, normal, Option.map_some, Option.getD_some, orDefect_normal]

theorem OrderTerm.interpret_normal (term : OrderTerm) :
    term.normal.interpret .strict = term.interpret .lenient := by
  obtain ⟨column, direction⟩ := term
  cases direction with
  | none => rfl
  | some text =>
      simp only [interpret, normal, Option.map_some, Option.getD_some,
        orDefect_normal (.direction (column.getD ""))]

theorem interpretOrder_normal (order : Option (List OrderTerm)) :
    interpretOrder .strict (order.map (List.map OrderTerm.normal)) =
      interpretOrder .lenient order := by
  cases order with
  | none => rfl
  | some terms =>
      rw [Option.map_some, interpretOrder, interpretOrder,
        interpretAll_normal OrderTerm.interpret_normal]

theorem interpretLimit_normal (limit : Option Json.Value) :
    interpretLimit .strict (limit.map normalLimit) = interpretLimit .lenient limit := by
  cases limit with
  | none => rfl
  | some value =>
      cases value with
      | number number =>
          cases number with
          | integer value => rfl
          | real value finite =>
              cases read : wholeUInt64? value with
              | none =>
                  simp only [Option.map_some, normalLimit, read, interpretLimit, limit?]
              | some whole =>
                  simp only [Option.map_some, normalLimit, read, interpretLimit, limit?,
                    Integer.toUInt64?_ofUInt64]
                  rfl
      | _ => rfl

end Parts

/-- The rest of a document is interpreted in the same way as well. -/
theorem interpretRest_normal (document : Document)
    (aggregations : List SemanticQuery.Aggregation) :
    interpretRest .strict document.normal aggregations =
      interpretRest .lenient document aggregations := by
  simp only [interpretRest, normal, interpretAll_normal Condition.interpret_normal,
    interpretAll_normal Join.interpret_normal, interpretOrder_normal, interpretLimit_normal]

/-- The lenient interpretation of a document is the strict interpretation of its normal form. Each
of them fails where the other one does, and with the same defect. A limit that is a double is an
integer in the normal form exactly when the integer is its rational value. -/
theorem interpret_lenient_iff (document : Document) :
    (∀ query, (document.interpret .lenient).value = .ok query ↔
      (document.normal.interpret .strict).value = .ok query) ∧
      (∀ defect, (document.interpret .lenient).value = .error defect ↔
        (document.normal.interpret .strict).value = .error defect) ∧
      ∀ number finite whole, normalLimit (.number (.real number finite)) =
          .number (.integer (.ofUInt64 whole)) ↔
        ∃ exact, magnitude number = .finite exact ∧ exact.value = whole.toNat := by
  have same : (document.normal.interpret .strict).value = (document.interpret .lenient).value := by
    have rest := funext (interpretRest_normal document)
    simp only [interpret, Logged.value_bind, Logged.value_pure, rest]
    rw [normal, interpretAggregations_normal]
  rw [same]
  exact ⟨fun _ => .rfl, fun _ => .rfl, fun _ _ _ => normalLimit_eq_iff⟩

end Document

end SemanticQuery
