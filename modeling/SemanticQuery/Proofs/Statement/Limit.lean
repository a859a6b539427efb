/-
This file says which values are limits, and shows that a statement ends with the limit of its
document, digit by digit, or has no limit at all.
-/

import SemanticQuery.Proofs.Interpretation.Degraded
import SemanticQuery.Proofs.Interpretation.Lenient
import SemanticQuery.Proofs.Number.Exact
import SemanticQuery.Proofs.Statement.Wording
import SemanticQuery.Proofs.Statement.Words

namespace SemanticQuery

open Sql (Token IsInner space)

/-- This is what is left of a query without its limit. -/
def Query.unlimited (query : Query) : Query := { query with limit := none }

/-- This is what is left of a document without its limit. -/
def Document.unlimited (document : Document) : Document := { document with limit := none }

namespace Clause

/-- A clause that starts with another word has no limit in it. -/
theorem limit_not_mem {word : Sql.Word} {rest : List Token} (other : word ≠ .limit)
    (inner : IsInner rest) : .word .limit ∉ [.word word, space] ++ rest := by
  intro inside
  rcases List.mem_append.1 inside with front | back
  · simp [space, other.symm] at front
  · cases inner _ back

theorem limit_not_mem_select (columns : List String) : .word .limit ∉ select columns := by
  dsimp only [select]
  split
  · exact limit_not_mem (by decide) (List.forall_mem_singleton.2 rfl)
  · exact limit_not_mem (by decide) (isInner_fragments columns)

/-- A list of names stands behind another word. -/
theorem limit_not_mem_names {word : Sql.Word} (other : word ≠ .limit) (names : List String) :
    ∀ tokens ∈ (if (fragments names).isEmpty then none
      else some ([.word word, space] ++ Sql.commaSeparated (fragments names))),
      .word .limit ∉ tokens := by
  intro tokens present
  split at present <;> cases present
  exact limit_not_mem other (isInner_fragments names)

theorem limit_not_mem_joins (steps : List Plan.Step) :
    ∀ tokens ∈ joins steps, .word .limit ∉ tokens := by
  intro tokens present
  unfold joins at present
  split at present <;> cases present
  have absent : ∀ token ∈ List.intercalate [space] (steps.map join), token ≠ .word .limit := by
    refine Sql.forall_mem_intercalate (by decide) (List.forall_mem_map.2 fun step _ => ?_)
    unfold join
    cases step.edge.join.type <;> simp [joinWord, space]
  exact fun inside => absent _ inside rfl

theorem limit_not_mem_where {conditions : List Condition} {clause : Option (List Token)}
    (rendered : Clause.where conditions = .ok clause) :
    ∀ tokens ∈ clause, .word .limit ∉ tokens := by
  simp only [Clause.where, bind_eq_ok_iff, pure_eq_ok_iff] at rendered
  obtain ⟨items, itemsRendered, rfl⟩ := rendered
  intro tokens present
  split at present <;> cases present
  exact limit_not_mem (by decide) (isInner_predicates itemsRendered)

theorem limit_not_mem_orderBy (terms : Option (List OrderTerm)) :
    ∀ tokens ∈ orderBy terms, .word .limit ∉ tokens := by
  intro tokens present
  dsimp only [orderBy] at present
  split at present <;> cases present
  exact limit_not_mem (by decide) (isInner_orderTerms _)

end Clause

namespace Query

variable {query : Query} {tokens : List Token}

/-- Without a limit, the statement has no word for one. -/
theorem limit_not_mem_statement (rendered : query.unlimited.statement = .ok tokens) :
    .word .limit ∉ tokens := by
  obtain ⟨clauses, clausesRendered, rfl⟩ := map_eq_ok_iff.1 rendered
  simp only [Query.clauses, bind_eq_ok_iff, pure_eq_ok_iff] at clausesRendered
  obtain ⟨predicates, predicatesRendered, rfl⟩ := clausesRendered
  have absent : ∀ clause ∈ [some (Clause.select query.columns),
      Clause.from query.tables (!query.joins.isEmpty), Clause.joins (Plan.ofQuery query).steps,
      predicates, Clause.groupBy query.groupBy, Clause.orderBy query.orderBy, none],
      ∀ tokens ∈ clause, .word .limit ∉ tokens := by
    simp only [List.forall_mem_cons]
    refine ⟨?_, Clause.limit_not_mem_names (by decide) _, Clause.limit_not_mem_joins _,
      Clause.limit_not_mem_where predicatesRendered, Clause.limit_not_mem_names (by decide) _,
      Clause.limit_not_mem_orderBy _, nofun, nofun⟩
    rintro tokens ⟨⟩
    exact Clause.limit_not_mem_select _
  have all : ∀ token ∈ List.intercalate [space] _, token ≠ .word .limit :=
    Sql.forall_mem_intercalate (by decide) fun tokens inside token found same => by
      obtain ⟨clause, member, present⟩ := List.mem_filterMap.1 inside
      exact absent clause member tokens present (same ▸ found)
  exact fun inside => all _ inside rfl

/-- The phrase for the limit stands behind all others, if there is one. -/
theorem phrases_eq_append (dialect : Dialect) (query : Query) :
    query.phrases dialect = query.unlimited.phrases dialect ++
      (query.limit.filter (0 < ·)).toList.map fun limit => "LIMIT " ++ toString limit.toNat := by
  rw [phrases, phrases]
  exact congrArg (· ++ _) (List.append_nil _).symm

theorem phrases_ne_nil (dialect : Dialect) (query : Query) : query.phrases dialect ≠ [] := by
  have selected : query.selected.isEmpty = false := by
    dsimp only [selected]
    split <;> simp_all
  simp [phrases, phrase, selected]

/-- The limit is put behind the statement of the query without it. -/
theorem wording_of_limit (dialect : Dialect) {limit : UInt64} (found : query.limit = some limit)
    (positive : 0 < limit) :
    query.wording dialect =
      query.unlimited.wording dialect ++ " LIMIT " ++ toString limit.toNat := by
  have phrase : query.limit.filter (0 < ·) = some limit := by simp [found, positive]
  rw [wording, phrases_eq_append, phrase, Option.toList_some, List.map_singleton,
    String.intercalate_append_of_ne_nil (phrases_ne_nil dialect query.unlimited)
      (List.cons_ne_nil _ _),
    String.intercalate_singleton, wording]
  apply String.toList_inj.1
  simp

theorem wording_of_no_limit (dialect : Dialect)
    (none : query.limit = none ∨ query.limit = some 0) :
    query.wording dialect = query.unlimited.wording dialect := by
  have noPhrase : query.limit.filter (0 < ·) = Option.none := by
    rcases none with absent | zero
    · rw [absent]
      rfl
    · rw [zero]
      rfl
  rw [wording, phrases_eq_append, noPhrase, Option.toList_none, List.map_nil, List.append_nil,
    wording]

end Query

namespace Document

/-- A limit is a natural number that 64 bits can hold. Only in lenient mode may it be given by a
double, which has to be that number exactly. -/
inductive IsLimit : Mode → Json.Value → Nat → Prop where
  | integer {mode : Mode} {integer : Integer} {limit : Nat} (natural : integer.value = limit) :
      IsLimit mode (.number (.integer integer)) limit
  | real {number : Float} {finite : number.isFinite = true} {exact : Dyadic} {limit : Nat}
      (dyadic : magnitude number = .finite exact) (whole : exact.value = limit)
      (fits : limit < 2 ^ 64) : IsLimit .lenient (.number (.real number finite)) limit
  | text {mode : Mode} {before natural after : List Char} {limit : Nat}
      (front : ∀ character ∈ before, Text.isBlank character = true)
      (back : ∀ character ∈ after, Text.isBlank character = true)
      (written : IsNatural natural limit) (fits : limit < 2 ^ 64) :
      IsLimit mode (.string (String.ofList (before ++ natural ++ after))) limit

variable {mode : Mode} {value : Json.Value}

theorem IsLimit.lt {limit : Nat} (isLimit : IsLimit mode value limit) : limit < 2 ^ 64 := by
  cases isLimit with
  | @integer _ integer _ natural =>
      have upper := integer.upper
      omega
  | real _ _ fits => exact fits
  | text _ _ _ fits => exact fits

theorem toUInt64?_eq_some_iff {integer : Integer} {limit : UInt64} :
    integer.toUInt64? = some limit ↔ integer.value = limit.toNat := by
  obtain ⟨value, lower, upper⟩ := integer
  cases value with
  | ofNat natural =>
      have fits : natural < UInt64.size := Int.ofNat_lt.1 upper
      have same : some (UInt64.ofNat natural) = some limit ↔ natural = limit.toNat := by
        rw [← fitting_eq_some_iff, if_pos fits]
      exact same.trans (by simp)
  | negSucc _ =>
      exact iff_of_false (by simp [Integer.toUInt64?]) (by simp only; omega)

/-- A value is read as a limit exactly when it is that limit. -/
theorem limit?_eq_some_iff {limit : UInt64} :
    limit? mode value = some limit ↔ IsLimit mode value limit.toNat := by
  have fits : limit.toNat < 2 ^ 64 := limit.toNat_lt
  constructor
  · intro read
    unfold limit? at read
    split at read
    · exact .integer (toUInt64?_eq_some_iff.1 read)
    · cases mode with
      | strict => cases read
      | lenient =>
          obtain ⟨exact, dyadic, whole⟩ := wholeUInt64?_eq_some_iff.1 read
          exact .real dyadic whole fits
    · next text =>
        obtain ⟨before, natural, after, same, front, back, written⟩ :=
          readUInt64?_trimList_eq_some_iff.1 read
        rw [← String.ofList_toList (s := text), same]
        exact .text front back written fits
    · cases read
  · intro isLimit
    cases isLimit with
    | integer natural => exact toUInt64?_eq_some_iff.2 natural
    | real dyadic whole _ => exact wholeUInt64?_eq_some_iff.2 ⟨_, dyadic, whole⟩
    | text front back written _ =>
        rw [limit?, String.toList_ofList]
        exact readUInt64?_trimList_eq_some_iff.2 ⟨_, _, _, rfl, front, back, written⟩

theorem exists_limit?_iff : (∃ limit, limit? mode value = some limit) ↔
    ∃ limit, IsLimit mode value limit := by
  constructor
  · rintro ⟨limit, read⟩
    exact ⟨_, limit?_eq_some_iff.1 read⟩
  · rintro ⟨limit, isLimit⟩
    refine ⟨UInt64.ofNat limit, limit?_eq_some_iff.2 ?_⟩
    rwa [UInt64.toNat_ofNat_of_lt' isLimit.lt]

/-- A raw limit is absent, or it is a natural number, or it is a defect. -/
theorem interpretLimit_iff (mode : Mode) (given : Option Json.Value) :
    (interpretLimit mode given = .ok none ↔ given = none ∨ given = some .null) ∧
      (∀ limit, interpretLimit mode given = .ok (some limit) ↔
        ∃ value, given = some value ∧ IsLimit mode value limit.toNat) ∧
      ∀ defect, interpretLimit mode given = .error defect ↔
        ∃ value, given = some value ∧ value ≠ .null ∧ (∀ limit, ¬IsLimit mode value limit) ∧
          defect = .limit value.compactText := by
  have null {limit : Nat} : ¬IsLimit mode .null limit := nofun
  cases given with
  | none => simp [interpretLimit]
  | some value =>
      by_cases absent : value = .null
      · subst absent
        simp [interpretLimit, null]
      · have read : interpretLimit mode (some value) =
            (orDefect (.limit value.compactText) (limit? mode value)).map some := by
          unfold interpretLimit
          split <;> simp_all
        have limits : (∃ limit, limit? mode value = some limit) ↔ _ := exists_limit?_iff
        rw [read]
        cases found : limit? mode value with
        | none =>
            have noLimit : ∀ limit, ¬IsLimit mode value limit := by
              rw [found] at limits
              simpa using limits
            simp [orDefect, Except.map, absent, noLimit, eq_comm]
        | some limit =>
            have isLimit := limit?_eq_some_iff.1 found
            have unique (other : UInt64) : IsLimit mode value other.toNat ↔ limit = other := by
              rw [← limit?_eq_some_iff, found, Option.some.injEq]
            simp only [orDefect, Except.map, Except.ok.injEq, Option.some.injEq, unique,
              exists_eq_left', absent, reduceCtorEq, or_false, false_iff, true_and]
            exact ⟨fun _ => trivial, fun _ none => none.2.1 _ isLimit⟩

/-- A limit is read exactly or refused in each mode. A document that compiles has the statement
that it has without its limit, where no limit is set. Behind it stands the limit with its digits,
if there is one and it is positive, and nothing otherwise. -/
theorem limit_ends_statement :
    (∀ mode given,
      (interpretLimit mode given = .ok none ↔ given = none ∨ given = some .null) ∧
        (∀ limit, interpretLimit mode given = .ok (some limit) ↔
          ∃ value, given = some value ∧ IsLimit mode value limit.toNat) ∧
        ∀ defect, interpretLimit mode given = .error defect ↔
          ∃ value, given = some value ∧ value ≠ .null ∧ (∀ limit, ¬IsLimit mode value limit) ∧
            defect = .limit value.compactText) ∧
      ∀ (dialect : Dialect) (document : Document) (sql : String) (mode : Mode)
        (result : Option UInt64), (document.compile dialect).value = .compiled sql →
        interpretLimit mode document.limit = .ok result →
          ∃ query front, (document.unlimited.interpret .lenient).value = .ok query ∧
            query.statement = .ok front ∧ .word .limit ∉ front ∧
            (document.unlimited.compile dialect).value = .compiled (Sql.text dialect front) ∧
            (∀ limit, result = some limit → 0 < limit →
              sql = Sql.text dialect front ++ " LIMIT " ++ toString limit.toNat) ∧
            (result = none ∨ result = some 0 → sql = Sql.text dialect front) := by
  refine ⟨interpretLimit_iff, fun dialect document sql mode result compiled read => ?_⟩
  obtain ⟨tables, query, interpreted⟩ := exists_interpret_of_compile compiled
  have interprets := interpret_eq_ok_iff.1 interpreted
  -- What is read strictly is read leniently as well, and it is the limit of the query then.
  have same : query.limit = result := by
    have lenient : interpretLimit .lenient document.limit = .ok result := by
      cases mode with
      | strict => exact interpretLimit_lenient read
      | lenient => exact read
    exact Except.ok.inj (interprets.limit.symm.trans lenient)
  have unlimited : (document.unlimited.interpret .lenient).value = .ok query.unlimited :=
    interpret_eq_ok_iff.2 { interprets with limit := rfl }
  have kept : document.unlimited.tables ≠ [] := tables
  obtain ⟨front, frontRendered, frontCompiled⟩ := compile_of_ok dialect kept unlimited
  obtain ⟨tokens, rendered, whole⟩ := compile_of_ok dialect tables interpreted
  have text : sql = query.wording dialect := by
    rw [← Query.text_of_statement rendered]
    exact Outcome.compiled.inj (compiled.symm.trans whole)
  refine ⟨query.unlimited, front, unlimited, frontRendered,
    Query.limit_not_mem_statement frontRendered, frontCompiled, fun limit found positive => ?_,
    fun none => ?_⟩
  · rw [text, Query.text_of_statement frontRendered]
    exact Query.wording_of_limit dialect (same.trans found) positive
  · rw [text, Query.text_of_statement frontRendered]
    exact Query.wording_of_no_limit dialect (same.symm ▸ none)

/-- The limit of this document is the largest one, given by its text. -/
def roomy : Document where
  tables := ["t"]
  columns := []
  conditions := []
  aggregations := []
  joins := []
  orderBy := none
  groupBy := none
  limit := some (.string "\u2003+18446744073709551615\n")

/-- All digits of the largest limit are written, and it is read in both modes. -/
theorem limit_ends_statement_roomy :
    interpretLimit .strict roomy.limit = .ok (some 18446744073709551615) ∧
      (roomy.compile .postgres).value =
        .compiled "SELECT * FROM t LIMIT 18446744073709551615" ∧
      ∃ query front, (roomy.unlimited.interpret .lenient).value = .ok query ∧
        query.statement = .ok front ∧ .word .limit ∉ front ∧
        "SELECT * FROM t LIMIT 18446744073709551615" = Sql.text .postgres front ++ " LIMIT " ++
          toString (18446744073709551615 : UInt64).toNat := by
  have read : interpretLimit .strict roomy.limit = .ok (some 18446744073709551615) := by
    decide +kernel
  have compiled : (roomy.compile .postgres).value =
      .compiled "SELECT * FROM t LIMIT 18446744073709551615" := by decide +kernel
  obtain ⟨query, front, interpreted, rendered, absent, _, ends, _⟩ :=
    limit_ends_statement.2 .postgres roomy _ .strict _ compiled read
  exact ⟨read, compiled, query, front, interpreted, rendered, absent, ends _ rfl (by decide)⟩

/-- A double below the largest limit is read exactly, and the next one above it is refused. -/
example :
    interpretLimit .lenient (some (.number (.real 18446744073709549568.0 (by decide)))) =
        .ok (some 18446744073709549568) ∧
      interpretLimit .lenient (some (.number (.real 18446744073709551615.0 (by decide)))) =
        .error (.limit "1.8446744073709552e+19") ∧
      interpretLimit .lenient (some (.number (.real (-0.0) (by decide)))) = .ok (some 0) := by
  decide +kernel

end Document

end SemanticQuery
