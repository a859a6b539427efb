/-
This file says in plain text what the statement of a query is. The clauses that are present follow
each other with one space between two of them, and nothing stands behind the last one.
-/

import SemanticQuery.Proofs.Statement.Layout
import SemanticQuery.Proofs.Statement.Unquotable

namespace SemanticQuery

/-- The literal of a scalar. A double that is not finite has none, so its display stands here. -/
def Scalar.wording (dialect : Dialect) : Scalar → String
  | .string value => dialect.literal value
  | .integer value => value.text
  | .float value =>
      match magnitude value with
      | .finite number => Layout.literal.text number
      | _ => displayFloat value
  | .boolean value => if value then "true" else "false"
  | .null => "NULL"

/-- A list to choose from stands between parentheses, and a range has two bounds. Every other list
is one string literal. -/
def Operand.wording (dialect : Dialect) : Operator → Operand → String
  | .oneOf, .list items => "(" ++ ", ".intercalate (items.map (Scalar.wording dialect)) ++ ")"
  | .oneOf, .scalar value => "(" ++ value.wording dialect ++ ")"
  | .between, .list [low, high] => low.wording dialect ++ " AND " ++ high.wording dialect
  | _, .scalar value => value.wording dialect
  | _, .list items => dialect.literal ("[" ++ ", ".intercalate (items.map Scalar.display) ++ "]")

/-- A condition without an operand is never rendered. -/
def Condition.wording (dialect : Dialect) (condition : Condition) : String :=
  condition.column ++ " " ++ Keyword.spelling condition.operator ++ " " ++
    condition.operand.elim "" (Operand.wording dialect condition.operator)

/-- A step joins its table on the condition of its edge. -/
def Plan.Step.wording (step : Plan.Step) : String :=
  Keyword.spelling step.edge.join.type ++ " JOIN " ++ step.table ++ " ON " ++
    step.edge.join.condition

/-- The direction of an order is always given. -/
def OrderTerm.wording (term : OrderTerm) : String :=
  term.column ++ " " ++ Keyword.spelling term.direction

/-- The items of a phrase stand behind its keyword. Without items there is no phrase. -/
def phrase (keyword separator : String) (items : List String) : List String :=
  if items.isEmpty then [] else [keyword ++ " " ++ separator.intercalate items]

namespace Query

/-- Only conditions that can be rendered are compared. -/
def predicates (dialect : Dialect) (query : Query) : List String :=
  (query.conditions.filter Condition.isRenderable).map (Condition.wording dialect)

/-- The columns that have a name are selected, or all of them if there are none. -/
def selected (query : Query) : List String :=
  let named := query.columns.filter (· ≠ "")
  if named.isEmpty then ["*"] else named

/-- Only the first table is listed if there are joins. -/
def listed (query : Query) : List String :=
  (if query.joins.isEmpty then query.tables else query.tables.take 1).filter (· ≠ "")

/-- The phrases of a query in their order. Every step of the plan is a phrase of its own. -/
def phrases (dialect : Dialect) (query : Query) : List String :=
  phrase "SELECT" ", " query.selected ++
  phrase "FROM" ", " query.listed ++
  (Plan.ofQuery query).steps.map Plan.Step.wording ++
  phrase "WHERE" " AND " (query.predicates dialect) ++
  phrase "GROUP BY" ", " ((query.groupBy.getD []).filter (· ≠ "")) ++
  phrase "ORDER BY" ", "
    (((query.orderBy.getD []).filter (·.column ≠ "")).map OrderTerm.wording) ++
  (query.limit.filter (0 < ·)).toList.map fun limit => "LIMIT " ++ toString limit.toNat

/-- The statement is the text of its phrases. -/
def wording (dialect : Dialect) (query : Query) : String := " ".intercalate (query.phrases dialect)

end Query

namespace Sql

variable (dialect : Dialect)

theorem text_append (first second : List Token) :
    text dialect (first ++ second) = text dialect first ++ text dialect second := by
  rw [text, List.map_append, String.join_append, text, text]

theorem text_singleton (token : Token) : text dialect [token] = token.text dialect := by
  simp [text, String.join_cons]

/-- A keyword is followed by a space. -/
theorem text_keyword (word : Word) : text dialect [.word word, space] = word.text ++ " " := by
  simp [text, String.join_cons, space, Token.text, Mark.text]

/-- The texts of items are separated like their tokens. -/
theorem text_intercalate (separator : List Token) (items : List (List Token)) :
    text dialect (List.intercalate separator items) =
      (text dialect separator).intercalate (items.map (text dialect)) := by
  induction items with
  | nil => simp [text]
  | cons item rest inductionHypothesis =>
      cases rest with
      | nil => simp
      | cons next rest =>
          rw [List.intercalate_cons_cons, text_append, text_append, inductionHypothesis]
          simp only [List.map_cons, String.intercalate_cons_cons]

theorem text_commaSeparated (items : List (List Token)) :
    text dialect (commaSeparated items) = ", ".intercalate (items.map (text dialect)) :=
  text_intercalate dialect [.mark .comma, space] items

theorem text_andSeparated (items : List (List Token)) :
    text dialect (andSeparated items) = " AND ".intercalate (items.map (text dialect)) :=
  text_intercalate dialect [space, .word .and, space] items

theorem text_operatorToken (operator : Operator) :
    (operatorToken operator).text dialect = Keyword.spelling operator := by
  cases operator <;> rfl

variable {dialect}

theorem text_of_literal {value : Scalar} {token : Token} (rendered : literal value = .ok token) :
    token.text dialect = value.wording dialect := by
  cases value with
  | float number =>
      rw [literal] at rendered
      split at rendered
      · next exactly same =>
          cases rendered
          rw [Scalar.wording, same]
          rfl
      · cases rendered
  | _ =>
      cases rendered
      rfl

theorem text_of_literals {items : List Scalar} {tokens : List Token}
    (rendered : literals items = .ok tokens) :
    (tokens.map ([·])).map (text dialect) = items.map (Scalar.wording dialect) := by
  induction items generalizing tokens with
  | nil =>
      cases rendered
      rfl
  | cons item items inductionHypothesis =>
      simp only [literals, bind_eq_ok_iff, pure_eq_ok_iff] at rendered
      obtain ⟨first, firstRendered, rest, restRendered, rfl⟩ := rendered
      rw [List.map_cons, List.map_cons, List.map_cons, inductionHypothesis restRendered,
        text_singleton, text_of_literal firstRendered]

theorem text_of_parenthesized {items : List Scalar} {tokens : List Token}
    (rendered : parenthesized items = .ok tokens) :
    text dialect tokens = "(" ++ ", ".intercalate (items.map (Scalar.wording dialect)) ++ ")" := by
  simp only [parenthesized, bind_eq_ok_iff, pure_eq_ok_iff] at rendered
  obtain ⟨inner, innerRendered, rfl⟩ := rendered
  rw [text_append, text_append, text_commaSeparated, text_of_literals innerRendered]
  rfl

theorem text_of_range {low high : Scalar} {tokens : List Token}
    (rendered : range low high = .ok tokens) :
    text dialect tokens = low.wording dialect ++ " AND " ++ high.wording dialect := by
  simp only [range, bind_eq_ok_iff, pure_eq_ok_iff] at rendered
  obtain ⟨first, firstRendered, second, secondRendered, rfl⟩ := rendered
  change text dialect ([first] ++ [space, .word .and, space] ++ [second]) = _
  rw [text_append, text_append, text_singleton, text_singleton, text_of_literal firstRendered,
    text_of_literal secondRendered]
  rfl

theorem text_of_operand {operator : Operator} {operand : Operand} {tokens : List Token}
    (rendered : Sql.operand operator operand = .ok tokens) :
    text dialect tokens = operand.wording dialect operator := by
  unfold Sql.operand at rendered
  split at rendered
  · exact text_of_parenthesized rendered
  · rw [text_of_parenthesized rendered, Operand.wording]
    simp
  · exact text_of_range rendered
  · next value notOneOf =>
      obtain ⟨token, tokenRendered, rfl⟩ := map_eq_ok_iff.1 rendered
      rw [text_singleton, text_of_literal tokenRendered, Operand.wording]
      exact notOneOf
  · next items notOneOf notRange =>
      cases rendered
      rw [text_singleton, Operand.wording]
      · rfl
      · exact notOneOf
      · exact notRange

end Sql

namespace Clause

open Sql (Token space text)

variable {dialect : Dialect}

theorem text_of_predicate? {condition : Condition} {tokens : List Token}
    (rendered : predicate? condition = .ok (some tokens)) :
    text dialect tokens = condition.wording dialect := by
  obtain ⟨operand, inner, present, innerRendered, rfl⟩ := predicate?_eq_ok_some rendered
  change text dialect ([.fragment condition.column] ++ [space] ++
    [Sql.operatorToken condition.operator] ++ [space] ++ inner) = _
  simp only [Sql.text_append, Sql.text_singleton, Sql.text_operatorToken,
    Sql.text_of_operand innerRendered, Condition.wording, present]
  rfl

theorem text_of_predicates {conditions : List Condition} {items : List (List Token)}
    (rendered : predicates conditions = .ok items) :
    items.map (text dialect) =
      (conditions.filter Condition.isRenderable).map (Condition.wording dialect) := by
  induction conditions generalizing items with
  | nil =>
      cases rendered
      rfl
  | cons condition rest inductionHypothesis =>
      simp only [predicates, bind_eq_ok_iff, pure_eq_ok_iff] at rendered
      obtain ⟨found, foundRendered, later, laterRendered, rfl⟩ := rendered
      have renderable := isSome_predicate? foundRendered
      rw [List.map_append, inductionHypothesis laterRendered]
      cases found with
      | none => rw [List.filter_cons_of_neg (Bool.eq_false_iff.1 renderable.symm)]; rfl
      | some tokens =>
          rw [List.filter_cons_of_pos renderable.symm, List.map_cons,
            ← text_of_predicate? foundRendered]
          rfl

theorem text_of_fragments (texts : List String) :
    (fragments texts).map (text dialect) = texts.filter (· ≠ "") := by
  rw [fragments, List.map_map]
  exact List.map_id'' (fun content => Sql.text_singleton dialect (.fragment content)) _

theorem text_of_join (step : Plan.Step) : text dialect (join step) = step.wording := by
  have word : text dialect [.word (joinWord step.edge.join.type)] =
      Keyword.spelling step.edge.join.type := by
    rw [Sql.text_singleton]
    cases step.edge.join.type <;> rfl
  change text dialect ([.word (joinWord step.edge.join.type)] ++ [space, .word .join, space] ++
    [.fragment step.table] ++ [space, .word .on, space] ++
    [.fragment step.edge.join.condition]) = _
  simp only [Sql.text_append, word, Sql.text_singleton, Plan.Step.wording]
  rfl

theorem text_of_orderTerm (term : OrderTerm) : text dialect (orderTerm term) = term.wording := by
  have word : text dialect [.word (directionWord term.direction)] =
      Keyword.spelling term.direction := by
    rw [Sql.text_singleton]
    cases term.direction <;> rfl
  change text dialect ([.fragment term.column] ++ [space] ++
    [.word (directionWord term.direction)]) = _
  simp only [Sql.text_append, word, Sql.text_singleton, OrderTerm.wording]
  rfl

/-- A clause reads like these phrases. It is absent if there are none. -/
def Reads (dialect : Dialect) (clause : Option (List Token)) (phrases : List String) : Prop :=
  clause.map (text dialect) = if phrases.isEmpty then none else some (" ".intercalate phrases)

/-- A keyword and its items read like their phrase. -/
theorem reads_phrase {word : Sql.Word} {items : List (List Token)} {tokens : List Token}
    {separator : String} {texts : List String} (same : items.map (text dialect) = texts)
    (joined : text dialect tokens = separator.intercalate (items.map (text dialect))) :
    Reads dialect (if items.isEmpty then none else some ([.word word, space] ++ tokens))
      (phrase word.text separator texts) := by
  have empty : texts.isEmpty = items.isEmpty := by rw [← same, List.isEmpty_map]
  rw [Reads, phrase, empty]
  split
  · rfl
  · rw [Option.map_some, Sql.text_append, Sql.text_keyword, joined, same]
    simp

/-- A list of names reads like its phrase. -/
theorem reads_fragments (word : Sql.Word) (names : List String) :
    Reads dialect (if (fragments names).isEmpty then none
        else some ([.word word, space] ++ Sql.commaSeparated (fragments names)))
      (phrase word.text ", " (names.filter (· ≠ ""))) :=
  reads_phrase (text_of_fragments names) (Sql.text_commaSeparated dialect _)

theorem reads_select (query : Query) :
    Reads dialect (some (select query.columns)) (phrase "SELECT" ", " query.selected) := by
  have star : text dialect [.mark .star] = "*" := Sql.text_singleton dialect _
  have keyword : text dialect [.word .select, space] = "SELECT " := Sql.text_keyword dialect _
  have empty : (query.columns.filter (· ≠ "")).isEmpty = (fragments query.columns).isEmpty := by
    rw [fragments, List.isEmpty_map]
  rw [Reads, Query.selected, empty, select, Option.map_some, Sql.text_append, keyword]
  split
  · rw [star]
    rfl
  · next some =>
      rw [Sql.text_commaSeparated, text_of_fragments, phrase, empty]
      simp [some]

theorem reads_joins (steps : List Plan.Step) :
    Reads dialect (joins steps) (steps.map Plan.Step.wording) := by
  rw [Reads, joins, List.isEmpty_map]
  split
  · rfl
  · have separator : text dialect [space] = " " := Sql.text_singleton dialect space
    have texts : steps.map (text dialect ∘ join) = steps.map Plan.Step.wording :=
      List.map_congr_left fun step _ => text_of_join step
    rw [Option.map_some, Sql.text_intercalate, List.map_map, separator, texts]

theorem reads_where {conditions : List Condition} {clause : Option (List Token)}
    (rendered : Clause.where conditions = .ok clause) :
    Reads dialect clause (phrase "WHERE" " AND "
      ((conditions.filter Condition.isRenderable).map (Condition.wording dialect))) := by
  simp only [Clause.where, bind_eq_ok_iff, pure_eq_ok_iff] at rendered
  obtain ⟨items, itemsRendered, rfl⟩ := rendered
  exact reads_phrase (text_of_predicates itemsRendered) (Sql.text_andSeparated dialect items)

theorem reads_orderBy (terms : Option (List OrderTerm)) :
    Reads dialect (orderBy terms) (phrase "ORDER BY" ", "
      (((terms.getD []).filter (·.column ≠ "")).map OrderTerm.wording)) := by
  refine reads_phrase ?_ (Sql.text_commaSeparated dialect _)
  rw [List.map_map]
  exact List.map_congr_left fun term _ => text_of_orderTerm term

theorem reads_limit (query : Query) :
    Reads dialect (Clause.limit query.effectiveLimit?)
      ((query.limit.filter (0 < ·)).toList.map fun limit => "LIMIT " ++ toString limit.toNat) := by
  have positive : query.effectiveLimit? = query.limit.filter (0 < ·) := by
    rw [Query.effectiveLimit?]
    simp [UInt64.pos_iff_ne_zero]
  rw [positive]
  cases query.limit.filter (0 < ·) with
  | none => rfl
  | some limit =>
      have keyword : text dialect [.word .limit, space] = "LIMIT " := Sql.text_keyword dialect _
      change some (text dialect ([.word .limit, space] ++ [.integer (.ofUInt64 limit)])) = _
      rw [Sql.text_append, keyword, Sql.text_singleton]
      rfl

/-- Phrases in groups are separated like phrases in one list. -/
theorem intercalate_groups (separator : String) {groups : List (List String)}
    (filled : ∀ group ∈ groups, group ≠ []) :
    separator.intercalate (groups.map separator.intercalate) =
      separator.intercalate groups.flatten := by
  induction groups with
  | nil => rfl
  | cons group rest inductionHypothesis =>
      obtain ⟨first, others⟩ := List.forall_mem_cons.1 filled
      cases rest with
      | nil => simp
      | cons next rest =>
          have some : (next :: rest).flatten ≠ [] := fun none =>
            others next List.mem_cons_self (List.flatten_eq_nil_iff.1 none next List.mem_cons_self)
          have mapped : (next :: rest).map separator.intercalate ≠ [] := by simp
          rw [List.map_cons, String.intercalate_cons_of_ne_nil mapped, inductionHypothesis others,
            ← String.intercalate_append_of_ne_nil first some]
          rfl

/-- The clauses that are present read like all their phrases. -/
theorem text_of_clauses {clauses : List (Option (List Token))} {groups : List (List String)}
    (reads : List.Forall₂ (Reads dialect) clauses groups) :
    text dialect (List.intercalate [space] (clauses.filterMap id)) =
      " ".intercalate groups.flatten := by
  have texts : (clauses.filterMap id).map (text dialect) =
      (groups.filter (!·.isEmpty)).map (" ".intercalate) := by
    induction reads with
    | nil => rfl
    | @cons clause phrases clauses groups first _ inductionHypothesis =>
        rw [Reads] at first
        cases clause <;> cases phrases <;> simp_all
  have filled : ∀ group ∈ groups.filter (!·.isEmpty), group ≠ [] := by
    intro group inside
    simpa using (List.mem_filter.1 inside).2
  have separator : text dialect [space] = " " := Sql.text_singleton dialect space
  rw [Sql.text_intercalate, separator, texts, intercalate_groups " " filled,
    List.flatten_filter_not_isEmpty]

end Clause

namespace Query

open Sql (Token)

/-- The statement of a query has the text of its phrases. -/
theorem text_of_statement {dialect : Dialect} {query : Query} {tokens : List Token}
    (rendered : query.statement = .ok tokens) :
    Sql.text dialect tokens = query.wording dialect := by
  obtain ⟨clauses, clausesRendered, rfl⟩ := map_eq_ok_iff.1 rendered
  simp only [Query.clauses, bind_eq_ok_iff, pure_eq_ok_iff] at clausesRendered
  obtain ⟨predicates, predicatesRendered, rfl⟩ := clausesRendered
  have listed : Clause.listed query.tables (!query.joins.isEmpty) =
      if query.joins.isEmpty then query.tables else query.tables.take 1 := by
    rw [Clause.listed]
    cases query.joins.isEmpty <;> rfl
  have reads : Sql.text dialect _ = _ := Clause.text_of_clauses <|
    .cons (Clause.reads_select query) <|
    .cons (Clause.reads_fragments .from (Clause.listed query.tables (!query.joins.isEmpty))) <|
    .cons (Clause.reads_joins (Plan.ofQuery query).steps) <|
    .cons (Clause.reads_where predicatesRendered) <|
    .cons (Clause.reads_fragments .groupBy (query.groupBy.getD [])) <|
    .cons (Clause.reads_orderBy query.orderBy) <|
    .cons (Clause.reads_limit query) .nil
  refine reads.trans (congrArg (" ".intercalate ·) ?_)
  simp only [phrases, listed, List.flatten_cons, List.flatten_nil, List.append_nil,
    List.append_assoc]
  rfl

/-- Every operand that has to be part of the statement can be rendered. -/
def RendersOperands (query : Query) : Prop :=
  ∀ condition ∈ query.conditions, condition.isRenderable →
    ∀ operand ∈ condition.operand, ∃ tokens, Sql.operand condition.operator operand = .ok tokens

/-- A statement is rendered when all operands are that have to be. -/
theorem exists_statement_iff_rendersOperands {query : Query} :
    (∃ tokens, query.statement = .ok tokens) ↔ query.RendersOperands := by
  rw [query.failsFirst_statement.exists_ok_iff, literals, List.flatMap_assoc,
    List.flatMap_eq_nil_iff]
  refine forall₂_congr fun condition _ => ?_
  rw [Condition.literals]
  split
  · next renderable =>
      rw [forall_prop_of_true renderable]
      cases condition.operand with
      | none => simp
      | some operand =>
          have fails := Sql.failsFirst_operand condition.operator operand
          simpa using fails.exists_ok_iff.symm
  · next skipped => exact iff_of_true rfl fun renderable => absurd renderable skipped

/-- A query compiles exactly when it has tables and all operands of its conditions can be rendered,
which is to say that their literals are finite. Its statement has the text of its phrases then, and
nothing else. -/
theorem compile_eq_wording_iff (dialect : Dialect) (query : Query) :
    (∀ sql, (query.compile dialect).value = .compiled sql ↔
      query.tables ≠ [] ∧ query.RendersOperands ∧ sql = query.wording dialect) ∧
    (query.RendersOperands ↔ ∀ condition ∈ query.conditions, condition.isRenderable →
      ∀ number, condition.HasLiteral (.float number) → number.isFinite = true) := by
  refine ⟨fun sql => ?_, ?_⟩
  · rw [compile_eq_compiled_iff, ← exists_statement_iff_rendersOperands]
    constructor
    · rintro ⟨tables, tokens, rendered, rfl⟩
      exact ⟨tables, ⟨tokens, rendered⟩, text_of_statement rendered⟩
    · rintro ⟨tables, ⟨tokens, rendered⟩, rfl⟩
      exact ⟨tables, tokens, rendered, text_of_statement rendered⟩
  · rw [← exists_statement_iff_rendersOperands, exists_statement_iff_finite]

/-- Empty names and the condition without a column leave no trace. -/
example : wording .postgres
    { tables := ["a", "b"]
      columns := ["a.x", "", "b.y"]
      conditions := [
        ⟨"a.x", .greater, some (.scalar (.integer { value := 1 })), none⟩,
        ⟨"", .equal, some (.scalar .null), none⟩,
        ⟨"b.y", .oneOf, some (.list [.string "it's", .boolean true]), none⟩]
      aggregations := []
      joins := [⟨.left, "a", "b", "a.id = b.a_id"⟩]
      orderBy := some [⟨"b.y", .descending⟩]
      groupBy := some ["a.x", ""]
      limit := some 5 } =
    "SELECT a.x, b.y FROM a LEFT JOIN b ON a.id = b.a_id " ++
      "WHERE a.x > 1 AND b.y IN ('it''s', true) GROUP BY a.x ORDER BY b.y DESC LIMIT 5" := by
  decide +kernel

end Query

end SemanticQuery
