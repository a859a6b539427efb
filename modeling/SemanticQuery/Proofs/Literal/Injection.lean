/-
This file shows that no value can change the structure of a statement. The scan of a statement finds
the texts that its conditions quote, and what it finds outside of them does not depend on strings.
-/

import SemanticQuery.Proofs.Statement.Compiled
import SemanticQuery.Proofs.Literal.Clauses
import SemanticQuery.Proofs.Literal.Outline

namespace SemanticQuery

namespace Sql

/-- The literals among the pieces of a token are its string, if it is one. -/
theorem filterMap_text?_pieces (dialect : Dialect) (token : Token) :
    (token.pieces dialect).filterMap Piece.text? = token.string?.toList := by
  cases string : token.string? with
  | none =>
      rw [token.pieces_of_string?_eq_none dialect string, List.filterMap_map]
      exact List.filterMap_eq_nil_iff.2 fun _ _ => rfl
  | some value =>
      cases token <;> cases string
      rfl

/-- The literals of a statement are its strings. -/
theorem filterMap_text?_flatMap (dialect : Dialect) (tokens : List Token) :
    (tokens.flatMap (Token.pieces dialect)).filterMap Piece.text? = strings tokens := by
  rw [List.filterMap_flatMap, strings]
  exact List.flatMap_congr fun token _ => filterMap_text?_pieces dialect token

/-- The outline of a statement is that of its blank tokens. -/
theorem map_outline_flatMap (dialect : Dialect) (tokens : List Token) :
    (tokens.flatMap (Token.pieces dialect)).map Piece.outline =
      ((tokens.map Token.blank).flatMap (Token.pieces dialect)).map Piece.outline := by
  rw [List.map_flatMap, List.map_flatMap, List.flatMap_map]
  exact List.flatMap_congr fun token _ => (token.outline_pieces_blank dialect).symm

end Sql

namespace Query

open Sql (Piece scan)

/-- A query is as plain as its blank query, because no condition loses its column. -/
theorem isPlain_blank_iff {query : Query} : query.blank.IsPlain ↔ query.IsPlain := by
  have columns : (∀ condition ∈ query.blank.conditions, Sql.IsPlain condition.column.toList) ↔
      ∀ condition ∈ query.conditions, Sql.IsPlain condition.column.toList := List.forall_mem_map
  constructor
  · intro plain
    exact { plain with conditions := columns.1 plain.conditions }
  · intro plain
    exact { plain with conditions := columns.2 plain.conditions }

/-- The statement of a plain query is scanned token by token. -/
theorem scan_of_statement (dialect : Dialect) {query : Query} {tokens : List Sql.Token}
    (plain : query.IsPlain) (rendered : query.statement = .ok tokens) :
    ∃ pieces, scan dialect (Sql.text dialect tokens).toList = some pieces ∧
      pieces.filterMap Piece.text? = query.conditions.flatMap Condition.quotedTexts ∧
      pieces.map Piece.outline =
        ((tokens.map Sql.Token.blank).flatMap (Sql.Token.pieces dialect)).map Piece.outline := by
  obtain ⟨readable, quoted⟩ := statement_eq_ok plain rendered
  refine ⟨_, Sql.scan_text dialect readable, ?_, Sql.map_outline_flatMap dialect tokens⟩
  rw [Sql.filterMap_text?_flatMap, quoted]

/-- Every scan of a compiled statement ends outside of its literals. The literals are the quoted
texts of the conditions in their order, and a query that differs only in strings compiles to a
statement with the same text around its literals. -/
theorem scan_compile (dialect : Dialect) {query : Query} (plain : query.IsPlain)
    (compiled : (query.compile dialect).value.isDegraded = false) :
    ∃ pieces, scan dialect (query.compile dialect).value.sql.toList = some pieces ∧
      pieces.filterMap Piece.text? = query.conditions.flatMap Condition.quotedTexts ∧
      ∀ other : Query, other.blank = query.blank →
        (other.compile dialect).value.isDegraded = false ∧
          ∃ others, scan dialect (other.compile dialect).value.sql.toList = some others ∧
            others.filterMap Piece.text? = other.conditions.flatMap Condition.quotedTexts ∧
            others.map Piece.outline = pieces.map Piece.outline := by
  obtain ⟨tables, tokens, rendered, sql⟩ := isDegraded_compile_eq_false_iff.1 compiled
  obtain ⟨pieces, scanned, literals, outline⟩ := scan_of_statement dialect plain rendered
  rw [sql]
  refine ⟨pieces, scanned, literals, fun other same => ?_⟩
  have sameTables : other.tables = query.tables :=
    (Query.mk.inj same).1
  have otherTables : other.tables ≠ [] := sameTables ▸ tables
  have otherPlain : other.IsPlain := isPlain_blank_iff.1 (same ▸ isPlain_blank_iff.2 plain)
  -- The two statements differ at most in the contents of their string tokens.
  have statements : other.statement.map (List.map Sql.Token.blank) =
      .ok (tokens.map Sql.Token.blank) := by
    rw [← statement_blank, same, statement_blank, rendered]
    rfl
  obtain ⟨otherTokens, otherRendered, blank⟩ := map_eq_ok_iff.1 statements
  have otherSql : (other.compile dialect).value = .compiled (Sql.text dialect otherTokens) :=
    compile_eq_compiled_iff.2 ⟨otherTables, otherTokens, otherRendered, rfl⟩
  obtain ⟨others, otherScanned, otherLiterals, otherOutline⟩ :=
    scan_of_statement dialect otherPlain otherRendered
  rw [otherSql]
  refine ⟨rfl, others, otherScanned, otherLiterals, ?_⟩
  rw [otherOutline, outline, blank]

/-- The values of this query try to end their literals. -/
def hostile : Query :=
  (((Query.ofTables ["users"]).select ["id"]).filter
    ⟨"name", .equal, some (.scalar (.string "\\' OR 1=1 -- ")), none⟩).filter
      ⟨"role", .oneOf, some (.list [.string "it's /*", .integer ⟨7, by decide, by decide⟩]), none⟩

/-- Quotes, backslashes and comments stay inside of the literals that hold them. -/
theorem scan_compile_hostile :
    hostile.IsPlain ∧ (hostile.compile .mysql).value.isDegraded = false ∧
      ∃ pieces, scan .mysql (hostile.compile .mysql).value.sql.toList = some pieces ∧
        pieces.filterMap Piece.text? = ["\\' OR 1=1 -- ", "it's /*"] := by
  have plain : hostile.IsPlain := by
    refine ⟨?_, ?_, ?_, ?_, ?_, ?_⟩ <;> decide
  have compiled : (hostile.compile .mysql).value.isDegraded = false := by decide
  obtain ⟨pieces, scanned, literals, _⟩ := scan_compile .mysql plain compiled
  exact ⟨plain, compiled, pieces, scanned, literals⟩

end Query

end SemanticQuery
