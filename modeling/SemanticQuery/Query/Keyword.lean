/-
This file defines the keywords of a query.
-/

import SemanticQuery.Text.Blank
import SemanticQuery.Text.Upper

namespace SemanticQuery

/-- The keywords of one kind are few, and each of them has a canonical spelling of its own. -/
class Keyword (α : Type) where
  all : List α
  spelling : α → String
  mem_all : ∀ keyword, keyword ∈ all
  spelling_injective : ∀ first second, spelling first = spelling second → first = second

namespace Keyword

/-- Only the canonical spelling is a keyword. -/
def canonical? (α : Type) [Keyword α] (text : String) : Option α :=
  (all : List α).find? (spelling · = text)

/-- Blanks around a keyword and its case do not matter. -/
def loose? (α : Type) [Keyword α] (text : String) : Option α :=
  canonical? α (Text.upper (Text.trim text))

/-- Commas stand between the keywords of a list. -/
def enumerate (α : Type) [Keyword α] : String :=
  ", ".intercalate ((all : List α).map spelling)

/-- A text is read as the keyword that it spells. -/
theorem canonical?_eq_some_iff [Keyword α] {text : String} {keyword : α} :
    canonical? α text = some keyword ↔ spelling keyword = text := by
  constructor
  · intro found
    simpa using List.find?_some found
  · intro equal
    have present : (canonical? α text).isSome :=
      List.find?_isSome.2 ⟨keyword, mem_all keyword, by simpa using equal⟩
    obtain ⟨other, found⟩ := Option.isSome_iff_exists.1 present
    have otherEqual : spelling other = text := by simpa using List.find?_some found
    rw [found, spelling_injective other keyword (otherEqual.trans equal.symm)]

theorem canonical?_spelling [Keyword α] (keyword : α) :
    canonical? α (spelling keyword) = some keyword :=
  canonical?_eq_some_iff.2 rfl

end Keyword

/-- A condition compares by one of these operators. -/
inductive Operator where
  | equal
  | notEqual
  | greater
  | less
  | greaterEqual
  | lessEqual
  | like
  | oneOf
  | between
deriving DecidableEq

instance : Keyword Operator where
  all := [.equal, .notEqual, .greater, .less, .greaterEqual, .lessEqual, .like, .oneOf, .between]
  spelling
    | .equal => "="
    | .notEqual => "!="
    | .greater => ">"
    | .less => "<"
    | .greaterEqual => ">="
    | .lessEqual => "<="
    | .like => "LIKE"
    | .oneOf => "IN"
    | .between => "BETWEEN"
  mem_all keyword := by cases keyword <;> decide
  spelling_injective first second := by cases first <;> cases second <;> decide

/-- An aggregation applies one of these functions. -/
inductive AggregateFunction where
  | count
  | sum
  | average
  | maximum
  | minimum
deriving DecidableEq

instance : Keyword AggregateFunction where
  all := [.count, .sum, .average, .maximum, .minimum]
  spelling
    | .count => "COUNT"
    | .sum => "SUM"
    | .average => "AVG"
    | .maximum => "MAX"
    | .minimum => "MIN"
  mem_all keyword := by cases keyword <;> decide
  spelling_injective first second := by cases first <;> cases second <;> decide

/-- A join keeps the unmatched rows of no side, of one side, or of both sides. -/
inductive JoinType where
  | inner
  | left
  | right
  | full
deriving DecidableEq

instance : Keyword JoinType where
  all := [.inner, .left, .right, .full]
  spelling
    | .inner => "INNER"
    | .left => "LEFT"
    | .right => "RIGHT"
    | .full => "FULL"
  mem_all keyword := by cases keyword <;> decide
  spelling_injective first second := by cases first <;> cases second <;> decide

/-- An order goes up or down. -/
inductive Direction where
  | ascending
  | descending
deriving DecidableEq

instance : Keyword Direction where
  all := [.ascending, .descending]
  spelling
    | .ascending => "ASC"
    | .descending => "DESC"
  mem_all keyword := by cases keyword <;> decide
  spelling_injective first second := by cases first <;> cases second <;> decide

end SemanticQuery
