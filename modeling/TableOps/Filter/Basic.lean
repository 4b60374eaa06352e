import TableOps.Reference.Identifier
import TableOps.Text.Case

/-!
# Filters

A filter is a tree: leaves compare one column, groups join filters with `AND` or `OR`. It is a
template. A leaf takes effect only when the query has a value for its unqualified column, so one
tree serves many calls.

* `Filter` — the tree; `Leaf` — one comparison.
* `Filter.leaves`, `Filter.columns` — the leaves and the columns they look up, left to right.
* `Operator` — how a leaf's operator treats its value.
-/

namespace TableOps

/-- The two ways of joining filters. -/
inductive Connective where
  | and
  | or
  deriving DecidableEq, Repr

/-- The connective as it is written. -/
def Connective.name : Connective → String
  | .and => "AND"
  | .or => "OR"

/-- The connective a name stands for, in any case. -/
def Connective.ofName? (name : String) : Option Connective :=
  match Text.upper name with
  | "AND" => some .and
  | "OR" => some .or
  | _ => none

/-- One comparison of a column. -/
structure Leaf where
  /-- The column, perhaps qualified. -/
  name : String
  /-- The operator as the caller wrote it. -/
  op : String
  /-- The operator stands alone, without a placeholder. -/
  noArg : Bool
  deriving DecidableEq, Repr

namespace Leaf

/-- The comparison of a column for equality. -/
def equals (name : String) : Leaf :=
  ⟨name, "=", false⟩

/-- The unqualified column under which the query holds the value. -/
def column (leaf : Leaf) : String :=
  (Reference.splitQualifier leaf.name).2

end Leaf

/-- A tree of comparisons. -/
inductive Filter where
  | leaf (leaf : Leaf)
  | group (connective : Connective) (members : List Filter)
  deriving Repr

namespace Filter

mutual

/-- The leaves from left to right. -/
def leaves : Filter → List Leaf
  | .leaf l => [l]
  | .group _ members => leavesOf members

/-- The leaves of several filters from left to right. -/
def leavesOf : List Filter → List Leaf
  | [] => []
  | f :: fs => f.leaves ++ leavesOf fs

end

/-- The unqualified columns of the leaves from left to right. -/
def columns (f : Filter) : List String :=
  f.leaves.map Leaf.column

/-- A single filter stands for itself, several are joined, none is no filter. -/
def join? (connective : Connective) : List Filter → Option Filter
  | [] => none
  | [f] => some f
  | fs => some (.group connective fs)

end Filter

/-- How an operator treats the value of its column. -/
inductive Operator where
  /-- `IS NULL` and `IS NOT NULL`: the value is not looked at. -/
  | unary
  /-- `IN` and `NOT IN`: the value is a list. -/
  | membership
  /-- Any other operator. -/
  | binary
  deriving DecidableEq, Repr

/-- The operator as it is written: without the blanks around it. -/
def Operator.wording (op : String) : String :=
  Text.trimmed op

/-- The treatment an operator asks for, by its upper-case wording. -/
def Operator.ofWording (op : String) : Operator :=
  match Text.upper (wording op) with
  | "IS NULL" | "IS NOT NULL" => .unary
  | "IN" | "NOT IN" => .membership
  | _ => .binary

end TableOps
