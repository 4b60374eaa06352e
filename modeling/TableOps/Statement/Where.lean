import TableOps.Filter.Basic
import TableOps.Expression.Join
import TableOps.Statement.Piece

/-!
# Filters as conditions of a statement

The pieces of a filter for a query. Leaves without a value in the query vanish; a group that keeps
one member is that member, and a group that keeps several is parenthesised.

* `Value.columnRef?` — the column a query value names instead of being bound.
* `Leaf.pieces`, `Filter.pieces` — the pieces of a leaf and of a filter.
* `Unrenderable` — a membership test without a list, with the values bound before it.
-/

namespace TableOps

/-- The column a query value names: a column as such, or a text of more than one character that
starts with `@`. -/
def Value.columnRef? : Value → Option String
  | .column name => some name
  | .text s =>
    match s.toList with
    | '@' :: c :: cs => some (String.ofList (c :: cs))
    | _ => none
  | _ => none

/-- A membership test whose value is not a list with items. -/
structure Unrenderable where
  column : String
  value : Value
  /-- The values bound by what stands before the test. -/
  bound : List Value

/-- The failure of a membership test. -/
def Unrenderable.failure (u : Unrenderable) : Failure :=
  .malformed (.emptyMembership u.column u.value)

namespace Leaf

/-- The column that a leaf's value refers to. Without a qualifier of its own it takes that of the
leaf; the name of an aliased table stands for its alias. -/
def resolve (leaf : Leaf) (table : Option TableRef) (ref : String) : String :=
  let (qualifier, column) := Reference.splitQualifier ref
  let qualifier :=
    match qualifier with
    | none => (Reference.splitQualifier leaf.name).1
    | some q =>
      match table.bind fun t => t.aliasText?.filter fun _ => q == t.name with
      | some aliasName => some aliasName
      | none => some q
  match Join.filled? qualifier with
  | some q => q ++ "." ++ column
  | none => column

/-- The pieces of the items of a membership test. -/
def marks (items : List Value) : Statement :=
  [.text " ("] ++ Statement.commaSeparated (items.map fun v => [.value v]) ++ [.text ")"]

/-- The pieces of a leaf with the value `v`. -/
def piecesWith (leaf : Leaf) (table : Option TableRef) (v : Value) :
    Except Unrenderable Statement :=
  let head : Statement := [.column leaf.name, .text " ", .text (Operator.wording leaf.op)]
  match Operator.ofWording leaf.op with
  | .unary => .ok head
  | .membership =>
    match v with
    | .list (item :: items) => .ok (head ++ marks (item :: items))
    | _ => .error ⟨leaf.column, v, []⟩
  | .binary =>
    match v.columnRef? with
    | some ref => .ok (head ++ [.text " ", .column (leaf.resolve table ref)])
    | none => if leaf.noArg then .ok head else .ok (head ++ [.text " ", .value v])

/-- The pieces of a leaf; a leaf without a value in the query has none. -/
def pieces (leaf : Leaf) (query : Entries Value) (table : Option TableRef) :
    Except Unrenderable Statement :=
  match Entries.get? query leaf.column with
  | none => .ok []
  | some v => leaf.piecesWith table v

end Leaf

namespace Filter

/-- The kept members of a group as one condition. -/
def enclose (connective : Connective) : List Statement → Statement
  | [] => []
  | [s] => s
  | ss =>
    [.text "("] ++ Statement.separated [.text (" " ++ connective.name ++ " ")] ss ++ [.text ")"]

mutual

/-- The pieces of a filter for a query. -/
def pieces (query : Entries Value) (table : Option TableRef) :
    Filter → Except Unrenderable Statement
  | .leaf l => l.pieces query table
  | .group connective members => (piecesOf query table members).map (enclose connective)

/-- The pieces of several filters, without the filters that have none. -/
def piecesOf (query : Entries Value) (table : Option TableRef) :
    List Filter → Except Unrenderable (List Statement)
  | [] => .ok []
  | f :: fs =>
    match pieces query table f with
    | .error u => .error u
    | .ok s =>
      match piecesOf query table fs with
      | .error u => .error { u with bound := s.values ++ u.bound }
      | .ok ss => .ok (if s.isEmpty then ss else s :: ss)

end

end Filter

namespace Statement

/-- The condition of a statement for a query; no filter is no condition. -/
def condition (filter : Option Filter) (query : Entries Value) (table : TableRef) :
    Except Failure Statement :=
  match filter with
  | none => .ok []
  | some f => (f.pieces query (some table)).mapError Unrenderable.failure

/-- The clause that restricts a statement, empty when there is no condition. -/
def whereClause (filter : Option Filter) (query : Entries Value) (table : TableRef) :
    Except Failure Statement :=
  (condition filter query table).map fun c => if c.isEmpty then [] else .text " WHERE " :: c

end Statement

end TableOps
