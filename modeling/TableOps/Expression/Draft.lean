import TableOps.Expression.Basic
import TableOps.Value.Unread

/-!
# Drafts

An expression is derived from another one by replacing parts of it, and nobody looks at what they
are replaced by. A draft is an expression that may have such unread parts. They are read as far as
they fit; the others only show when they are used.

* `Draft` — the expression and its unread parts.
* `Draft.join`, `Draft.column`, `Draft.filterBy`, `Draft.setExtra` — the steps of an expression.
* `Draft.derive` — a copy with parts replaced.
* `Draft.table`, `Draft.joins`, `Draft.columns`, `Draft.filter` — the parts as they are used.
* `Draft.plain`, `Draft.state` — what a draft shows.

Main statements: `plain_ofExpression` and `state_ofExpression`, a draft without unread parts shows
its expression.
-/

namespace TableOps

/-- An expression some parts of which may have been replaced by unread values. -/
structure Draft where
  expression : Expression
  /-- The unread values by part; they hide the parts of the expression. One that is named like a
  step hides that step. -/
  unread : Unread

namespace Draft

/-- A draft without unread parts. -/
def ofExpression (e : Expression) : Draft :=
  ⟨e, []⟩

/-- The names that an unread value may have: those of the parts and of the steps. -/
def partNames : List String :=
  ["table", "joins", "columns", "transformers", "filters", "value", "join", "column", "filter",
    "extra", "derive"]

/-- The draft with a part replaced by a value, which is read if it fits. Other names have no
effect. -/
def replace (d : Draft) (name : String) (v : Value) : Draft :=
  let read (e : Expression) : Draft := ⟨e, d.unread.erase name⟩
  let unread : Draft := { d with unread := d.unread.put name v }
  match name, v with
  | "joins", .list [] => read { d.expression with joins := [] }
  | "columns", .list items =>
    match Value.texts? items with
    | some columns => read { d.expression with columns := columns }
    | none => unread
  | "transformers", .map members => read { d.expression with transformers := members }
  | "filters", .null => read { d.expression with filter := none }
  | "extra_clause", clause => read { d.expression with extra := clause }
  | "table", .text s =>
    match Source.asWritten? s with
    | some source => read { d.expression with source := source }
    | none => unread
  | _, _ => if partNames.contains name then unread else d

/-! ## Steps -/

/-- A step on a draft; what it changed before failing stays changed. -/
abbrev Step := ExceptT Failure (StateM Draft)

/-- A step on the expression of a draft. -/
def onExpression (step : Expression.Step Unit) : Step Unit :=
  ExceptT.mk fun d =>
    let (r, e) := step.run.run d.expression
    (r, { d with expression := e })

/-- A step cannot be taken when a value hides it. -/
def requireStep (name : String) : Step Unit := do
  if (← get).unread.has name then throw .wrongKind

/-- A part is read again. -/
def settle (name : String) : Step Unit :=
  modify fun d => { d with unread := d.unread.erase name }

/-- Adds a join. -/
def join (spec : Value) : Step Unit := do
  requireStep "join"
  match (← get).unread.get? "joins" with
  | none => onExpression (Expression.join spec)
  | some (.list _) => do
    let _ ← (Expression.readJoin spec : Except Failure Join)
  | some _ => throw .unsupportedValue

/-- Adds a join whose members are given by name; a member `spec` describes all of it. -/
def joinNamed : Value → Step Unit
  | .map members =>
    if Entries.has members "self" then throw .wrongKind
    else
      match (Entries.get? members "spec").filter (!·.isNull) with
      | some spec => join spec
      | none => join (.map (Entries.erase members "spec"))
  | _ => throw .wrongKind

/-- An entry of a column list while the transformers are unread: no transformer can be kept. -/
def entryWithoutTransformers : Value → Step Unit
  | .map [(_, .transformer _)] => throw .wrongKind
  | entry => onExpression do
    let _ ← Expression.columnEntry entry

/-- Appends one column, or replaces the columns by a list. -/
def column (v : Value) : Step Unit := do
  requireStep "column"
  let d ← get
  match v, d.unread.get? "columns" with
  | .text name, some (.list items) =>
    modify fun d => { d with unread := d.unread.put "columns" (.list (items ++ [.text name])) }
  | .text _, some _ => throw .unsupportedValue
  | v, _ => do
    if d.unread.has "transformers" then
      (v.items?.getD []).forM entryWithoutTransformers
    onExpression (Expression.column v)
    settle "columns"

/-- Replaces the filter by the one that a value stands for. -/
def filterBy (v : Value) : Step Unit := do
  requireStep "filter"
  onExpression (Expression.filterBy v)
  settle "filters"

/-- Replaces the filter by several filters under one connective. -/
def chain (connective members : Value) : Step Unit := do
  let f ← (Filter.chain connective members : Except Failure Filter)
  requireStep "filter"
  onExpression (Expression.setFilter (some f))
  settle "filters"

/-- Replaces the trailing clause. -/
def setExtra (clause : Value) : Step Unit := do
  requireStep "extra"
  onExpression (Expression.setExtra clause)

/-! ## Derived drafts -/

/-- The draft with the items of an unread part copied. -/
def copyItems (name : String) (d : Draft) : Except Failure Draft :=
  match d.unread.get? name with
  | some v => do return d.replace name (.list (← v.itemsOf))
  | none => .ok d

/-- The draft with unread transformers copied, which have to be a mapping or pairs. -/
def copyTransformers (d : Draft) : Except Failure Draft :=
  match d.unread.get? "transformers" with
  | some v => do return d.replace "transformers" (.map (← v.toMapping))
  | none => .ok d

/-- A copy of the parts that are collections. -/
def copy (d : Draft) : Except Failure Draft := do
  let d ← d.copyItems "joins"
  let d ← d.copyItems "columns"
  d.copyTransformers

/-- A copy with the parts replaced that `changes` names. -/
def derive (d : Draft) : Value → Except Failure Draft
  | .map changes => do
    if Entries.has changes "self" || d.unread.has "derive" then throw .wrongKind
    return changes.foldl (fun d (name, v) => d.replace name v) (← d.copy)
  | _ => throw .wrongKind

/-- The draft with a filter. -/
def withFilter (d : Draft) (f : Filter) : Draft :=
  ⟨{ d.expression with filter := some f }, d.unread.erase "filters"⟩

/-! ## The parts in use -/

/-- The table. -/
def table (d : Draft) : Except Failure TableRef :=
  d.unread.read "table" d.expression.table fun
    | .text s => TableRef.parse s
    | _ => .error .unsupportedValue

/-- There are joins. -/
def hasJoins (d : Draft) : Bool :=
  d.unread.shows "joins" (!d.expression.joins.isEmpty)

/-- The joins; unread ones are gone through, and no item of them is a join. -/
def joins (d : Draft) : Except Failure (List Join) :=
  d.unread.read "joins" d.expression.joins fun v => do
    if (← v.itemsOf).isEmpty then return [] else throw .unsupportedValue

/-- There are columns. -/
def hasColumns (d : Draft) : Bool :=
  d.unread.shows "columns" (!d.expression.columns.isEmpty)

/-- The columns, gone through. -/
def columns (d : Draft) : Except Failure (List Value) :=
  d.unread.read "columns" (d.expression.columns.map .text) Value.itemsOf

/-- The first column, if there are columns. -/
def firstColumn? (d : Draft) : Except Failure (Option Value) :=
  if d.hasColumns then
    d.unread.read "columns" (d.expression.columns.head?.map .text) fun
      | .map _ => .error .noSuchMember
      | v => v.itemsOf.map List.head?
  else .ok none

/-- There is a filter, be it unread. -/
def hasFilter (d : Draft) : Bool :=
  d.unread.has "filters" || d.expression.filter.isSome

/-- The filter. -/
def filter (d : Draft) : Except Failure (Option Filter) :=
  d.unread.readAs "filters" d.expression.filter

/-- The transformers by column. -/
def transformers (d : Draft) : Except Failure (Entries Value) :=
  d.unread.readAs "transformers" d.expression.transformers

/-! ## What a draft shows -/

/-- The text of the table. -/
def plainTable (d : Draft) : Value :=
  (d.unread.get? "table").getD (.text d.expression.source.text)

/-- The joins as a member of the plain form; unread joins have none of their own. -/
def plainJoins (d : Draft) : Except Failure (Entries Value) :=
  if d.hasJoins then do return Expression.plainJoins (← d.joins) else .ok []

/-- The columns as a member of the plain form. -/
def plainColumns (d : Draft) : Except Failure (Entries Value) :=
  if d.hasColumns then do return [("columns", .list (← d.columns))] else .ok []

/-- The filter as a member of the plain form. -/
def plainFilter (d : Draft) : Except Failure (Entries Value) := do
  return Expression.plainFilter (← d.filter)

/-- The plain form. -/
def plain (d : Draft) : Except Failure Value := do
  if d.unread.has "value" then throw .wrongKind
  let joins ← d.plainJoins
  let columns ← d.plainColumns
  let filter ← d.plainFilter
  return .map ([("table", d.plainTable)] ++ joins ++ columns ++ filter ++
    d.expression.plainExtra)

/-- A draft without unread parts shows its expression. -/
theorem plain_ofExpression (e : Expression) : (ofExpression e).plain = .ok e.plain := by
  cases e with
  | mk source joins columns transformers filter extra =>
    cases joins <;> cases columns <;> rfl

/-- The database that the table names. -/
def databaseName (d : Draft) : Except Failure (Option String) :=
  d.table.map TableRef.database

/-- The plain form with the transformers and the database. -/
def state (d : Draft) : Except Failure (Entries Value) := do
  let plain ← d.plain
  let transformers ← d.transformers
  let database ← d.databaseName
  return Expression.stateOf plain transformers database

/-- A draft without unread parts shows the state of its expression. -/
theorem state_ofExpression (e : Expression) : (ofExpression e).state = .ok e.state := by
  rw [state, plain_ofExpression]
  rfl

/-- The expression that the plain form stands for. -/
def reread (d : Draft) : Except Failure Expression := do
  Expression.ofValue (← d.plain)

end Draft

end TableOps
