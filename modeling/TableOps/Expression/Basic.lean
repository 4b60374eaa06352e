import TableOps.Expression.Join
import TableOps.Filter.Reading
import TableOps.Value.Mapping

/-!
# Query expressions

What a command works on: a table, its joins, the columns, the filter and a trailing clause. The
table is fixed from the start; the rest is added step by step. A step that fails may have taken
effect in part: the transformers of a rejected column list stay.

* `Expression` — the expression; `Expression.on` starts one.
* `Expression.join`, `Expression.column`, `Expression.filterBy`, `Expression.extra` — the steps.
* `Expression.derive` — a changed copy.
* `Expression.plain`, `Expression.ofValue` — the plain form and its reading.
-/

namespace TableOps

/-- A table with joins, columns, a filter and a trailing clause. -/
structure Expression where
  source : Source
  joins : List Join
  columns : List String
  /-- What is applied to the columns of a row, by output name. -/
  transformers : Entries Value
  filter : Option Filter
  /-- A clause written behind everything else; what does not count as present is none. -/
  extra : Value

/-- What a derived copy of an expression has instead; none keeps what the expression has. -/
structure Changes where
  joins : Option (List Join)
  columns : Option (List String)
  filter : Option (Option Filter)
  extra : Option Value

/-- No change. -/
def Changes.none : Changes :=
  ⟨.none, .none, .none, .none⟩

namespace Expression

/-- An expression on a source, with nothing else. -/
def ofSource (source : Source) : Expression :=
  ⟨source, [], [], [], none, .null⟩

/-- The source a value names: a text that refers to a table. -/
def checkTable (v : Value) : Check Source :=
  (Check.text v).andThen fun s => Check.ofExcept (Source.ofText s)

/-- A new expression on the table that `table` names. -/
def on (table : Value) : Except Failure Expression :=
  (Check.within (.member "table") (Check.map ofSource (checkTable table))).toExcept

/-- The table of the expression. -/
def table (e : Expression) : TableRef :=
  e.source.ref

/-- The database named by the table, if it names one. -/
def databaseName (e : Expression) : Option String :=
  e.table.database

/-- The trailing clause, when there is one. -/
def extra? (e : Expression) : Option Value :=
  (some e.extra).filter Value.truthy

/-! ## Steps -/

/-- A step in building an expression; what it changed before failing stays changed. -/
abbrev Step := ExceptT Failure (StateM Expression)

/-- The join that a value describes; null is read as an empty mapping. -/
def readJoin (spec : Value) : Except Failure Join :=
  Join.ofValue (if spec.isNull then .map [] else spec)

/-- Adds a join. -/
def join (spec : Value) : Step Unit := do
  let j ← (readJoin spec : Except Failure Join)
  modify fun e => { e with joins := e.joins ++ [j] }

/-- The name of one entry of a column list. An entry with a transformer registers it under the
output name of its column. -/
def columnEntry : Value → Step String
  | .text name => return name
  | .map [(name, .transformer t)] => do
    modify fun e =>
      { e with transformers := e.transformers.put (Reference.outputName name) (.transformer t) }
    return name
  | .map [(name, _)] => throw (.malformed (.notATransformer name))
  | _ => throw (.malformed .unreadableColumn)

/-- Appends one column, or replaces the columns by a list. -/
def column : Value → Step Unit
  | .text name => modify fun e => { e with columns := e.columns ++ [name] }
  | .list entries => do
    let names ← entries.mapM columnEntry
    modify fun e => { e with columns := names }
  | _ => throw (.malformed .columnsNotList)

/-- Replaces the filter. -/
def setFilter (f : Option Filter) : Step Unit :=
  modify fun e => { e with filter := f }

/-- Replaces the filter by the one that a value stands for. -/
def filterBy (v : Value) : Step Unit := do
  setFilter (← (Filter.ofValue v : Except Failure (Option Filter)))

/-- Replaces the trailing clause, which is not looked at. -/
def setExtra (clause : Value) : Step Unit :=
  modify fun e => { e with extra := clause }

/-- The table cannot be replaced. -/
def setTable (_ : Value) : Step Unit :=
  throw .fixedTable

/-- A copy with some parts changed. -/
def derive (e : Expression) (changes : Changes) : Expression :=
  { e with
    joins := changes.joins.getD e.joins
    columns := changes.columns.getD e.columns
    filter := changes.filter.getD e.filter
    extra := changes.extra.getD e.extra }

/-! ## Plain form -/

/-- The joins as a member of the plain form. -/
def plainJoins (joins : List Join) : Entries Value :=
  if joins.isEmpty then [] else [("joins", .list (joins.map Join.plain))]

/-- The columns as a member of the plain form. -/
def plainColumns (e : Expression) : Entries Value :=
  if e.columns.isEmpty then [] else [("columns", .ofTexts e.columns)]

/-- The filter as a member of the plain form. -/
def plainFilter (filter : Option Filter) : Entries Value :=
  (filter.map fun f => ("filters", f.plain)).toList

/-- The trailing clause as a member of the plain form. -/
def plainExtra (e : Expression) : Entries Value :=
  (e.extra?.map fun clause => ("extra", clause)).toList

/-- The plain form: what is empty is left out, and so are the transformers. -/
def plain (e : Expression) : Value :=
  .map ([("table", .text e.source.text)] ++ plainJoins e.joins ++ e.plainColumns ++
    plainFilter e.filter ++ e.plainExtra)

/-- A plain form with the transformers by column and the database. -/
def stateOf (plain : Value) (transformers : Entries Value) (database : Option String) :
    Entries Value :=
  [("value", plain), ("transformers", .list (transformers.map fun (name, t) => Value.pair name t)),
    ("database", .ofText? database)]

/-- All that an expression shows. -/
def state (e : Expression) : Entries Value :=
  stateOf e.plain e.transformers e.databaseName

/-- A member that counts as present. -/
def present? (members : Entries Value) (name : String) : Option Value :=
  (members.get? name).filter Value.truthy

/-- The table and the joins of a plain form; both may stand together under `table`. -/
def tableAndJoins (members : Entries Value) : Option Value × Option Value :=
  let joins := present? members "joins"
  match members.get? "table" with
  | some (.map nested) => (present? nested "name", (present? nested "join").or joins)
  | _ => (present? members "table", joins)

/-- The transformers a plain form lists, whatever they are. -/
def listedTransformers (members : Entries Value) : Except Failure (Entries Value) :=
  match (present? members "transformers").or (present? members "xformer") with
  | none => .ok []
  | some (.map listed) => .ok listed
  | some _ => .error .unsupportedValue

/-- The trailing clause of a plain form. -/
def listedExtra? (members : Entries Value) : Option Value :=
  (present? members "extra").or (present? members "extra_clause")

/-- The steps that a plain form asks for, once its table is known. -/
def fill (members : Entries Value) (joins : Option Value) : Step Unit := do
  let joins ← ((joins.getD (.list [])).itemsOf : Except Failure (List Value))
  joins.forM join
  if let some columns := present? members "columns" then
    column (.list (← (columns.itemsOf : Except Failure (List Value))))
  let transformers ← (listedTransformers members : Except Failure (Entries Value))
  modify fun e => { e with transformers := Entries.update e.transformers transformers }
  if let some f := (Entries.get? members "filters").filter (!·.isNull) then
    filterBy f
  if let some clause := listedExtra? members then
    setExtra clause

/-- The expression a plain form stands for. -/
def ofMembers (members : Entries Value) : Except Failure Expression := do
  let (table, joins) := tableAndJoins members
  match table with
  | none => .error (.malformed (.expressionWithoutTable (.map members)))
  | some table =>
    let e ← on table
    match (fill members joins).run.run e with
    | (.ok (), e) => .ok e
    | (.error f, _) => .error f

/-- The expression a value stands for; it has to be a mapping. -/
def ofValue : Value → Except Failure Expression
  | .map members => ofMembers members
  | _ => .error .unsupportedValue

end Expression

end TableOps
