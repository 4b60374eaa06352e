import TableOps.Command.Basic
import TableOps.Dialect
import TableOps.Number.Integer
import TableOps.Statement.Read
import TableOps.Value.Keyed

/-!
# Results

What a statement yields, and how it becomes the result of a command.

* `Result` — the rows, the number of affected rows and the last generated key;
  `Result.ofReport` is what a driver reports.
* `Value.toWhole` — a total as a whole number.
* `Engine.stripTotal` — a page without the column that carries the total, and the total.
* `Result.insertedKeys` — the primary key of an inserted row.
* `Functions.apply`, `transformRows` — the transformers of the columns.
-/

namespace TableOps

/-- A row: the values by column name. -/
abbrev Row := Entries Value

/-- What a statement yields. -/
structure Result where
  rows : List Row
  rowCount : Int
  lastInsertId : Value
  deriving Repr

namespace Result

/-- No rows. -/
def empty : Result :=
  ⟨[], 0, .null⟩

/-- A result from plain data. -/
def ofValue : Value → Check Result :=
  Check.instanceOf fun members =>
    Result.mk
      <$> Check.withDefault ["rows"] [] (Check.list (Check.mapping Check.any)) members
      <*> Check.withDefault ["row_count"] 0 Check.int members
      <*> Check.withDefault ["last_insert_id"] .null Check.any members

/-- A row that a driver reports, its values by column; a column named twice keeps the last one. -/
def rowOf (columns : List Value) (row : Value) : Except Failure (Keyed Value) := do
  Keyed.ofPairs (columns.zip (← row.itemsOf))

/-- The result that a driver reports. A statement without columns yields no rows, and the names of
columns have to be texts. A driver that does not count reports null, which becomes -1. -/
def ofReport (columns rows : List Value) (rowCount lastInsertId : Value) :
    Except Failure Result := do
  let rows ← if columns.isEmpty then pure [] else rows.mapM (rowOf columns)
  ((fun rows rowCount => Result.mk rows rowCount lastInsertId)
    <$> Check.within (.member "rows") (Check.itemsFrom Check.namedEntries 0 rows)
    <*> Check.within (.member "row_count")
      (if rowCount.isNull then .ok (-1) else Check.int rowCount)).toExcept

/-- The members that a result is read from. -/
def members (r : Result) : Entries Value :=
  [("rows", .list (r.rows.map .map)), ("row_count", .int r.rowCount),
    ("last_insert_id", r.lastInsertId)]

end Result

/-- A value as a whole number: fractions are dropped and texts are read. -/
def Value.toWhole : Value → Except Failure Int
  | .bool b => .ok (if b then 1 else 0)
  | .int n => .ok n
  | .float .nan => .error (.input .notANumber)
  | .float x =>
    match x.truncate? with
    | some n => .ok n
    | none => .error .unbounded
  | .text s =>
    (Integer.ofText s).mapError fun refusal => .input (.ofRefusal s refusal)
  | _ => .error .wrongKind

/-- The rows without the column that carries the total, and the total, if there is such a
column. -/
def Engine.stripTotal (engine : Engine) (rows : List Row) :
    Except Failure (List Row × Option Int) :=
  match engine.countStrategy, rows with
  | .window, row :: _ =>
    match row.get? Statement.totalColumn with
    | some total => do
      let total ← total.toWhole
      return (rows.map (Entries.erase · Statement.totalColumn), some total)
    | none => .ok (rows, none)
  | _, _ => .ok (rows, none)

/-- The value of one key column of an inserted row: the supplied one, else the returned one, else
the generated one. -/
def Result.insertedKey (r : Result) (data : Entries Value) (column : String) : Value :=
  match data.get? column, (r.rows.head?.getD []).get? column with
  | some v, _ => v
  | none, some v => v
  | none, none => r.lastInsertId

/-- The primary key of an inserted row. -/
def Result.insertedKeys (r : Result) (data : Entries Value) (primaryKey : List String) :
    Entries Value :=
  Entries.ofPairs (primaryKey.map fun column => (column, r.insertedKey data column))

/-- Functions by name. Each may be any function of a value, and may fail. -/
abbrev Functions := Entries (Value → Except Failure Value)

/-- What is made of a value by a transformer, which has to be one of the functions. -/
def Functions.apply (fs : Functions) (transformer v : Value) : Except Failure Value :=
  match transformer with
  | .transformer t =>
    match fs.get? t.name with
    | some f => f v
    | none => .error .noSuchMember
  | _ => .error .wrongKind

/-- A row with one transformer applied to the column it is meant for, if the row has it. -/
def transformColumn (fs : Functions) (row : Row) (name : String) (transformer : Value) :
    Except Failure Row :=
  match row.get? name with
  | none => .ok row
  | some v => (fs.apply transformer v).map fun w => row.put name w

/-- A row with the transformers of its columns applied. -/
def transformRow (fs : Functions) (transformers : Entries Value) (row : Row) : Except Failure Row :=
  transformers.foldlM (fun row (name, t) => transformColumn fs row name t) row

/-- Rows with the transformers of their columns applied. -/
def transformRows (fs : Functions) (transformers : Entries Value) (rows : List Row) :
    Except Failure (List Row) :=
  rows.mapM (transformRow fs transformers)

end TableOps
