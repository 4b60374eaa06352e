import TableOps.Command.Basic
import TableOps.Statement.Where

/-!
# Statements that read

* `Statement.fromClause` — the table and its joins.
* `Statement.select?` — the selection of a request; there is none without columns.
* `Statement.count` — the number of rows a list has in all.
-/

namespace TableOps

namespace Statement

/-- How the rows of a joined table match. A join that gives neither a shared column nor a
condition has no text to write. -/
def matching (d : Dialect) (j : Join) (primary : TableRef) : Except Failure Statement :=
  match Join.filled? j.using? with
  | some column => .ok [.text " USING (", .name column, .text ")"]
  | none => do
    match ← j.equality? primary with
    | some (left, right) => return [.text " ON ", .column left, .text " = ", .column right]
    | none =>
      match j.on?, d.style with
      | some on, _ => return [.text " ON ", .raw on]
      | none, .format => throw .unsupportedValue
      | none, _ => return [.text " ON None"]

/-- The kind of a join as it is written before the word `JOIN`. -/
def joinKind (j : Join) : String :=
  match Join.filled? j.kind with
  | some kind => Text.upper (Text.trimmed kind) ++ " "
  | none => ""

/-- One join. -/
def joinClause (d : Dialect) (primary : TableRef) (j : Join) : Except Failure Statement := do
  let table ← j.tableRef
  return [.text (" " ++ joinKind j ++ "JOIN "), .table table] ++ (← matching d j primary)

/-- The table and its joins. -/
def fromClause (d : Dialect) (table : TableRef) (joins : List Join) : Except Failure Statement := do
  let joins ← joins.mapM (joinClause d table)
  return [.text "FROM ", .table table] ++ joins.flatten

/-- The last part of a column as it is written. -/
def lastPart (column : String) : String :=
  (Reference.pathParts column).getLast?.getD column

/-- The column is asked for: as it is written, by its alias or by its last part. -/
def isAskedFor (fields : List String) (column : String) : Bool :=
  fields.contains column || (Reference.splitAlias column).2.any fields.contains ||
    fields.contains (lastPart column)

/-- The columns of an expression, narrowed to the ones asked for. -/
def selected (e : Expression) (fields : Option (List String)) : List String :=
  match fields with
  | some fields => e.columns.filter (isAskedFor fields)
  | none => e.columns

/-- The name of the column in which a page carries the total. -/
def totalColumn : String := "_soar_total"

/-- The column in which a page carries the total. -/
def totalItem : Statement :=
  [.text "COUNT(*) OVER() AS ", .name totalColumn]

/-- The items of a selection; a page of an engine that counts over a window gets the total. -/
def items (engine : Engine) (columns : List String) (paged : Bool) : List Statement :=
  columns.map (fun c => [.column c]) ++
    (if paged && engine.countStrategy == .window then [totalItem] else [])

/-- The selection of some columns: where from, restricted how, with which trailing clause. -/
def selection (engine : Engine) (columns : List String) (paged : Bool)
    (source restriction extra : Statement) : Statement :=
  [.text "SELECT "] ++ commaSeparated (items engine columns paged) ++ [.text " "] ++ source ++
    restriction ++ extra

/-- The trailing clause of an expression, which has to be a text. -/
def extraClause (d : Dialect) (e : Expression) : Except Failure Statement :=
  match e.extra?, d.style with
  | none, _ => .ok []
  | some (.text clause), _ => .ok [.text " ", .raw clause]
  | some _, .format => .error .unsupportedValue
  | some _, _ => .error .wrongKind

/-- The selection of a request, paged or not; there is none without columns. -/
def select? (d : Dialect) (r : Request) (paged : Bool) : Except Failure (Option Statement) := do
  match selected r.expression r.fields with
  | [] => return none
  | columns =>
    let source ← fromClause d r.expression.table r.expression.joins
    let restriction ← whereClause r.expression.filter r.query r.expression.table
    let extra ← extraClause d r.expression
    return some (selection d.engine columns paged source restriction extra)

/-- The clause that cuts a page out of a list. -/
def limit (engine : Engine) (p : Page) : Except Failure String := do
  let size ← Integer.digits p.size
  let offset ← Integer.digits p.offset
  match engine with
  | .mysql => return "LIMIT " ++ offset ++ ", " ++ size
  | .postgres => return "LIMIT " ++ size ++ " OFFSET " ++ offset

/-- What rows are counted by: the first column if it is selected for its distinct values, else the
rows themselves. -/
def countTarget : Option String → Piece
  | none => .text "*"
  | some column =>
    let first := (Reference.splitAlias column).1
    if (Reference.afterDistinct? first).isSome then .column first else .text "*"

/-- The number of rows of a source. -/
def counting (target : Piece) (source restriction : Statement) : Statement :=
  [.text "SELECT COUNT(", target, .text ") AS ", .name "ct", .text " "] ++ source ++ restriction

/-- The number of rows that the list of a request has in all. -/
def count (d : Dialect) (r : Request) : Except Failure Statement := do
  let source ← fromClause d r.expression.table r.expression.joins
  let restriction ← whereClause r.expression.filter r.query r.expression.table
  return counting (countTarget r.expression.columns.head?) source restriction

end Statement

end TableOps
