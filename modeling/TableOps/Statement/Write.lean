import TableOps.Command.Basic
import TableOps.Filter.Restriction
import TableOps.Statement.Where

/-!
# Statements that write

A write touches the primary table of an expression only: columns of joined tables are not written
and their comparisons are dropped.

* `Statement.writable` — the columns of an expression that are written.
* `Statement.restrictQuery` — the query values of a write; columns of other tables are refused.
* `Statement.insert`, `Statement.update`, `Statement.delete` — the three writes.
-/

namespace TableOps

namespace Statement

/-- The column of the primary table that a reference writes, if it names one. Where tables are
joined a reference may name a column of another one. -/
def ownColumn? (table : TableRef) (joined : Bool) (ref : String) : Option String :=
  let (qualifier, column) := Reference.splitQualifier (Reference.splitAlias ref).1
  if joined && !table.owns qualifier then none
  else if Reference.isIdentifier column then some column
  else none

/-- The columns of the primary table that an expression names. -/
def ownColumns (e : Expression) : List String :=
  e.columns.filterMap (ownColumn? e.table (!e.joins.isEmpty))

/-- The columns the data has values for, each once, in order; `seen` holds the ones before. -/
def writableFrom (data : Entries Value) (seen : List String) : List String → List String
  | [] => []
  | c :: rest =>
    if data.has c && !seen.contains c then c :: writableFrom data (c :: seen) rest
    else writableFrom data seen rest

/-- The columns of an expression that a write of `data` writes. -/
def writable (e : Expression) (data : Entries Value) : List String :=
  writableFrom data [] (ownColumns e)

/-- The value the data has for a column. -/
def valueOf (data : Entries Value) (column : String) : Value :=
  (data.get? column).getD .null

/-- The query values of a write to `table`: its own columns lose their qualifiers, and a column of
another table is refused when one of the `used` leaves looks it up. -/
def restrictQuery (table : TableRef) (used : List String) :
    List (String × Value) → Except Failure (Entries Value)
  | [] => .ok []
  | (key, v) :: rest =>
    match v.columnRef? with
    | none => (restrictQuery table used rest).map ((key, v) :: ·)
    | some ref =>
      let (qualifier, column) := Reference.splitQualifier ref
      if table.owns qualifier then
        (restrictQuery table used rest).map ((key, .column column) :: ·)
      else if used.contains key then
        .error (.malformed (.foreignColumn ref table.name key))
      else (restrictQuery table used rest).map ((key, v) :: ·)

/-- The clause that restricts a write to the rows of the primary table. -/
def restriction (table : TableRef) (filter : Option Filter) (query : Entries Value) :
    Except Failure Statement :=
  whereClause (filter.bind (Filter.restrict? table)) query (.ofName table.name)

/-- The query values of a write, checked against the comparisons that remain. -/
def writeQuery (table : TableRef) (filter : Option Filter) (query : Entries Value) :
    Except Failure (Entries Value) :=
  let used := ((filter.bind (Filter.restrict? table)).map Filter.columns).getD []
  restrictQuery table used query

/-- The columns of a write, of which there has to be one. -/
def requireWritable (table : TableRef) (operation : Operation) :
    List String → Except Failure (List String)
  | [] => .error (.noWritableColumns table.name operation.name)
  | columns => .ok columns

/-- The clause by which an insert returns its key, on an engine where it does. -/
def returning (engine : Engine) (schema : Option TableSchema) : Statement :=
  match engine, schema.map TableSchema.primaryKey with
  | .postgres, some (key :: keys) => .text " RETURNING " :: nameList (key :: keys)
  | _, _ => []

/-- The insert of a row with some columns. -/
def inserting (engine : Engine) (table : TableRef) (columns : List String) (data : Entries Value)
    (schema : Option TableSchema) : Statement :=
  [.text "INSERT INTO ", .name table.name, .text " ("] ++ nameList columns ++
    [.text ") VALUES ("] ++ commaSeparated (columns.map fun c => [.value (valueOf data c)]) ++
    [.text ")"] ++ returning engine schema

/-- One assignment of an update. -/
def assignment (data : Entries Value) (column : String) : Statement :=
  [.name column, .text " = ", .value (valueOf data column)]

/-- The update of some columns of the rows that a clause restricts it to. -/
def updating (table : TableRef) (columns : List String) (data : Entries Value)
    (restriction : Statement) : Statement :=
  [.text "UPDATE ", .name table.name, .text " SET "] ++
    commaSeparated (columns.map (assignment data)) ++ restriction

/-- The deletion of the rows that a clause restricts it to. -/
def deleting (table : TableRef) (restriction : Statement) : Statement :=
  [.text "DELETE FROM ", .name table.name] ++ restriction

/-- The insert of a row. -/
def insert (d : Dialect) (r : Request) : Except Failure Statement := do
  let e := r.expression
  let data := r.data.getD []
  let columns ← requireWritable e.table .insert (writable e data)
  return inserting d.engine e.table columns data r.schema

/-- The update of the rows that match. -/
def update (r : Request) : Except Failure Statement := do
  let e := r.expression
  let query ← writeQuery e.table e.filter r.query
  let data := r.data.getD []
  let columns ← requireWritable e.table .update (writable e data)
  return updating e.table columns data (← restriction e.table e.filter query)

/-- The deletion of the rows that match. -/
def delete (r : Request) : Except Failure Statement := do
  let e := r.expression
  let query ← writeQuery e.table e.filter r.query
  return deleting e.table (← restriction e.table e.filter query)

end Statement

end TableOps
