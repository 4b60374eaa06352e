import TableOps.Command.Patched
import TableOps.Expression.Draft
import TableOps.Result
import TableOps.Statement.Compose
import TableOps.Statement.Fill
import TableOps.Value.Membership

/-!
# Sketches of statements

A command and an expression may have unread parts. A sketch is a request of that kind: each part is
read when a statement comes to need it, and what cannot be used then fails.

* `Sketch` — the request; `Sketch.needsSchema`, `Sketch.fill` fill it in from the schema.
* `Sketch.compose` — its statements.
* `Sketch.transformers` — the transformers that are applied to rows.
-/

namespace TableOps

/-- What a patched command asks for; nothing, when no operation has that name. -/
def Patched.kind? (p : Patched) : Option StatementKind :=
  match p.unread.get? "operation" with
  | some name => name.text?.bind StatementKind.ofName?
  | none => some (.of p.command.operation)

/-- A request with unread parts. -/
structure Sketch where
  draft : Draft
  command : Patched
  schema : Option TableSchema

namespace Sketch

/-! ## Filling in from the schema -/

/-- The schema of the table is needed. -/
def needsSchema (s : Sketch) (d : Dialect) : Bool :=
  d.engine.requiresSchema || s.command.kind? == some (.of .insert) ||
    (!s.draft.hasColumns && s.command.kind? != some (.of .delete)) ||
    (!s.draft.hasFilter && (s.command.member "query").truthy)

/-- The texts among the items of a value; a value that does not count as present has none. -/
def keysOf (v : Value) : Except Failure (List String) :=
  if v.truthy then do return (← v.itemsOf).filterMap Value.text? else .ok []

/-- The columns that a schema supplies when there are none. -/
def suppliedColumns (s : Sketch) (columns : List String) : Except Failure (Option (List String)) :=
  if s.draft.hasColumns then .ok none
  else
    match s.command.kind? with
    | some (.of .query) | some (.of .list) => .ok (some columns)
    | some (.of .insert) => supplied .insert
    | some (.of .update) => supplied .update
    | _ => .ok none
where
  /-- The columns of a write. -/
  supplied (op : Operation) : Except Failure (Option (List String)) := do
    let keys ← keysOf (s.command.member "data")
    return some (← writableKeys (← s.draft.table) op columns keys)

/-- The filter that a schema supplies when there is none. -/
def suppliedFilter (s : Sketch) (columns : List String) : Except Failure (Option Filter) :=
  if s.draft.hasFilter then .ok none
  else do return comparisons columns (← keysOf (s.command.member "query"))

/-- The draft of a sketch with the columns and the filter that a schema supplies. -/
def fill (s : Sketch) (schema : TableSchema) : Except Failure Draft := do
  match ← s.suppliedColumns schema.columnNames, ← s.suppliedFilter schema.columnNames with
  | none, none => return s.draft
  | columns, filter =>
    let changes := (columns.map fun names => ("columns", Value.ofTexts names)).toList
    let draft ← s.draft.derive (.map changes)
    return (filter.map draft.withFilter).getD draft

/-! ## Reading -/

/-- The column is asked for: as it is written, by its alias or by its last part. -/
def isAskedFor (fields column : Value) : Except Failure Bool := do
  if ← fields.holds column then return true
  let c ← column.toText
  if ← fields.holds (.ofText? (Reference.splitAlias c).2) then return true
  fields.holds (.text (Statement.lastPart c))

/-- The columns, narrowed to the ones asked for. -/
def selected (s : Sketch) : Except Failure (List String) := do
  let columns ← s.draft.columns
  let kept ← match s.command.member "fields" with
    | .null => pure columns
    | fields => columns.filterM (isAskedFor fields)
  kept.mapM Value.toText

/-- The table and its joins. -/
def source (s : Sketch) (d : Dialect) : Except Failure Statement := do
  Statement.fromClause d (← s.draft.table) (← s.draft.joins)

/-- The query values for the leaves of a filter. A query that is no mapping has none, and cannot
hold the column of a leaf. -/
def queryFor (filter : Option Filter) : Value → Except Failure (Entries Value)
  | .map query => .ok query
  | other => do
    if ← ((filter.map Filter.columns).getD []).anyM fun c => other.holds (.text c) then
      throw .wrongKind
    return []

/-- The clause that restricts a read. -/
def restriction (s : Sketch) : Except Failure Statement := do
  let filter ← s.draft.filter
  Statement.whereClause filter (← queryFor filter (s.command.member "query")) (← s.draft.table)

/-- The selection, paged or not; there is none without columns. -/
def select? (s : Sketch) (d : Dialect) (paged : Bool) : Except Failure (Option Statement) := do
  match ← s.selected with
  | [] => return none
  | columns =>
    let source ← s.source d
    let restriction ← s.restriction
    let extra ← Statement.extraClause d s.draft.expression
    return some (Statement.selection d.engine columns paged source restriction extra)

/-- The number of rows of a list. -/
def count (s : Sketch) (d : Dialect) : Except Failure Statement := do
  let first ← (← s.draft.firstColumn?).mapM Value.toText
  let source ← s.source d
  return Statement.counting (Statement.countTarget first) source (← s.restriction)

/-- The clause that cuts a page out of a list; an unread page has no bounds. -/
def limit (s : Sketch) (engine : Engine) : Except Failure Statement := do
  match ← s.command.unread.readAs "range" s.command.command.page with
  | some page => return [.text (" " ++ (← Statement.limit engine page))]
  | none => return []

/-! ## Writing -/

/-- The columns of the primary table that the data holds. -/
def ownColumnsIn (table : TableRef) (joined : Bool) (data : Value) :
    List Value → Except Failure (List String)
  | [] => .ok []
  | column :: rest => do
    let own := Statement.ownColumn? table joined (← column.toText)
    let held ← own.toList.filterM fun c => data.holds (.text c)
    return held ++ (← ownColumnsIn table joined data rest)

/-- The columns that are written, each once, and their values. -/
def written (s : Sketch) (table : TableRef) (op : Operation) :
    Except Failure (List String × Entries Value) := do
  let data := s.command.member "data"
  let data := if data.truthy then data else .map []
  let columns ← ownColumnsIn table s.draft.hasJoins data (← s.draft.columns)
  let columns ← Statement.requireWritable table op columns.eraseDups
  match data with
  | .map members => return (columns, members)
  | _ => throw .wrongKind

/-- The filter and the query values of a write. -/
def target (s : Sketch) (table : TableRef) : Except Failure (Option Filter × Entries Value) := do
  let filter ← s.draft.filter
  match s.command.member "query" with
  | .map query => return (filter, ← Statement.writeQuery table filter query)
  | _ => throw .unsupportedValue

/-- The insert of a row. -/
def insert (s : Sketch) (d : Dialect) : Except Failure Statement := do
  let table ← s.draft.table
  let (columns, data) ← s.written table .insert
  return Statement.inserting d.engine table columns data s.schema

/-- The update of the rows that match. -/
def update (s : Sketch) : Except Failure Statement := do
  let table ← s.draft.table
  let (filter, query) ← s.target table
  let (columns, data) ← s.written table .update
  return Statement.updating table columns data (← Statement.restriction table filter query)

/-- The deletion of the rows that match. -/
def delete (s : Sketch) : Except Failure Statement := do
  let table ← s.draft.table
  let (filter, query) ← s.target table
  return Statement.deleting table (← Statement.restriction table filter query)

/-! ## Statements and rows -/

/-- The statement of a sketch. -/
def compose (s : Sketch) (d : Dialect) (kind : StatementKind) (withTotal : Bool) :
    Except Failure (Option Statement) :=
  match kind with
  | .of .query => do return (← s.select? d false).map (· ++ [.text " LIMIT 1"])
  | .of .list => do
    match ← s.select? d (s.command.isPaged && withTotal) with
    | some selection => return some (selection ++ (← s.limit d.engine))
    | none => return none
  | .total => some <$> s.count d
  | .of .insert => some <$> s.insert d
  | .of .update => some <$> s.update
  | .of .delete => some <$> s.delete

/-- The transformers by column. Unread ones that do not count as present are none. -/
def transformers (s : Sketch) : Except Failure (Entries Value) :=
  if s.draft.unread.shows "transformers" true then s.draft.transformers else .ok []

end Sketch

end TableOps
