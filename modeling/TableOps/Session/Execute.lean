import TableOps.Session.Registry
import TableOps.Statement.Sketch

/-!
# Running commands

A command is run end to end: its expression and database are found, missing columns and filters are
filled in from the schema of the table, the statement is composed and run, and what it yields is
shaped into the result of the operation.

* `Session.execute` — runs a command on its own connection, or on one of the pool;
  `Session.executeValue` runs the command that a value stands for.
* `Prepared` — a command with everything that running it takes.
* `Outcome` — the results of the operations.
-/

namespace TableOps

/-- The result of a command. -/
inductive Outcome where
  /-- The first row, if there is one. -/
  | row (row : Option Row)
  | rows (rows : List Row)
  /-- A page and the number of rows in all. -/
  | page (rows : List Row) (count : Int)
  /-- The primary key of an inserted row. -/
  | key (key : Entries Value)
  /-- The number of rows that were changed. -/
  | affected (count : Int)

/-! ## Prepared commands -/

/-- A command with everything that running it takes. -/
structure Prepared where
  /-- What is asked for; nothing, when no statement is known for it. -/
  kind : Option StatementKind
  data : Option (Entries Value)
  /-- There is something to write, be it unread. -/
  hasData : Bool
  query : Value
  isPaged : Bool
  debug : Bool
  schema : Option TableSchema
  /-- The statement of a kind, with the total in a column or without. -/
  statement : StatementKind → Bool → Except Failure (Option Statement)
  /-- The transformers of the expression by column. Unread ones fail where they are applied. -/
  transformers : Except Failure (Entries Value)
  cache : CacheId
  dialect : Dialect
  connection : Route
  /-- The functions that transformers refer to. -/
  functions : Functions

namespace Prepared

open Session

/-- A command with its request. -/
def ofRequest (c : Command) (r : Request) (cache : CacheId) (d : Dialect) (route : Route)
    (fs : Functions) : Prepared where
  kind := some (.of c.operation)
  data := c.data
  hasData := c.data.isSome
  query := .map c.query
  isPaged := c.page.isSome
  debug := c.debug
  schema := r.schema
  statement := fun kind withTotal => Statement.compose d kind withTotal r
  transformers := .ok r.expression.transformers
  cache := cache
  dialect := d
  connection := route
  functions := fs

/-- A command with unread parts. -/
def ofSketch (s : Sketch) (cache : CacheId) (d : Dialect) (route : Route) (fs : Functions) :
    Prepared where
  kind := s.command.kind?
  data := (s.command.member "data").map?
  hasData := !(s.command.member "data").isNull
  query := s.command.member "query"
  isPaged := s.command.isPaged
  debug := s.command.debug
  schema := s.schema
  statement := s.compose d
  transformers := s.transformers
  cache := cache
  dialect := d
  connection := route
  functions := fs

/-- The text and the values of a statement of the command. -/
def compose (p : Prepared) (kind : StatementKind) (withTotal : Bool) :
    SessionM (String × List Value) := do
  match ← SessionM.ofExcept (p.statement kind withTotal) with
  | none => throw .notComposable
  | some s =>
    let text := p.dialect.render s
    if p.debug then
      note .info .execution ("SQL: " ++ text ++ " -- params: " ++ (Value.list s.values).written)
    return (text, s.values)

/-- Composes the statement of a kind, remembers it and runs it. -/
def run (p : Prepared) (kind : StatementKind) (withTotal : Bool) : SessionM Result := do
  let (text, values) ← p.compose kind withTotal
  updateCache p.cache fun c => { c with statement := some text }
  p.connection.query text values

/-- The rows with the transformers of the expression applied. These are only looked at when there are
rows. -/
def transform (p : Prepared) (rows : List Row) : Except Failure (List Row) :=
  if rows.isEmpty then .ok []
  else do transformRows p.functions (← p.transformers) rows

/-- The rows with the transformers of the expression applied. -/
def transformed (p : Prepared) (rows : List Row) : SessionM (List Row) :=
  SessionM.ofExcept (p.transform rows)

/-- The number of rows in all, from a statement of its own. -/
def countRows (p : Prepared) : SessionM Int := do
  let (text, values) ← p.compose .total true
  match (← p.connection.query text values).rows with
  | [] => throw .noRow
  | [] :: _ => throw .emptyRow
  | ((_, v) :: _) :: _ => SessionM.ofExcept v.toWhole

/-- The rows of a page and the number of rows in all, which is counted unless it is remembered. -/
def countedRows (p : Prepared) (remembered : Option Int) (rows : List Row) :
    SessionM (List Row × Int) := do
  match remembered with
  | some count => return (rows, count)
  | none =>
    let (rows, embedded) ← SessionM.ofExcept (p.dialect.engine.stripTotal rows)
    let count ← match embedded with
      | some count => pure count
      | none => p.countRows
    updateCache p.cache fun c => c.store p.query count
    return (rows, count)

/-- Runs a paged list. -/
def page (p : Prepared) : SessionM Outcome := do
  let remembered := ((← get).cache p.cache).countFor p.query
  let result ← p.run (.of .list) remembered.isNone
  let (rows, count) ← p.countedRows remembered result.rows
  return .page (← p.transformed rows) count

/-- An insert or update has to have data. -/
def requireData (p : Prepared) (op : Operation) : SessionM Unit :=
  if p.hasData then pure () else throw (.malformed (.missingData op.name))

/-- Runs an operation and shapes its result. -/
def runOperation (p : Prepared) : Operation → SessionM Outcome
  | .query => do
    return .row (← p.transformed ((← p.run (.of .query) true).rows.take 1)).head?
  | .list => do
    if p.isPaged then p.page
    else return .rows (← p.transformed (← p.run (.of .list) true).rows)
  | .insert => do
    p.requireData .insert
    let result ← p.run (.of .insert) true
    return .key (result.insertedKeys (p.data.getD [])
      ((p.schema.map TableSchema.primaryKey).getD []))
  | .update => do
    p.requireData .update
    return .affected (← p.run (.of .update) true).rowCount
  | .delete => do
    return .affected (← p.run (.of .delete) true).rowCount

/-- Runs what is asked for and shapes its result. -/
def outcome (p : Prepared) : SessionM Outcome := do
  match p.kind with
  | some (.of op) => p.runOperation op
  | some .total => return .affected (← p.run .total true).rowCount
  | none => throw .notComposable

end Prepared

namespace Session

/-- The expression of a command, the total remembered for it and the database it runs on. -/
def resolve (t : Target) : SessionM (SharedExpression × DatabaseId) := do
  match t with
  | .given e =>
    let cache ← SessionM.lift addCache
    return (⟨.ofExpression e, cache⟩, ← lookup e.databaseName)
  | .shared id =>
    match (← get).shared? id with
    | some e => return (e, ← lookup (← SessionM.ofExcept e.databaseName))
    | none => throw .noSuchMember
  | .stored reference =>
    let (name, path) := Reference.splitStoredPath reference
    let d ← lookup name
    match (← d.read).stored with
    | none => throw (.malformed (.noStoredExpressions (← d.read).name))
    | some store =>
      match (← get).shared? (← SessionM.ofExcept (Stored.find store path)) with
      | some e => return (e, d)
      | none => throw .noSuchMember

/-- The schema of a command's table: the given one, or that of the database if it is needed. -/
def schemaFor (given : Option TableSchema) (needed : Dialect → Bool)
    (table : Except Failure TableRef) (d : DatabaseId) (r : Route) :
    SessionM (Option TableSchema) := do
  match given with
  | some schema => return some schema
  | none =>
    if needed (← d.read).dialect then
      some <$> d.tableSchema (← SessionM.ofExcept table).name r
    else return none

/-- Runs a command with an expression on a connection. -/
def executeOn (c : Command) (e : Expression) (cache : CacheId) (d : DatabaseId) (r : Route) :
    SessionM Outcome := do
  let schema ← schemaFor c.schema (needsSchema · c e) (.ok e.table) d r
  let e ← SessionM.ofExcept (match schema with
    | some schema => autoFill c e schema
    | none => .ok e)
  let request := { c.request e with schema := schema }
  let s ← get
  Prepared.outcome (.ofRequest c request cache (s.database d).dialect r s.functions)

/-- Runs a command with unread parts on a connection. -/
def executeSketch (s : Sketch) (cache : CacheId) (d : DatabaseId) (r : Route) :
    SessionM Outcome := do
  let given ← SessionM.ofExcept s.command.schema
  let schema ← schemaFor given s.needsSchema s.draft.table d r
  let draft ← SessionM.ofExcept (match schema with
    | some schema => s.fill schema
    | none => .ok s.draft)
  let sketch : Sketch := { s with draft := draft, schema := schema }
  let s ← get
  Prepared.outcome (.ofSketch sketch cache (s.database d).dialect r s.functions)

/-- A call on the route of a command. A connection that is taken for it is given back in any
case. -/
def onRoute {α : Type} (d : DatabaseId) (r : Route) (call : Route → SessionM α) : SessionM α := do
  match r with
  | .pool => (← d.connect).use fun c => call (.own c)
  | r => call r

/-- The log text of a command. -/
def commandText (operation name plain : String) : String :=
  operation ++ " on `" ++ name ++ "`: " ++ plain

/-- Notes a command and forgets the total remembered for its expression, as it asks for. -/
def announce (p : Patched) (x : Draft) (cache : CacheId) (d : DatabaseId) : SessionM Unit := do
  if p.debug then
    let plain ← SessionM.ofExcept x.plain
    note .info .execution
      (commandText (p.member "operation").plainText (← d.read).name plain.written)
  if p.refresh then
    SessionM.lift (updateCache cache CountCache.invalidate)

/-- Runs a command whose members may have been replaced. -/
def executePatched (p : Patched) : SessionM Outcome := do
  let (shared, d) ← resolve (← SessionM.ofExcept p.target)
  announce p shared.toDraft shared.cache d
  onRoute d (.ofValue (p.member "connection")) fun r =>
    if p.unread.isEmpty && shared.unread.isEmpty then
      executeOn p.command shared.expression shared.cache d r
    else executeSketch ⟨shared.toDraft, p, none⟩ shared.cache d r

/-- Runs a command. -/
def execute (c : Command) : SessionM Outcome :=
  executePatched (.ofCommand c)

/-- The overriding members that a command itself is looked up under. -/
def requireOverrides (overrides : Entries Value) : Except Failure Unit :=
  if overrides.has "command" || overrides.has "value" then .error .wrongKind else .ok ()

/-- There is no other registry that commands could run on. -/
def requireRegistry (overrides : Entries Value) : Except Failure Unit :=
  if ((overrides.get? "registry").getD .null).isNull then .ok () else .error .unsupportedValue

/-- Runs the command that a value stands for, with some members overridden. -/
def executeValue (v : Value) (overrides : Entries Value) : SessionM Outcome := do
  SessionM.ofExcept (requireOverrides overrides)
  let c ← SessionM.ofExcept (Command.ofValue v (overrides.erase "registry"))
  SessionM.ofExcept (requireRegistry overrides)
  execute c

/-- Runs a command with members replaced, which are not checked. -/
def executeWith (c : Command) (overrides : Entries Value) : SessionM Outcome := do
  SessionM.ofExcept (requireOverrides overrides)
  let p ← SessionM.ofExcept (c.override (overrides.erase "registry"))
  SessionM.ofExcept (requireRegistry overrides)
  executePatched p

end Session

end TableOps
