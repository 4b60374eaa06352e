import TableOps.Introspection
import TableOps.Session.Connection
import TableOps.Url.Location

/-!
# Databases

A database hands out connections and remembers the schemas of its tables.

* `Database.ofUrl`, `Database.ofFactory` — a database from a URL or from a factory.
* `DatabaseId.connect`, `DatabaseId.closeDown` — its connections.
* `DatabaseId.tableSchema`, `DatabaseId.invalidate` — its cached schemas.
* `Dialect.describe` — the schema of a table as the engine reports it.
-/

namespace TableOps

/-- What may be said about a database besides where it is. -/
structure DatabaseOptions where
  name : Option String
  dialect : Option Dialect
  poolSize : Int
  style : Value
  stored : Option (Entries ExpressionId)

namespace Database

/-- A database without connections and schemas. -/
def fresh (name : Option String) (dialect : Dialect) (origin : Origin) (o : DatabaseOptions) :
    Database :=
  ⟨(Join.filled? name).getD "default", dialect, origin, o.poolSize, [], [], false, o.stored⟩

/-- The database of a URL. The scheme chooses the dialect unless one is given, and the path names
the database unless a name is given. -/
def ofUrl (url : String) (o : DatabaseOptions) : Except Failure Database := do
  let parts ← Url.split url
  let dialect ← match o.dialect with
    | some d => .ok d
    | none => Dialect.ofScheme parts.scheme o.style
  return fresh ((Join.filled? o.name).or parts.pathName) dialect (.url url) o

/-- The database of a factory, which needs a dialect. -/
def ofFactory (o : DatabaseOptions) : Except Failure Database :=
  match o.dialect with
  | some d => .ok (fresh o.name d .factory o)
  | none => .error (.configuration .noDialect)

/-- The name and the engine of a database. -/
def label (d : Database) : String :=
  "<Database " ++ Text.written d.name ++ " (" ++ d.dialect.engine.name ++ ")>"

end Database

/-- Opens a driver connection to the database of a URL. -/
def Engine.openUrl (engine : Engine) (url : String) : SessionM RawId := do
  let l ← SessionM.ofExcept (Location.ofUrl url)
  SessionM.lift (Session.openRaw (some (engine.connectArguments l)))

/-- The schema of a table as the engine reports it; a table without columns does not exist. The
name of the table is bound where the engine allows it, and is a text where it is quoted. -/
def Dialect.describe (d : Dialect) (c : ConnectionId) (table : Value) : SessionM TableSchema := do
  let mark := d.placeholder 1
  let missing : Failure := .schema (.noSuchTable table.plainText)
  match d.engine with
  | .mysql =>
    let name ← SessionM.ofExcept table.toText
    let columns ← c.query (Mysql.columnsStatement name) []
    if columns.rows.isEmpty then throw missing
    let keys ← c.query (Mysql.keysStatement name) []
    let status ← c.query (Mysql.statusStatement mark) [table]
    SessionM.ofExcept (Mysql.schemaOf table columns.rows keys.rows status.rows)
  | .postgres =>
    let columns ← c.query (Postgres.columnsStatement mark) [table]
    if columns.rows.isEmpty then throw missing
    let keys ← c.query (Postgres.keysStatement mark) [table]
    SessionM.ofExcept (Postgres.schemaOf table columns.rows keys.rows)

namespace DatabaseId

open Session

/-- The database as it stands. -/
def read (id : DatabaseId) : StateM Session Database := do
  return (← get).database id

/-- Opens a driver connection. -/
def openRaw (id : DatabaseId) : SessionM RawId := do
  let d ← id.read
  note .debug .database ("Opening a new connection to `" ++ d.name ++ "`")
  match d.origin with
  | .url text => d.dialect.engine.openUrl text
  | .factory => SessionM.lift (Session.openRaw none)

/-- Takes an idle driver connection, or opens one. -/
def takeRaw (id : DatabaseId) : SessionM RawId := do
  match (← id.read).idle with
  | raw :: rest =>
    updateDatabase id fun d => { d with idle := rest }
    return raw
  | [] => id.openRaw

/-- Takes a connection. -/
def connect (id : DatabaseId) : SessionM ConnectionId := do
  let d ← id.read
  if d.closed then throw (.configuration (.closedDown d.name))
  let raw ← id.takeRaw
  SessionM.lift (addConnection ⟨raw, some id, 0, false⟩)

/-- Closes every idle connection; those in use are closed when they are given back. -/
def closeDown (id : DatabaseId) : StateM Session Unit := do
  let d ← id.read
  updateDatabase id fun d => { d with closed := true, idle := [] }
  d.idle.forM fun raw => emit (.closed raw)
  note .info .database ("Database `" ++ d.name ++ "` closed down")

/-- A call on the caller's connection, or on one that is taken for it and given back. -/
def withConnection {α : Type} (id : DatabaseId) (r : Route)
    (call : ConnectionId → SessionM α) : SessionM α := do
  match r with
  | .own c => call c
  | .pool => (← id.connect).use call
  | .unusable _ => throw .unsupportedValue

/-- Remembers the schema of a table. -/
def remember (id : DatabaseId) (table : String) (schema : TableSchema) : StateM Session Unit :=
  updateDatabase id fun d => { d with schemas := d.schemas.put table schema }

/-- The schema of a table as the engine reports it now. A value that is no connection and does not
count as present is passed over; the connection taken in its place is not given back. -/
def describe (id : DatabaseId) (table : Value) (r : Route) : SessionM TableSchema := do
  let dialect := (← id.read).dialect
  match r with
  | .unusable false => dialect.describe (← id.connect) table
  | r => id.withConnection r fun c => dialect.describe c table

/-- The schema of a table, asked for once and then remembered. A schema that cannot be had leaves
nothing behind. -/
def tableSchema (id : DatabaseId) (table : String) (r : Route) : SessionM TableSchema := do
  let name := (← SessionM.ofExcept (TableRef.parse table)).name
  match (← id.read).schemas.get? name with
  | some schema => return schema
  | none =>
    let schema ← id.describe (.text name) r
    id.remember name schema
    return schema

/-- Forgets the schema of a table, or those of all tables. -/
def invalidate (id : DatabaseId) (table : Option String) : SessionM Unit := do
  match table with
  | none => SessionM.lift (updateDatabase id fun d => { d with schemas := [] })
  | some table =>
    let name := (← SessionM.ofExcept (TableRef.parse table)).name
    SessionM.lift (updateDatabase id fun d => { d with schemas := d.schemas.erase name })

end DatabaseId

end TableOps
