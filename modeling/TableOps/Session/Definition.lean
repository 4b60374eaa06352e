import TableOps.Definition.Change
import TableOps.Definition.Table
import TableOps.Session.Registry

/-!
# Managing tables

Creating, changing, dropping, renaming and describing tables. Every call runs on the caller's
connection or on one of the pool, and forgets the cached schema of the table it changes.
-/

namespace TableOps

namespace Session

/-- Creates a table. -/
def createTable (schema : TableSchema) (d : DatabaseId) (r : Route) : SessionM Unit := do
  let text ← SessionM.ofExcept ((← d.read).dialect.engine.createTable schema)
  note .info .definition ("CREATE TABLE " ++ schema.title)
  let _ ← d.withConnection r fun c => c.query text []
  d.invalidate (some schema.title)

/-- Runs statements in order. -/
def queryAll (c : ConnectionId) : List String → SessionM Unit
  | [] => return ()
  | text :: rest => do
    let _ ← c.query text []
    queryAll c rest

/-- Changes a table. A value that is no connection does no harm while nothing is to be run on
it. -/
def alterTable (change : TableChange) (d : DatabaseId) (r : Route) : SessionM Unit := do
  let statements ← SessionM.ofExcept ((← d.read).dialect.engine.alterTable change)
  note .info .definition ("ALTER TABLE " ++ change.title ++ " (" ++
    toString statements.length ++ " statements)")
  match r, statements with
  | .unusable _, [] => pure ()
  | r, statements => d.withConnection r fun c => queryAll c statements
  d.invalidate (some change.title)

/-- Drops a table, which is named by a text. -/
def deleteTable (table : Value) (d : DatabaseId) (r : Route) : SessionM Unit := do
  note .info .definition ("DROP TABLE " ++ table.plainText)
  let engine := (← d.read).dialect.engine
  let name ← d.withConnection r fun c => do
    let name ← SessionM.ofExcept table.toText
    let _ ← c.query (engine.dropTable name) []
    return name
  d.invalidate (some name)

/-- Renames a table; both names are texts. -/
def renameTable (old new : Value) (d : DatabaseId) (r : Route) : SessionM Unit := do
  note .info .definition ("RENAME TABLE " ++ old.plainText ++ " TO " ++ new.plainText)
  let engine := (← d.read).dialect.engine
  let (old, new) ← d.withConnection r fun c => do
    let old ← SessionM.ofExcept old.toText
    let new ← SessionM.ofExcept new.toText
    let _ ← c.query (engine.renameTable old new) []
    return (old, new)
  d.invalidate (some old)
  d.invalidate (some new)

/-- The schema of a table as it is now, which is remembered under its title. -/
def describeTable (table : Value) (d : DatabaseId) (r : Route) : SessionM TableSchema := do
  let dialect := (← d.read).dialect
  let schema ← d.withConnection r fun c => dialect.describe c table
  d.remember schema.title schema
  return schema

end Session

end TableOps
