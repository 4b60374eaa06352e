import TableOps.Filter.Conditions
import TableOps.Session.Execute

/-!
# Commands on a table and plain conditions

Short forms of commands, for a table named by text and conditions that map columns to values.

* `Session.queryTable`, `Session.listTable`, `Session.insertInto`, `Session.updateTable`,
  `Session.deleteFrom` — the operations.
* `Session.runStatement` — runs a statement as it stands.
-/

namespace TableOps

namespace Session

/-- An expression on a table restricted by conditions, and the query values of these. -/
def conditioned (table conditions : Value) : Except Failure (Expression × Entries Value) := do
  let e ← Expression.on table
  match (Filter.ofConditions (.text "and") conditions).run.run [] with
  | (.ok f, query) => return ({ e with filter := f }, query)
  | (.error f, _) => throw f

/-- Runs an operation on an expression, with members of the command beside it; none of them may be
overridden. -/
def runOn (op : Operation) (e : Expression) (members overrides : Entries Value) :
    SessionM Outcome := do
  if overrides.any fun (name, _) => members.has name then throw .wrongKind
  let id ← SessionM.lift (share e)
  executeValue (.map [(op.name, .expression id)]) (members ++ overrides)

/-- The first row that meets the conditions. -/
def queryTable (table conditions : Value) (overrides : Entries Value) : SessionM Outcome := do
  let (e, query) ← SessionM.ofExcept (conditioned table conditions)
  runOn .query e [("query", .map query)] overrides

/-- The rows that meet the conditions, or a page of them. -/
def listTable (table conditions range : Value) (overrides : Entries Value) :
    SessionM Outcome := do
  let (e, query) ← SessionM.ofExcept (conditioned table conditions)
  runOn .list e [("query", .map query), ("range", range)] overrides

/-- Inserts one row. -/
def insertInto (table data : Value) (overrides : Entries Value) : SessionM Outcome := do
  let e ← SessionM.ofExcept (Expression.on table)
  runOn .insert e [("data", data)] overrides

/-- Updates the rows that meet the conditions. -/
def updateTable (table data conditions : Value) (overrides : Entries Value) :
    SessionM Outcome := do
  let (e, query) ← SessionM.ofExcept (conditioned table conditions)
  runOn .update e [("data", data), ("query", .map query)] overrides

/-- Deletes the rows that meet the conditions; without conditions all rows go. -/
def deleteFrom (table conditions : Value) (overrides : Entries Value) : SessionM Outcome := do
  let (e, query) ← SessionM.ofExcept (conditioned table conditions)
  runOn .delete e [("query", .map query)] overrides

/-- Runs a statement as it stands, with the driver's own placeholders, on the caller's connection
or on one of a database that is registered. -/
def runStatement (statement values database : Value) (r : Route) (registry : Value) :
    SessionM Result := do
  match r with
  | .own c => c.queryWith statement values
  | .unusable _ => throw .unsupportedValue
  | .pool =>
    if !registry.isNull then throw .unsupportedValue
    (← (← lookupValue database).connect).use fun c => c.queryWith statement values

end Session

end TableOps
