import TableOps.Session.State
import TableOps.Value.Mapping
import TableOps.Value.Written

/-!
# Connections

A connection runs statements and nests transactions. A statement outside a transaction is
committed at once. The first transaction of a connection is the driver's own; those inside it are
savepoints named after their level.

* `ConnectionId.query` — runs one statement.
* `ConnectionId.begin`, `ConnectionId.commit`, `ConnectionId.rollback` — the transactions.
* `ConnectionId.release`, `ConnectionId.close` — gives the connection back, or closes it.
* `Route` — the connection that a call is to run on.
-/

namespace TableOps

/-- Takes a driver connection back into the pool of a database, or closes it when the pool is full
or closed down. -/
def DatabaseId.takeBack (id : DatabaseId) (raw : RawId) : StateM Session Unit := do
  let d := (← get).database id
  if !d.closed ∧ (d.idle.length : Int) < d.poolSize then
    Session.updateDatabase id fun d => { d with idle := raw :: d.idle }
  else Session.emit (.closed raw)

namespace ConnectionId

open Session

/-- The connection as it stands. -/
def read (c : ConnectionId) : StateM Session Connection := do
  return (← get).connection c

/-- A transaction is in progress. -/
def inTransaction (c : ConnectionId) : StateM Session Bool := do
  return 0 < (← c.read).level

/-- Sends a statement to the driver of a connection that is not released. -/
def execute (c : ConnectionId) (statement : Value) (values : List Value) : SessionM Result := do
  let connection ← c.read
  if connection.released then throw (.transaction .released)
  note .debug .connection
    ("SQL: " ++ statement.plainText ++ " -- params: " ++ (Value.list values).written)
  emit (.executed connection.raw statement values)
  match ← nextReply with
  | .refused reason => throw (.driver reason)
  | .done columns rows rowCount lastInsertId =>
    SessionM.ofExcept (Result.ofReport columns rows rowCount lastInsertId)

/-- Rolls the driver connection back, unless the connection has been released. -/
def rollbackHeld (c : ConnectionId) : StateM Session Unit := do
  let connection ← c.read
  if !connection.released then emit (.rolledBack connection.raw)

/-- Runs what is given as a statement. Outside a transaction it is committed, or rolled back when it
fails. -/
def queryRaw (c : ConnectionId) (statement : Value) (values : List Value) : SessionM Result := do
  if ← c.inTransaction then c.execute statement values
  else
    let r ← (c.execute statement values).onError c.rollbackHeld
    emit (.committed (← c.read).raw)
    return r

/-- Runs one statement. -/
def query (c : ConnectionId) (statement : String) (values : List Value) : SessionM Result :=
  c.queryRaw (.text statement) values

/-- The name of the savepoint of a level. -/
def savepoint (level : Nat) : String :=
  "savepoint_" ++ toString level

/-- A log text about a level. -/
def levelText (word : String) (level : Nat) : String :=
  word ++ " (level " ++ toString level ++ ")"

/-- Begins a transaction; inside another one it is a savepoint. -/
def begin (c : ConnectionId) : SessionM Unit := do
  updateConnection c fun x => { x with level := x.level + 1 }
  let level := (← c.read).level
  if 1 < level then
    let _ ← c.execute (.text ("SAVEPOINT " ++ savepoint level)) []
  note .debug .connection (levelText "BEGIN" level)

/-- Ends the innermost transaction: an outer one by ending that of the driver connection, a savepoint
by a statement that starts with `verb`. -/
def finishWith (c : ConnectionId) (word verb : String) (ending : RawId → SessionM Unit) :
    SessionM Unit := do
  let connection ← c.read
  let level := connection.level
  if level = 0 then throw (.transaction .noneInProgress)
  if 1 < level then
    let _ ← c.execute (.text (verb ++ " SAVEPOINT " ++ savepoint level)) []
  else ending connection.raw
  note .debug .connection (levelText word level)
  updateConnection c fun x => { x with level := x.level - 1 }

/-- Ends the innermost transaction, an outer one by an event of the driver. -/
def finish (c : ConnectionId) (word verb : String) (event : RawId → Event) : SessionM Unit :=
  c.finishWith word verb fun raw => emit (event raw)

/-- Commits the innermost transaction. -/
def commit (c : ConnectionId) : SessionM Unit :=
  c.finish "COMMIT" "RELEASE" .committed

/-- Rolls the innermost transaction back. -/
def rollback (c : ConnectionId) : SessionM Unit :=
  c.finish "ROLLBACK" "ROLLBACK TO" .rolledBack

/-- Ends an open transaction before a connection is given back. -/
def abandon (c : ConnectionId) : StateM Session Unit := do
  if ← c.inTransaction then
    note .warning .connection "Releasing a connection with an open transaction; rolling back"
    emit (.rolledBack (← c.read).raw)
    updateConnection c fun x => { x with level := 0 }

/-- Gives a connection back to its pool, or closes it when it has none. A second release does
nothing. -/
def release (c : ConnectionId) : StateM Session Unit := do
  if !(← c.read).released then
    c.abandon
    updateConnection c fun x => { x with released := true }
    let connection ← c.read
    match connection.owner with
    | some d => d.takeBack connection.raw
    | none => emit (.closed connection.raw)

/-- Closes the driver connection. -/
def close (c : ConnectionId) : StateM Session Unit := do
  updateConnection c fun x => { x with released := true }
  emit (.closed (← c.read).raw)

/-- A call on a connection that is then given back. -/
def use {α : Type} (c : ConnectionId) (call : ConnectionId → SessionM α) : SessionM α :=
  (call c).always (SessionM.lift c.release)

/-- A statement whose values cannot be gone through fails before it is sent; outside a transaction
that rolls the connection back. -/
def refuse (c : ConnectionId) (f : Failure) : SessionM Result := do
  if (← c.read).released then throw (.transaction .released)
  if !(← c.inTransaction) then c.rollbackHeld
  throw f

/-- Runs what is given as a statement with the items of a value; a value that does not count as
present has none. -/
def queryWith (c : ConnectionId) (statement values : Value) : SessionM Result :=
  if values.truthy then
    match values.itemsOf with
    | .ok items => c.queryRaw statement items
    | .error f => c.refuse f
  else c.queryRaw statement []

end ConnectionId

/-! ## The connection of a call -/

/-- The connection that a call is to run on. -/
inductive Route where
  /-- One of the pool. -/
  | pool
  /-- The caller's own. -/
  | own (c : ConnectionId)
  /-- A value of the caller that is no connection; `present` says whether it counts as present. -/
  | unusable (present : Bool)
  deriving DecidableEq, Repr

namespace Route

/-- The connection that a value asks for; null asks for one of the pool. -/
def ofValue : Value → Route
  | .null => .pool
  | .connection c => .own c
  | v => .unusable v.truthy

/-- Runs one statement on the caller's connection. -/
def query (r : Route) (statement : String) (values : List Value) : SessionM Result :=
  match r with
  | .own c => c.query statement values
  | _ => throw .unsupportedValue

end Route

end TableOps
