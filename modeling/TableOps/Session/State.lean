import TableOps.Dialect
import TableOps.Expression.CountCache
import TableOps.Expression.Draft
import TableOps.Result
import TableOps.Schema.Table
import TableOps.Stored.Files

/-!
# Sessions

The state that commands run in: the databases with their idle connections and cached schemas, the
connections taken from them, the expressions that are shared between commands, the registry of
names, and the server with which statements are exchanged.

* `Session` — the state; `Session.empty` starts one.
* `SessionM` — a call that changes the state and may fail; a failure keeps the changes made so far.
* `Server` — the driver's side: what was asked of it, and what it will answer.
* `SessionM.always` — a call followed by a cleanup, whether it fails or not.
* `Session.database_updateDatabase`, `Session.connection_updateConnection`,
  `Session.cache_updateCache` — what is found after a change.
-/

namespace TableOps

/-- A connection of the driver, by its number; the first is 1. -/
abbrev RawId := Nat

/-- A remembered total, by its number. -/
structure CacheId where
  index : Nat
  deriving DecidableEq, Repr

/-! ## The server -/

/-- What is asked of the driver. -/
inductive Event where
  /-- A connection is opened, with arguments unless a factory opens it. -/
  | opened (raw : RawId) (arguments : Option (Entries Value))
  /-- A statement is run; without values the driver is given none. -/
  | executed (raw : RawId) (statement : Value) (values : List Value)
  | committed (raw : RawId)
  | rolledBack (raw : RawId)
  | closed (raw : RawId)
  deriving Repr

/-- The connection that an event happens on. -/
def Event.raw : Event → RawId
  | .opened raw _ | .executed raw _ _ | .committed raw | .rolledBack raw | .closed raw => raw

/-- What the driver answers to a statement. -/
inductive Reply where
  /-- The statement is refused. -/
  | refused (reason : String)
  /-- The statement has run. A statement that yields rows names their columns. -/
  | done (columns rows : List Value) (rowCount lastInsertId : Value)
  deriving Repr

/-- A statement without rows. -/
def Reply.nothing : Reply :=
  .done [] [] (.int 0) .null

/-- The driver's side of a session. -/
structure Server where
  /-- The number of connections opened so far. -/
  opened : Nat
  /-- What was asked so far, the first first. -/
  events : List Event
  /-- The answers to come; after them every statement yields nothing. -/
  replies : List Reply

/-! ## Logging -/

/-- How important a log entry is. -/
inductive LogLevel where
  | debug
  | info
  | warning
  deriving DecidableEq, Repr

/-- The part of the library that a log entry comes from. -/
inductive LogSource where
  | connection
  | database
  | registry
  | execution
  | definition
  | stored
  | settings
  deriving DecidableEq, Repr

/-- One entry of the log. -/
structure LogEntry where
  level : LogLevel
  source : LogSource
  text : String
  deriving DecidableEq, Repr

/-! ## The state -/

/-- How the connections of a database are opened. -/
inductive Origin where
  /-- From a URL. -/
  | url (text : String)
  /-- By the caller's factory. -/
  | factory
  deriving DecidableEq, Repr

/-- A database with its idle connections and cached schemas. -/
structure Database where
  name : String
  dialect : Dialect
  origin : Origin
  /-- The number of idle connections that are kept. -/
  poolSize : Int
  /-- The idle connections, the one to be taken next first. -/
  idle : List RawId
  schemas : Entries TableSchema
  closed : Bool
  stored : Option (Entries ExpressionId)

/-- A connection, its nesting of transactions and the pool it goes back to. -/
structure Connection where
  raw : RawId
  owner : Option DatabaseId
  /-- The number of transactions begun and not ended. -/
  level : Nat
  released : Bool

/-- An expression that several commands may use, and the total remembered for it. -/
structure SharedExpression extends Draft where
  cache : CacheId

/-- The names of databases and the default one. -/
structure Registry where
  databases : Entries DatabaseId
  default : Option String

/-- The state that commands run in. -/
structure Session where
  databases : List Database
  connections : List Connection
  expressions : List SharedExpression
  caches : List (CountCache Int)
  registry : Registry
  server : Server
  log : List LogEntry
  /-- Everything is logged, not only warnings. -/
  verbose : Bool
  files : FileTree
  /-- The functions that transformers refer to. -/
  functions : Functions

/-- A call that changes the session and may fail; a failure keeps the changes made so far. -/
abbrev SessionM := ExceptT Failure (StateM Session)

namespace Session

/-- A session with nothing in it but files. -/
def empty (files : FileTree) : Session :=
  ⟨[], [], [], [], ⟨[], none⟩, ⟨0, [], []⟩, [], false, files, []⟩

/-- A database that is closed, for numbers that no database has. -/
def noDatabase : Database :=
  ⟨"", .standard .mysql, .factory, 0, [], [], true, none⟩

/-- A connection that is released, for numbers that no connection has. -/
def noConnection : Connection :=
  ⟨0, none, 0, true⟩

/-- The database of a number. -/
def database (s : Session) (id : DatabaseId) : Database :=
  s.databases.getD id.index noDatabase

/-- The connection of a number. -/
def connection (s : Session) (id : ConnectionId) : Connection :=
  s.connections.getD id.index noConnection

/-- The remembered total of a number. -/
def cache (s : Session) (id : CacheId) : CountCache Int :=
  s.caches.getD id.index .empty

/-- The shared expression of a number. -/
def shared? (s : Session) (id : ExpressionId) : Option SharedExpression :=
  s.expressions[id.index]?

end Session

namespace SessionM

variable {α : Type}

/-- A call that cannot fail. -/
def lift (x : StateM Session α) : SessionM α :=
  ExceptT.lift x

/-- The outcome of a call without effects. -/
def ofExcept (x : Except Failure α) : SessionM α :=
  ExceptT.mk (pure x)

/-- A call and then a cleanup, whether the call fails or not; a failing cleanup wins. -/
def always (x : SessionM α) (cleanup : SessionM Unit) : SessionM α :=
  ExceptT.mk do
    let r ← x.run
    match ← cleanup.run with
    | .ok () => return r
    | .error f => return .error f

/-- A call, and then a step that is only taken when it fails; the failure stays. -/
def onFailure (x : SessionM α) (step : StateM Session Unit) : SessionM α :=
  ExceptT.mk do
    match ← x.run with
    | .ok a => return .ok a
    | .error f => do
      step
      return .error f

/-- A call, and then a step that is only taken when it fails with an error; the failure stays. -/
def onError (x : SessionM α) (step : StateM Session Unit) : SessionM α :=
  ExceptT.mk do
    match ← x.run with
    | .ok a => return .ok a
    | .error f => do
      if f.isError then step
      return .error f

end SessionM

namespace Session

/-- Changes a database. -/
def updateDatabase (id : DatabaseId) (f : Database → Database) : StateM Session Unit :=
  modify fun s => { s with databases := s.databases.modify id.index f }

/-- Changes a connection. -/
def updateConnection (id : ConnectionId) (f : Connection → Connection) : StateM Session Unit :=
  modify fun s => { s with connections := s.connections.modify id.index f }

/-- Changes a remembered total. -/
def updateCache (id : CacheId) (f : CountCache Int → CountCache Int) : StateM Session Unit :=
  modify fun s => { s with caches := s.caches.modify id.index f }

/-- Adds a database. -/
def addDatabase (d : Database) : StateM Session DatabaseId := do
  let id : DatabaseId := ⟨(← get).databases.length⟩
  modify fun s => { s with databases := s.databases ++ [d] }
  return id

/-- Adds a connection. -/
def addConnection (c : Connection) : StateM Session ConnectionId := do
  let id : ConnectionId := ⟨(← get).connections.length⟩
  modify fun s => { s with connections := s.connections ++ [c] }
  return id

/-- Adds an empty place for a total. -/
def addCache : StateM Session CacheId := do
  let id : CacheId := ⟨(← get).caches.length⟩
  modify fun s => { s with caches := s.caches ++ [.empty] }
  return id

/-- Shares an expression under a total that others may share as well. -/
def addShared (d : Draft) (cache : CacheId) : StateM Session ExpressionId := do
  let id : ExpressionId := ⟨(← get).expressions.length⟩
  modify fun s => { s with expressions := s.expressions ++ [⟨d, cache⟩] }
  return id

/-- Shares an expression with a total of its own. -/
def share (e : Expression) : StateM Session ExpressionId := do
  addShared (.ofExpression e) (← addCache)

/-- Replaces a shared expression; its total stays. -/
def updateShared (id : ExpressionId) (d : Draft) : StateM Session Unit :=
  modify fun s => { s with
    expressions := s.expressions.modify id.index fun x => { x with toDraft := d } }

/-- Writes a log entry; without `verbose` only warnings are kept. -/
def note (level : LogLevel) (source : LogSource) (text : String) : StateM Session Unit :=
  modify fun s =>
    if s.verbose ∨ level = .warning then { s with log := s.log ++ [⟨level, source, text⟩] } else s

/-- Records what is asked of the driver. -/
def emit (e : Event) : StateM Session Unit :=
  modify fun s => { s with server := { s.server with events := s.server.events ++ [e] } }

/-- Opens a connection of the driver. -/
def openRaw (arguments : Option (Entries Value)) : StateM Session RawId := do
  let raw := (← get).server.opened + 1
  modify fun s => { s with server := { s.server with opened := raw } }
  emit (.opened raw arguments)
  return raw

/-- The driver's next answer. -/
def nextReply : StateM Session Reply := do
  match (← get).server.replies with
  | [] => return .nothing
  | r :: rest => do
    modify fun s => { s with server := { s.server with replies := rest } }
    return r

/-! ## What is found under a number -/

theorem database_of_getElem? {s : Session} {id : DatabaseId} {d : Database}
    (h : s.databases[id.index]? = some d) : s.database id = d := by
  simp [database, h]

theorem connection_of_getElem? {s : Session} {id : ConnectionId} {c : Connection}
    (h : s.connections[id.index]? = some c) : s.connection id = c := by
  simp [connection, h]

theorem database_of_length_le {s : Session} {id : DatabaseId} (h : s.databases.length ≤ id.index) :
    s.database id = noDatabase := by
  simp [database, h]

theorem cache_of_length_le {s : Session} {id : CacheId} (h : s.caches.length ≤ id.index) :
    s.cache id = .empty := by
  simp [cache, h]

/-- A change at one place of a list is found there and nowhere else. -/
theorem getD_modify {α : Type} (items : List α) (i j : Nat) (f : α → α) (z : α) :
    (items.modify i f).getD j z =
      if j = i ∧ i < items.length then f (items.getD j z) else items.getD j z := by
  by_cases hij : i = j
  · subst hij
    by_cases hlt : i < items.length <;> simp [hlt]
  · simp [hij, Ne.symm hij]

/-- A change of one database is found there and nowhere else. -/
@[simp] theorem database_updateDatabase (s : Session) (d d' : DatabaseId) (f : Database → Database) :
    ((updateDatabase d f).run s).2.database d' =
      if d' = d ∧ d.index < s.databases.length then f (s.database d') else s.database d' := by
  obtain ⟨i⟩ := d
  obtain ⟨j⟩ := d'
  simp only [DatabaseId.mk.injEq]
  exact getD_modify s.databases i j f noDatabase

@[simp] theorem connection_updateConnection (s : Session) (c c' : ConnectionId)
    (f : Connection → Connection) :
    ((updateConnection c f).run s).2.connection c' =
      if c' = c ∧ c.index < s.connections.length then f (s.connection c') else s.connection c' := by
  obtain ⟨i⟩ := c
  obtain ⟨j⟩ := c'
  simp only [ConnectionId.mk.injEq]
  exact getD_modify s.connections i j f noConnection

@[simp] theorem cache_updateCache (s : Session) (id id' : CacheId)
    (f : CountCache Int → CountCache Int) :
    ((updateCache id f).run s).2.cache id' =
      if id' = id ∧ id.index < s.caches.length then f (s.cache id') else s.cache id' := by
  obtain ⟨i⟩ := id
  obtain ⟨j⟩ := id'
  simp only [CacheId.mk.injEq]
  exact getD_modify s.caches i j f .empty

end Session

end TableOps
