import TableOps.Session.Database
import TableOps.Settings
import TableOps.Stored.Expressions
import TableOps.Value.Membership

/-!
# The registry

Databases by name. The first one registered becomes the default. A name that is used again is taken
over, and the database that had it is closed down.

* `Session.register`, `Session.lookup`, `Session.closeAll` — the registry.
* `Session.configure` — replaces the registered databases by those of a configuration.
-/

namespace TableOps

namespace Session

/-- Gives a name to a database. -/
def enroll (id : DatabaseId) (name : String) : StateM Session Unit := do
  match (← get).registry.databases.get? name with
  | some previous =>
    if previous ≠ id then
      note .info .registry ("Replacing database `" ++ name ++ "`")
      previous.closeDown
  | none => pure ()
  modify fun s => { s with
    registry := { s.registry with databases := s.registry.databases.put name id } }

/-- Registers a database under its name, and under an alias when one is given. -/
def register (id : DatabaseId) (aliasName : Option String) : StateM Session Unit := do
  let name := (← id.read).name
  ([name] ++ (Join.filled? aliasName).toList).forM (enroll id)
  modify fun s => { s with
    registry := { s.registry with default := s.registry.default.or (some name) } }

/-- The database of a name, or the default one. -/
def lookup (name : Option String) : SessionM DatabaseId := do
  let r := (← get).registry
  let name := (Join.filled? name).or r.default
  match name.bind r.databases.get? with
  | some id => return id
  | none => throw (.configuration (.unknownDatabase name))

/-- The database that is registered under a value. A value that does not count as present asks for
the default one, and no collection can be a name. -/
def lookupValue (v : Value) : SessionM DatabaseId := do
  match v with
  | .text name => lookup (some name)
  | .database id => throw (.configuration (.unknownDatabase (some (← id.read).label)))
  | v =>
    if !v.truthy then lookup none
    else if v.isName then throw (.configuration (.unknownDatabase (some v.plainText)))
    else throw .wrongKind

/-- The database that a value stands for: itself, or one that is registered under that name. -/
def databaseOf : Value → SessionM DatabaseId
  | .database id => pure id
  | v => lookupValue v

/-- Closes every registered database down, each once, and forgets them. -/
def closeAll : StateM Session Unit := do
  let ids := ((← get).registry.databases.map Prod.snd).eraseDups
  ids.forM DatabaseId.closeDown
  modify fun s => { s with registry := ⟨[], none⟩ }

/-- Adds a database and registers it. -/
def install (d : Database) (aliasName : Option String) : StateM Session DatabaseId := do
  let id ← addDatabase d
  register id aliasName
  return id

/-- Shares the expressions read from a directory and keeps them by path. -/
def keepLoaded (loaded : List Stored.Loaded) : StateM Session (Entries ExpressionId) :=
  loaded.foldlM
    (fun store l => do
      let id ← share l.expression
      note .debug .stored ("Loaded stored expression " ++ l.key ++ " from " ++ l.path.text)
      return Entries.put store l.key id)
    []

/-- The stored expressions of a directory. -/
def loadStored (directory : String) : SessionM (Entries ExpressionId) := do
  let (loaded, stopped) := Stored.loadDirectory (← get).files (Path.ofText directory)
  let store ← SessionM.lift (keepLoaded loaded)
  match stopped with
  | some f => throw f
  | none => return store

/-- The database of some settings. -/
def build (s : Settings) : SessionM Database := do
  let stored ← match Settings.given? s.stored with
    | some directory => some <$> loadStored directory
    | none => pure none
  SessionM.ofExcept
    (Database.ofUrl s.toUrl ⟨none, none, (s.poolSize.val : Int), .ofText? s.style, stored⟩)

/-- Builds and registers the databases of some settings in order. -/
def installAll : List Settings → SessionM (List DatabaseId)
  | [] => return []
  | s :: rest => do
    let d ← build s
    let id ← SessionM.lift (install d s.aliasName)
    note .info .settings
      ("Configured database `" ++ d.name ++ "` (" ++ d.dialect.engine.name ++ ")")
    return id :: (← installAll rest)

/-- The plain data of a configuration: that of a file when a path is given. -/
def readConfiguration (tree : FileTree) : Value → Except Failure Value
  | .text path => do
    match Json.read? (← tree.textAt (Path.ofText path)) with
    | some v => return v
    | none => throw .unreadableJson
  | v => .ok v

/-- The settings of a configuration. -/
def loadSettings (tree : FileTree) (source : Value) : Except Failure (List Settings) := do
  Settings.listOfValue (← readConfiguration tree source)

/-- Replaces the registered databases by those of a configuration. -/
def configure (source : Value) : SessionM (List DatabaseId) := do
  let settings ← SessionM.ofExcept (loadSettings (← get).files source)
  SessionM.lift closeAll
  installAll settings

end Session

end TableOps
