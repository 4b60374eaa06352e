import TableOps.Expression.Basic
import TableOps.Json.Reading
import TableOps.Reference.Stored
import TableOps.Stored.Files
import TableOps.Value.Mapping

/-!
# Stored expressions

Expressions kept in files and looked up by path. Every `.json` file of a directory tree holds the
plain form of an expression; names that start with a dot or an underscore are passed over.

* `Stored.ofText` — the expression that a file holds.
* `Stored.loadDirectory` — the expressions of a directory, up to the first that cannot be read.
* `Stored.add`, `Stored.find`, `Stored.paths` — a store keyed by path.
-/

namespace TableOps

namespace Stored

/-- The expression of a value that was read from the file at `path`. -/
def ofFileValue (path : Path) (v : Value) : Except Failure Expression := do
  let members ← v.toMapping
  match Expression.ofMembers members with
  | .error (.malformed cause) => throw (.configuration (.invalidStored path.text cause))
  | r => r

/-- The expression of a file's text. -/
def ofText (path : Path) (text : String) : Except Failure Expression :=
  match Json.read? text with
  | some v => ofFileValue path v
  | none => .error .unreadableJson

/-- The expression of the file at `path`. -/
def ofFile (tree : FileTree) (path : Path) : Except Failure Expression :=
  if path.suffix = ".json" then
    (tree.textAt path).bind (ofText path)
  else .error (.configuration (.unsupportedFile path.text))

/-- The name is passed over. -/
def isHidden (name : String) : Bool :=
  Text.startsWith "." name || Text.startsWith "_" name

/-- The key of a file by its parts below the directory: without the suffix of the last one. -/
def keyOf (parts : List String) : String :=
  let stem := (Path.splitSuffix (parts.getLast?.getD "")).1
  Reference.storedKey (String.intercalate "/" (parts.dropLast ++ [stem]))

/-- An expression that was read from a file. -/
structure Loaded where
  key : String
  path : Path
  expression : Expression

/-- The expressions of some files in order, and the failure at which the reading stopped. -/
def loadFiles : List (List String × Path × String) → List Loaded × Option Failure
  | [] => ([], none)
  | (parts, path, text) :: rest =>
    if path.suffix ≠ ".json" ∨ parts.any isHidden then loadFiles rest
    else
      match ofText path text with
      | .ok e =>
        let (loaded, stopped) := loadFiles rest
        (⟨keyOf parts, path, e⟩ :: loaded, stopped)
      | .error f => ([], some f)

/-- The expressions of a directory, and the failure at which the reading stopped. -/
def loadDirectory (tree : FileTree) (directory : Path) : List Loaded × Option Failure :=
  if tree.isDirectory directory then loadFiles (tree.below directory)
  else ([], some (.configuration (.noStoredDirectory directory.text)))

/-- The store of some expressions that were read. -/
def ofLoaded (store : Entries Expression) (loaded : List Loaded) : Entries Expression :=
  store.update (loaded.map fun l => (l.key, l.expression))

/-! ## The store -/

variable {α : Type}

/-- Keeps an expression under a path. -/
def add (store : Entries α) (path : String) (e : α) : Entries α :=
  store.put (Reference.storedKey path) e

/-- The expression under a path. -/
def find (store : Entries α) (path : String) : Except Failure α :=
  match store.get? (Reference.storedKey path) with
  | some e => .ok e
  | none => .error (.malformed (.unknownStoredExpression path))

/-- The paths of a store in order. -/
def paths (store : Entries α) : List String :=
  (Entries.keys store).mergeSort Path.le

end Stored

end TableOps
