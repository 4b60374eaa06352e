import TableOps.Failure
import TableOps.Text.Cut

/-!
# File trees

The files that a configuration or a store is read from, given as a whole: paths with the texts
they hold. A directory is whatever has files below it, and the root of the tree.

* `Path` — a path in its parts; `Path.ofText` and `Path.text` read and write it.
* `FileTree` — the files; `FileTree.textAt`, `FileTree.isDirectory`, `FileTree.below`.
-/

namespace TableOps

/-- A path: the slashes it starts with, and the names between slashes. -/
structure Path where
  lead : String
  parts : List String
  deriving DecidableEq, Repr

namespace Path

/-- The slashes that count at the start of a path: one, or exactly two. -/
def leadOf : List Char → String
  | '/' :: '/' :: '/' :: _ => "/"
  | '/' :: '/' :: _ => "//"
  | '/' :: _ => "/"
  | _ => ""

/-- The path a text stands for; empty names and single dots do not count. -/
def ofText (s : String) : Path :=
  let cs := s.toList
  ⟨leadOf cs, ((Text.splitOn '/' cs).map String.ofList).filter fun p => p != "" && p != "."⟩

/-- The text of a path. -/
def text (p : Path) : String :=
  let s := p.lead ++ String.intercalate "/" p.parts
  if s.isEmpty then "." else s

/-- The parts of a path behind those of a directory above it. -/
def behind? (directory path : Path) : Option (List String) :=
  if directory.lead = path.lead ∧ directory.parts.isPrefixOf path.parts ∧
      directory.parts.length < path.parts.length then
    some (path.parts.drop directory.parts.length)
  else none

/-- A name before its suffix, and the suffix with its dot: what follows the last dot, unless that
is the first or the last character. -/
def splitSuffix (name : String) : String × String :=
  match Text.cutLastOf? '.' name with
  | some (stem, suffix) =>
    if stem.isEmpty || suffix.isEmpty then (name, "") else (stem, "." ++ suffix)
  | none => (name, "")

/-- The suffix of a path's last name. -/
def suffix (p : Path) : String :=
  (splitSuffix (p.parts.getLast?.getD "")).2

/-- The order of the codes of characters. -/
def textLe : List Char → List Char → Bool
  | [], _ => true
  | _ :: _, [] => false
  | a :: as, b :: bs => if a = b then textLe as bs else a.toNat < b.toNat

/-- The order of texts. -/
def le (s t : String) : Bool :=
  textLe s.toList t.toList

/-- The order of paths, part by part. -/
def partsLe : List String → List String → Bool
  | [], _ => true
  | _ :: _, [] => false
  | a :: as, b :: bs => if a = b then partsLe as bs else le a b

end Path

/-- The files of a tree with the texts they hold, below a root directory. -/
structure FileTree where
  root : Path
  files : List (Path × String)

namespace FileTree

/-- No files. -/
def empty : FileTree :=
  ⟨⟨"", []⟩, []⟩

/-- The text of a file. -/
def read? (t : FileTree) (p : Path) : Option String :=
  (t.files.find? fun (q, _) => q == p).map Prod.snd

/-- A path without steps up is the root or has files below it. -/
def hasBelow (t : FileTree) (p : Path) : Bool :=
  p == t.root || t.files.any fun (q, _) => (Path.behind? p q).isSome

/-- Why there is no directory at a path without steps up: it is a file or below one, or nothing is
there. -/
def absence (t : FileTree) (p : Path) : Failure :=
  if t.files.any fun (q, _) => q == p || (Path.behind? q p).isSome then .notDirectory
  else .fileNotFound

/-- The path that is reached from `p` over some names: two dots lead from a directory to the one
above it. -/
def walk (t : FileTree) (p : Path) : List String → Except Failure Path
  | [] => .ok p
  | ".." :: names =>
    if t.hasBelow p then t.walk { p with parts := p.parts.dropLast } names
    else .error (t.absence p)
  | name :: names => t.walk { p with parts := p.parts ++ [name] } names

/-- The path without steps up that leads to the same place. -/
def resolve (t : FileTree) (p : Path) : Except Failure Path :=
  t.walk { p with parts := [] } p.parts

/-- There is a directory at a path. -/
def isDirectory (t : FileTree) (p : Path) : Bool :=
  match t.resolve p with
  | .ok p => t.hasBelow p
  | .error _ => false

/-- The text of the file at a path, which has to be one. -/
def textAt (t : FileTree) (p : Path) : Except Failure String := do
  let p ← t.resolve p
  match t.read? p with
  | some text => return text
  | none => throw (if t.hasBelow p then .isDirectory else t.absence p)

/-- The files below a directory in the order of their parts, with these parts. -/
def below (t : FileTree) (directory : Path) : List (List String × Path × String) :=
  match t.resolve directory with
  | .error _ => []
  | .ok place =>
    (t.files.filterMap fun (q, text) =>
        (Path.behind? place q).map fun parts =>
          (parts, { directory with parts := directory.parts ++ parts }, text)).mergeSort
      fun a b => Path.partsLe a.1 b.1

end FileTree

end TableOps
