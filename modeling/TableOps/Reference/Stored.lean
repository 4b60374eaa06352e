import TableOps.Text.Blank
import TableOps.Text.Cut

/-!
# References to stored expressions

A stored expression is referred to by its path, perhaps with a database in front:
`mydb:person/list`.

* `splitStoredPath` — the database and the path.
* `storedKey` — the path in the form under which expressions are kept: with exactly one slash in
  front and none behind.
-/

namespace TableOps.Reference

/-- The database before the first colon, unless that is empty, and the path behind it. -/
def splitStoredPath (reference : String) : Option String × String :=
  match Text.cutFirstOf? ':' reference with
  | some (database, path) => (if database.isEmpty then none else some database, path)
  | none => (none, reference)

/-- The characters without the slashes in front. -/
def dropSlashes (cs : List Char) : List Char :=
  cs.dropWhile (· == '/')

/-- The path with one slash in front, and no blanks or slashes around it. -/
def storedKey (path : String) : String :=
  String.ofList ('/' :: (dropSlashes (dropSlashes (Text.trim path.toList)).reverse).reverse)

end TableOps.Reference
