import TableOps.Text.Cut
import TableOps.Text.Blank

/-!
# Identifiers and paths

A plain name that can be quoted, and dotted paths of such names.

* `isIdentifier` — a letter or underscore, then letters, digits, underscores and dollar signs.
* `isIdentifierPath` — identifiers joined by dots; the last part may be a star.
* `splitQualifier` — what stands before and after the last dot.
-/

namespace TableOps.Reference

/-- A letter or underscore of ASCII. -/
def isNameStart (c : Char) : Bool :=
  ('a' ≤ c && c ≤ 'z') || ('A' ≤ c && c ≤ 'Z') || c == '_'

/-- A letter, digit, underscore or dollar sign of ASCII. -/
def isNameChar (c : Char) : Bool :=
  isNameStart c || ('0' ≤ c && c ≤ '9') || c == '$'

/-- The characters without one line feed at the end. -/
def dropFinalNewline (cs : List Char) : List Char :=
  if cs.getLast? = some '\n' then cs.dropLast else cs

/-- A name start and then name characters. -/
def isName : List Char → Bool
  | [] => false
  | c :: cs => isNameStart c && cs.all isNameChar

/-- An identifier; one line feed behind it is tolerated. -/
def isIdentifierChars (cs : List Char) : Bool :=
  isName (dropFinalNewline cs)

/-- All parts are identifiers, the last one may be a star. -/
def isPathParts : List (List Char) → Bool
  | [] => false
  | [part] => isIdentifierChars part || part == ['*']
  | part :: parts => isIdentifierChars part && isPathParts parts

/-- The text is an identifier. -/
def isIdentifier (s : String) : Bool :=
  isIdentifierChars s.toList

/-- The text is `column`, `table.column`, `table.*` or a longer path of this form. -/
def isIdentifierPath (s : String) : Bool :=
  isPathParts (Text.splitOn '.' s.toList)

/-- The parts of a path. -/
def pathParts (s : String) : List String :=
  (Text.splitOn '.' s.toList).map String.ofList

/-- The qualifier before the last dot, if there is a dot, and the column name behind it. -/
def splitQualifier (name : String) : Option String × String :=
  let name := Text.trimmed name
  match Text.cutLastOf? '.' name with
  | some (qualifier, column) => (some qualifier, column)
  | none => (none, name)

end TableOps.Reference
