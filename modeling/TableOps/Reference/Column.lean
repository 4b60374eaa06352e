import TableOps.Reference.Identifier
import TableOps.Text.Case

/-!
# Column references

A selected column is written as an expression, perhaps with an alias: `psn.name`,
`psn.name AS fullName`, `psn.name fullName`, `COUNT(*) AS ct`.

* `splitAlias` — the expression and the alias.
* `outputName` — the name under which the column comes back in a row.
* `columnName` — the unqualified column, whatever its alias.
-/

namespace TableOps.Reference

/-- A letter that is an ASCII letter when case is ignored: besides those, the dotless and the
dotted i, the long s and the kelvin sign. -/
def isCaselessLetter (c : Char) : Bool :=
  ('a' ≤ c && c ≤ 'z') || ('A' ≤ c && c ≤ 'Z') ||
    c == 'ı' || c == 'İ' || c == 'ſ' || c == '\u212A'

/-- A word that may follow `AS`. -/
def isAlias : List Char → Bool
  | [] => false
  | c :: cs =>
    (isCaselessLetter c || c == '_') &&
      cs.all fun d => isCaselessLetter d || d == '_' || d == '$' || ('0' ≤ d && d ≤ '9')

/-- The word `AS` in any case. -/
def isAsWord : List Char → Bool
  | [a, s] => (a == 'a' || a == 'A') && (s == 's' || s == 'S' || s == 'ſ')
  | _ => false

/-- The last word of a text without blanks at its end, and what stands before it with the blanks
between them removed. -/
def cutLastWord (cs : List Char) : List Char × List Char :=
  let back := cs.reverse
  let word := back.takeWhile (!Text.isBlank ·)
  let before := back.dropWhile (!Text.isBlank ·)
  (word.reverse, (Text.trimFront before).reverse)

/-- The expression before `AS` and the alias behind it. -/
def splitAsAlias? (cs : List Char) : Option (List Char × List Char) :=
  let (aliasName, before) := cutLastWord cs
  let (keyword, expression) := cutLastWord before
  if isAlias aliasName && isAsWord keyword && !expression.isEmpty then some (expression, aliasName)
  else none

/-- The lead of a selection of distinct values. -/
def distinctLead : List Char := "distinct ".toList

/-- The text behind a leading `DISTINCT`, in any case, and one blank. -/
def afterDistinct? (s : String) : Option String :=
  let cs := s.toList
  if distinctLead.isPrefixOf (cs.map Text.foldChar) then
    some (Text.trimmed (String.ofList (cs.drop distinctLead.length)))
  else none

/-- The expression of a column reference and its alias. Without `AS`, a path followed by one more
identifier is a column with an alias, unless the path is the word `DISTINCT`. -/
def splitAlias (ref : String) : String × Option String :=
  let ref := Text.trimmed ref
  match splitAsAlias? ref.toList with
  | some (expression, aliasName) => (String.ofList expression, some (String.ofList aliasName))
  | none =>
    match Text.wordsOf ref with
    | [column, aliasName] =>
      if Text.fold column != "distinct" && isIdentifierPath column && isIdentifier aliasName then
        (column, some aliasName)
      else (ref, none)
    | _ => (ref, none)

/-- The name under which a selected column comes back in a row. -/
def outputName (ref : String) : String :=
  match splitAlias ref with
  | (_, some aliasName) => aliasName
  | (expression, none) => (splitQualifier ((afterDistinct? expression).getD expression)).2

/-- The unqualified column a reference selects, ignoring its alias. -/
def columnName (ref : String) : String :=
  (splitQualifier (splitAlias ref).1).2

end TableOps.Reference
