import TableOps.Check
import TableOps.Text.Blank
import TableOps.Text.Case
import TableOps.Text.Cut

/-!
# Table references

A table is written `Person`, `Person psn`, `Person AS psn`, and with a database in front
`mydb.Person AS psn`.

* `TableRef` — the parts of a table reference; `TableRef.parse` reads one.
* `Source` — a text that is known to refer to a table.
* `TableRef.qualifier` — the name its columns are qualified with.
* `TableRef.owns` — which qualifiers belong to it.
-/

namespace TableOps

/-- A table, perhaps in a named database, perhaps under an alias. -/
structure TableRef where
  database : Option String
  name : String
  aliasName : Option String
  deriving DecidableEq, Repr

namespace TableRef

/-- A table from its members. -/
def ofMembers (members : Entries Value) : Check TableRef :=
  TableRef.mk
    <$> Check.optional ["database"] Check.text members
    <*> Check.required ["name"] Check.text members
    <*> Check.optional ["alias"] Check.text members

/-- Every member of a table reference, null for what it lacks. -/
def members (t : TableRef) : Entries Value :=
  [("database", .ofText? t.database), ("name", .text t.name), ("alias", .ofText? t.aliasName)]

/-- A table given by its name alone. -/
def ofName (name : String) : TableRef :=
  ⟨none, name, none⟩

/-- A table from its dotted name and its alias. -/
def ofFullName (fullName : String) (aliasName : Option String) : TableRef :=
  match Text.cutLastOf? '.' fullName with
  | some (database, name) => ⟨some database, name, aliasName⟩
  | none => ⟨none, fullName, aliasName⟩

/-- The table that some words refer to: a dotted name, then perhaps an alias with or without
`AS`. -/
def ofWords? : List String → Option TableRef
  | [fullName] => some (ofFullName fullName none)
  | [fullName, aliasName] => some (ofFullName fullName (some aliasName))
  | [fullName, keyword, aliasName] =>
    if Text.fold keyword = "as" then some (ofFullName fullName (some aliasName)) else none
  | _ => none

/-- What is wrong with a text that refers to no table. -/
def unreadable (text : String) : Failure :=
  if (Text.wordsOf text).isEmpty then .input .emptyTableReference
  else .input (.unreadableTableReference text)

/-- The table a text refers to. -/
def parse (text : String) : Except Failure TableRef :=
  match ofWords? (Text.wordsOf text) with
  | some t => .ok t
  | none => .error (unreadable text)

/-- The alias when there is one with characters in it. -/
def aliasText? (t : TableRef) : Option String :=
  t.aliasName.filter (!·.isEmpty)

/-- The name the columns of the table are qualified with. -/
def qualifier (t : TableRef) : String :=
  t.aliasText?.getD t.name

/-- A column with this qualifier belongs to the table; so does one without. -/
def owns (t : TableRef) : Option String → Bool
  | none => true
  | some q => t.aliasName == some q || t.name == q

end TableRef

/-- A text that refers to a table, with that table. -/
structure Source where
  text : String
  ref : TableRef
  reads : TableRef.ofWords? (Text.wordsOf text) = some ref

/-- The source a text gives as it stands. -/
def Source.asWritten? (text : String) : Option Source :=
  match h : TableRef.ofWords? (Text.wordsOf text) with
  | some ref => some ⟨text, ref, h⟩
  | none => none

/-- The source a text gives, without the blanks around it. -/
def Source.ofText (text : String) : Except Failure Source :=
  match h : TableRef.ofWords? (Text.wordsOf (Text.trimmed text)) with
  | some ref => .ok ⟨Text.trimmed text, ref, h⟩
  | none => .error (TableRef.unreadable text)

end TableOps
