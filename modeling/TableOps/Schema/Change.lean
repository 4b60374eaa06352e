import TableOps.Schema.Column

/-!
# Table changes

What is to be added to a table, altered in it and dropped from it.

* `TableChange` — the change of a table; `TableChange.ofValue` reads one from plain data.
* `Additions`, `Alterations`, `Removals` — its three parts.
* `Index`, `ForeignKey` — what may be added besides columns.
-/

namespace TableOps

/-- An index over some columns. -/
structure Index where
  columns : List String
  unique : Bool
  deriving DecidableEq, Repr

/-- An index from plain data. -/
def Index.ofValue : Value → Check Index :=
  Check.instanceOf fun members =>
    Index.mk
      <$> Check.required ["columns"] (Check.list Check.text) members
      <*> Check.withDefault ["unique"] false Check.bool members

/-- The members that an index is read from. -/
def Index.members (i : Index) : Entries Value :=
  [("columns", .ofTexts i.columns), ("unique", .bool i.unique)]

/-- A foreign key; the reference is written `Table.column`. -/
structure ForeignKey where
  key : String
  reference : String
  /-- What happens to referring rows, by kind of change. -/
  integrity : Entries String
  deriving DecidableEq, Repr

namespace ForeignKey

/-- A foreign key from plain data. -/
def ofValue : Value → Check ForeignKey :=
  Check.instanceOf fun members =>
    ForeignKey.mk
      <$> Check.required ["key"] Check.text members
      <*> Check.required ["reference"] Check.text members
      <*> Check.withDefault ["integrity"] [] (Check.mapping Check.text) members

/-- The members that a foreign key is read from. -/
def members (k : ForeignKey) : Entries Value :=
  [("key", .text k.key), ("reference", .text k.reference),
    ("integrity", .map (k.integrity.mapValues .text))]

/-- What happens to referring rows when the row is deleted. -/
def onDelete (k : ForeignKey) : String :=
  (k.integrity.get? "delete").getD "restrict"

/-- What happens to referring rows when the row is updated. -/
def onUpdate (k : ForeignKey) : String :=
  (k.integrity.get? "update").getD "restrict"

end ForeignKey

/-- What is added to a table. -/
structure Additions where
  columns : Entries ColumnType
  indexes : Entries Index
  foreignKeys : Entries ForeignKey
  deriving Repr

/-- Additions from plain data. -/
def Additions.ofValue : Value → Check Additions :=
  Check.instanceOf fun members =>
    Additions.mk
      <$> Check.withDefault ["column"] [] (Check.mapping ColumnType.ofValue) members
      <*> Check.withDefault ["index"] [] (Check.mapping Index.ofValue) members
      <*> Check.withDefault ["foreignKey", "foreign_key"] [] (Check.mapping ForeignKey.ofValue)
        members

/-- The members that additions are read from. -/
def Additions.members (a : Additions) : Entries Value :=
  [("column", .map (a.columns.mapValues fun c => .map c.members)),
    ("index", .map (a.indexes.mapValues fun i => .map i.members)),
    ("foreign_key", .map (a.foreignKeys.mapValues fun k => .map k.members))]

/-- What is altered in a table. -/
structure Alterations where
  columns : Entries ColumnChange
  deriving Repr

/-- Alterations from plain data. -/
def Alterations.ofValue : Value → Check Alterations :=
  Check.instanceOf fun members =>
    Alterations.mk
      <$> Check.withDefault ["column"] [] (Check.mapping ColumnChange.ofValue) members

/-- The members that alterations are read from. -/
def Alterations.members (a : Alterations) : Entries Value :=
  [("column", .map (a.columns.mapValues fun c => .map c.members))]

/-- What is dropped from a table. -/
structure Removals where
  columns : List String
  indexes : List String
  foreignKeys : List String
  deriving DecidableEq, Repr

/-- Removals from plain data. -/
def Removals.ofValue : Value → Check Removals :=
  Check.instanceOf fun members =>
    Removals.mk
      <$> Check.withDefault ["column"] [] (Check.list Check.text) members
      <*> Check.withDefault ["index"] [] (Check.list Check.text) members
      <*> Check.withDefault ["foreignKey", "foreign_key"] [] (Check.list Check.text) members

/-- The members that removals are read from. -/
def Removals.members (r : Removals) : Entries Value :=
  [("column", .ofTexts r.columns), ("index", .ofTexts r.indexes),
    ("foreign_key", .ofTexts r.foreignKeys)]

/-- The change of a table. -/
structure TableChange where
  title : String
  add : Option Additions
  alter : Option Alterations
  drop : Option Removals
  deriving Repr

namespace TableChange

/-- A change from its members. -/
def ofMembers (members : Entries Value) : Check TableChange :=
  TableChange.mk
    <$> Check.required ["title"] Check.text members
    <*> Check.optional ["add"] Additions.ofValue members
    <*> Check.optional ["alter"] Alterations.ofValue members
    <*> Check.optional ["drop"] Removals.ofValue members

/-- Every member of a change, null for the parts it lacks. -/
def members (t : TableChange) : Entries Value :=
  [("title", .text t.title), ("add", .orNull (fun a => .map a.members) t.add),
    ("alter", .orNull (fun a => .map a.members) t.alter),
    ("drop", .orNull (fun r => .map r.members) t.drop)]

/-- A change from its plain form, checked or not. -/
def ofValue : Value → Check TableChange
  | .checked .change (.map members) => ofMembers members
  | v => Check.instanceOf ofMembers v

end TableChange

end TableOps
