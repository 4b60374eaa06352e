import TableOps.Schema.Column

/-!
# Table schemas

What is known about a table: its columns, its primary key and the options of the engine. A schema
is what introspection yields and what a table is created from.

* `TableSchema` — a schema; `TableSchema.ofValue` reads one from plain data.
* `TableSchema.members`, `TableSchema.describe` — its plain form, and the form in which it is shown.
* `TableSchema.requireCreatable` — what a schema needs before a table can be created from it.
-/

namespace TableOps

/-- The columns, the primary key and the engine options of a table. -/
structure TableSchema where
  title : String
  columns : Entries ColumnType
  primaryKey : List String
  options : Entries Value
  deriving Repr

namespace TableSchema

/-- A schema from its members. -/
def ofMembers (members : Entries Value) : Check TableSchema :=
  TableSchema.mk
    <$> Check.required ["title"] Check.text members
    <*> Check.withDefault ["columns"] [] (Check.mapping ColumnType.ofValue) members
    <*> Check.withDefault ["primary", "primary_key"] [] (Check.list Check.text) members
    <*> Check.withDefault ["options"] [] (Check.mapping Check.any) members

/-- A schema from its plain form, checked or not. -/
def ofValue : Value → Check TableSchema
  | .checked .schema (.map members) => ofMembers members
  | v => Check.instanceOf ofMembers v

/-- The names of the columns in order. -/
def columnNames (s : TableSchema) : List String :=
  Entries.keys s.columns

/-- The members that a schema is read from. -/
def members (s : TableSchema) : Entries Value :=
  [("title", .text s.title), ("columns", .map (s.columns.mapValues fun c => .map c.members)),
    ("primary_key", .ofTexts s.primaryKey), ("options", .map s.options)]

/-- A schema as it is shown: the columns in order, without what is not set. -/
def describe (s : TableSchema) : Entries Value :=
  [("title", .text s.title),
    ("columns", .list (s.columns.map fun (name, c) => Value.pair name (.map c.describe))),
    ("primary_key", .ofTexts s.primaryKey), ("options", .map s.options)]

/-- A table can be created from a schema with a name, a column and a primary key. -/
def requireCreatable (s : TableSchema) : Except Failure Unit :=
  if s.title.isEmpty then .error (.schema .noTitle)
  else if s.columns.isEmpty then .error (.schema .noColumns)
  else if s.primaryKey.isEmpty then .error (.schema .noPrimaryKey)
  else .ok ()

end TableSchema

end TableOps
