import TableOps.NativeType
import TableOps.Result
import TableOps.Schema.Table
import TableOps.Value.Keyed
import TableOps.Value.Order

/-!
# Introspection

How the schema of a table is read from what the engine reports about it.

* `readColumns` — the columns from rows with the members `Field`, `Type`, `Null`, `Default` and
  `Extra`.
* `Mysql.schemaOf`, `Postgres.schemaOf` — the schema of a table from the answers of the engine.
* `Mysql.columnsStatement`, … — the statements that ask for them.
-/

namespace TableOps

namespace Introspection

/-- A member that has to be there. -/
def member (row : Row) (name : String) : Except Failure Value :=
  match row.get? name with
  | some v => .ok v
  | none => .error .noSuchMember

/-- The member is the text `s`. -/
def states (row : Row) (name s : String) : Bool :=
  (row.get? name).bind Value.text? == some s

/-- A default that is neither missing nor empty. -/
def givenDefault (row : Row) : Value :=
  match row.get? "Default" with
  | some (.text s) => if s.isEmpty then .null else .text s
  | some v => v
  | none => .null

/-- The options that a row adds to those of the native type. A generated column has no default of
its own. -/
def optionsOf (row : Row) (o : ColumnOptions) : ColumnOptions :=
  let o := if states row "Null" "NO" then { o with notNull := some true } else o
  if states row "Extra" "auto_increment" then { o with autoIncrement := some true }
  else { o with default := givenDefault row }

/-- The column that a row reports. -/
def readColumn (engine : Engine) (row : Row) : Except Failure (Value × ColumnType) := do
  let c ← engine.ofNative (← (← member row "Type").toText)
  return (← member row "Field", { c with options := optionsOf row c.options })

/-- The columns that rows report, under names that need not be texts; a name reported twice keeps
its first place. -/
def readColumns (engine : Engine) (rows : List Row) : Except Failure (Keyed ColumnType) :=
  rows.foldlM (fun columns row => do
    let (name, c) ← readColumn engine row
    columns.insert? name c) []

/-- The values of one member of every row. -/
def memberOfEach (name : String) (rows : List Row) : Except Failure (List Value) :=
  rows.mapM fun row => member row name

/-- The schema of a table, if its name and those of its columns and key columns are texts. -/
def schemaOf (table : Value) (columns : Keyed ColumnType) (keys : List Value)
    (options : Entries Value) : Except Failure TableSchema :=
  ((fun title columns keys => TableSchema.mk title columns keys options)
    <$> Check.within (.member "title") (Check.text table)
    <*> Check.within (.member "columns") (Check.namedEntries columns)
    <*> Check.within (.member "primary_key") (Check.list Check.text (.list keys))).toExcept

end Introspection

namespace Mysql

/-- Asks for the columns of a table. -/
def columnsStatement (table : String) : String :=
  "SHOW COLUMNS FROM " ++ Text.quoted Engine.mysql.quoteMark table

/-- Asks for the primary key of a table. -/
def keysStatement (table : String) : String :=
  "SHOW INDEX FROM " ++ Text.quoted Engine.mysql.quoteMark table ++ " WHERE Key_name = 'PRIMARY'"

/-- Asks for the status of the table whose name is bound. -/
def statusStatement (placeholder : String) : String :=
  "SHOW TABLE STATUS WHERE Name = " ++ placeholder

/-- The position of a column in the key, 0 unless it is given. -/
def position (row : Row) : Value :=
  (row.get? "Seq_in_index").getD (.int 0)

/-- The rows of a key by position, rows of one position in their old order. -/
def orderKeys (rows : List Row) : Except Failure (List Row) :=
  match sorted? (fun a b => (position a).before? (position b)) rows with
  | some rows => .ok rows
  | none => .error .wrongKind

/-- The options of a table from its status. -/
def statusOptions (status : Row) : Entries Value :=
  [("Engine", "engine"), ("Collation", "collation"), ("Comment", "comment")].filterMap
    fun (reported, name) => ((status.get? reported).filter Value.truthy).map (name, ·)

/-- The schema of a table from its columns, the rows of its primary key and its status. -/
def schemaOf (table : Value) (columns keys status : List Row) : Except Failure TableSchema := do
  let keys ← orderKeys keys
  let columns ← Introspection.readColumns .mysql columns
  let names ← Introspection.memberOfEach "Column_name" keys
  Introspection.schemaOf table columns names (statusOptions (status.head?.getD []))

end Mysql

namespace Postgres

/-- Asks for the columns of the table whose name is bound. -/
def columnsStatement (placeholder : String) : String :=
  "SELECT column_name, data_type, udt_name, character_maximum_length, " ++
    "numeric_precision, numeric_scale, is_nullable, column_default " ++
    "FROM information_schema.columns " ++
    "WHERE table_schema = current_schema() AND table_name = " ++ placeholder ++ " " ++
    "ORDER BY ordinal_position"

/-- Asks for the primary key of the table whose name is bound. -/
def keysStatement (placeholder : String) : String :=
  "SELECT kcu.column_name AS column_name " ++
    "FROM information_schema.table_constraints tc " ++
    "JOIN information_schema.key_column_usage kcu " ++
    "ON tc.constraint_name = kcu.constraint_name AND tc.table_schema = kcu.table_schema " ++
    "WHERE tc.table_schema = current_schema() AND tc.table_name = " ++ placeholder ++ " " ++
    "AND tc.constraint_type = 'PRIMARY KEY' " ++
    "ORDER BY kcu.ordinal_position"

/-- A member that counts as present. -/
def present? (row : Row) (name : String) : Option Value :=
  (row.get? name).filter Value.truthy

/-- The native type of a column with its parameters, put together from what is reported about
it. -/
def nativeType (row : Row) : Except Failure Value := do
  let kind ← Introspection.member row "data_type"
  match kind with
  | .text "ARRAY" =>
    let item ← (← Introspection.member row "udt_name").toText
    return .text (String.ofList (item.toList.dropWhile (· == '_')) ++ "[]")
  | .text "character varying" | .text "character" =>
    match present? row "character_maximum_length" with
    | some n => return .text (kind.plainText ++ "(" ++ n.plainText ++ ")")
    | none => return kind
  | .text "numeric" =>
    match (row.get? "numeric_precision").filter (!·.isNull) with
    | some p =>
      let scale := (present? row "numeric_scale").getD (.int 0)
      return .text ("numeric(" ++ p.plainText ++ "," ++ scale.plainText ++ ")")
    | none => return kind
  | _ => return kind

/-- A column is generated when its default takes the next value of a sequence. -/
def isGenerated (default : Value) : Bool :=
  default.truthy && Text.startsWith "nextval" default.plainText

/-- A reported column in the common form. -/
def commonRow (row : Row) : Except Failure Row := do
  let name ← Introspection.member row "column_name"
  let native ← nativeType row
  let nullable ← Introspection.member row "is_nullable"
  let default ← Introspection.member row "column_default"
  return [("Field", name), ("Type", native), ("Null", nullable), ("Default", default),
    ("Extra", .text (if isGenerated default then "auto_increment" else ""))]

/-- The schema of a table from its columns and the rows of its primary key. -/
def schemaOf (table : Value) (columns keys : List Row) : Except Failure TableSchema := do
  let rows ← columns.mapM commonRow
  let columns ← Introspection.readColumns .postgres rows
  let names ← Introspection.memberOfEach "column_name" keys
  Introspection.schemaOf table columns names [("engine", .text "PostgreSQL")]

end Postgres

end TableOps
