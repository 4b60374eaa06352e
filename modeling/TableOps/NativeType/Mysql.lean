import TableOps.NativeType.Parameter

/-!
# Native types of MySQL

The engine's spelling of column types, read into neutral types and written from them.

* `Mysql.ofNative` — the type a spelling stands for, in any form in which the engine reports it.
* `Mysql.toNative` — the spelling of a type. Long texts and binaries are promoted to the next
  larger kind that holds them.
-/

namespace TableOps.NativeType.Mysql

/-- The spellings with a meaning of their own. -/
def exact : Entries ColumnType := [
  ("boolean", .ofKind "boolean"),
  ("bool", .ofKind "boolean"),
  ("tinyint(1)", .ofKind "boolean"),
  ("tinyint", refined "integer" "int8"),
  ("smallint", refined "integer" "int16"),
  ("mediumint", refined "integer" "int24"),
  ("int", .ofKind "integer"),
  ("integer", .ofKind "integer"),
  ("bigint", refined "integer" "int64"),
  ("float", refined "number" "float"),
  ("real", refined "number" "float"),
  ("double", refined "number" "double"),
  ("double precision", refined "number" "double"),
  ("decimal", refined "number" "decimal"),
  ("numeric", refined "number" "decimal"),
  ("text", refined "string" "text"),
  ("tinytext", refined "string" "tinytext"),
  ("mediumtext", refined "string" "mediumtext"),
  ("longtext", refined "string" "longtext"),
  ("date", .ofKind "date"),
  ("time", .ofKind "time"),
  ("datetime", .ofKind "datetime"),
  ("timestamp", .ofKind "timestamp"),
  ("year", .ofKind "year"),
  ("json", .ofKind "json"),
  ("blob", .ofKind "binary"),
  ("tinyblob", refined "binary" "tinyblob"),
  ("mediumblob", refined "binary" "mediumblob"),
  ("longblob", refined "binary" "longblob"),
  ("geometry", .ofKind "geometry"),
  ("point", .ofKind "point"),
  ("linestring", .ofKind "linestring"),
  ("polygon", .ofKind "polygon"),
  ("multipoint", .ofKind "multipoint"),
  ("multilinestring", .ofKind "multilinestring"),
  ("multipolygon", .ofKind "multipolygon"),
  ("geometrycollection", .ofKind "geometrycollection")]

/-- The words that integer types start with, and the formats they stand for. -/
def integerWords : List (String × Option String) :=
  [("bigint", some "int64"), ("mediumint", some "int24"), ("smallint", some "int16"),
    ("tinyint", some "int8"), ("int", none)]

/-- The integer type a spelling stands for. -/
def integerOf? (spelling : String) : Option ColumnType :=
  (integerWords.find? fun (word, _) => Text.startsWith word spelling).map fun (_, format) =>
    { ColumnType.ofKind "integer" with
      format := format
      options :=
        if Text.holds "unsigned" spelling then { ColumnOptions.none with unsigned := some true }
        else .none }

/-- The type of a time spelling, the longest words first. -/
def timeOf? (spelling : String) : Except Failure (Option ColumnType) :=
  match ["timestamp", "datetime", "time"].find? fun word => Text.startsWith word spelling with
  | some kind => do
    return some { ColumnType.ofKind kind with precision := ← intParameter? spelling }
  | none => .ok none

/-- The type of a spelling with parameters or attributes; an unknown one is a kind of its own,
as it was written. -/
def ofSpelling (native spelling : String) : Except Failure ColumnType := do
  let starts := fun words => startsWithAny words spelling
  if starts ["decimal", "numeric"] then return refined "number" (decimalFormat spelling)
  if starts ["varchar", "char"] then return sized "string" (← intParameter? spelling)
  if starts ["varbinary"] then return sized "varbinary" (← intParameter? spelling)
  if starts ["binary"] then return sized "binary" (← intParameter? spelling)
  if starts ["tinyint(1)"] then return .ofKind "boolean"
  if let some column := integerOf? spelling then return column
  if starts ["double"] then return refined "number" "double"
  if starts ["float"] then return refined "number" "float"
  if let some column ← timeOf? spelling then return column
  if starts ["year"] then
    return if parameter? spelling = some "2" then refined "year" "year(2)" else .ofKind "year"
  return .ofKind native

/-- The type a spelling stands for. -/
def ofNative (native : String) : Except Failure ColumnType :=
  let spelling := normalize native
  match exact.get? spelling with
  | some column => .ok column
  | none => ofSpelling native spelling

/-- The longest text or binary that is written with its length. -/
def lengthLimit : Int := 255

/-- Kinds of growing capacity; beyond all of them the largest is taken. -/
def tiered (length : Int) (tiers : List (Int × String)) (largest : String) : String :=
  match tiers.find? fun (limit, _) => length ≤ limit with
  | some (_, name) => name
  | none => largest

/-- The spelling of an integer type. -/
def integerNative (format : Option String) (unsigned : Bool) : String :=
  let word :=
    match format with
    | some "int8" => "tinyint"
    | some "int16" => "smallint"
    | some "int24" => "mediumint"
    | some "int64" => "bigint"
    | _ => "int"
  if unsigned then word ++ " unsigned" else word

/-- The spelling of a number type. -/
def numberNative (format : Option String) : String :=
  match format with
  | some f =>
    if isExactFormat f then "decimal" ++ parenthesised f
    else if f = "double" then "double"
    else "float"
  | none => "float"

/-- The spelling of a type with a length: short ones state it, longer ones take the smallest kind
that holds them. -/
def sizedNative (word : String) (length : Option Int) (tiers : List (Int × String))
    (largest unsized : String) : Except Failure String :=
  match nonZero? length with
  | some n => if n ≤ lengthLimit then withNumber word n else .ok (tiered n tiers largest)
  | none => .ok unsized

/-- The spelling of a text type. -/
def textNative (format : Option String) (length : Option Int) : Except Failure String :=
  match format.filter textFormats.contains with
  | some f => .ok f
  | none =>
    sizedNative "varchar" length [(65535, "text"), (16777215, "mediumtext")] "longtext" "text"

/-- The spelling of a binary type. -/
def binaryNative (format : Option String) (length : Option Int) : Except Failure String :=
  match format.filter ["tinyblob", "mediumblob", "longblob"].contains with
  | some f => .ok f
  | none =>
    sizedNative "binary" length [(65535, "blob"), (16777215, "mediumblob")] "longblob" "blob"

/-- The spelling of a type; a kind the engine does not know is written as it stands. A length or a
precision that has too many digits is refused. -/
def toNative (c : ColumnType) : Except Failure String :=
  match c.kind with
  | "integer" => .ok (integerNative c.format (c.options.unsigned == some true))
  | "number" => .ok (numberNative c.format)
  | "string" => textNative c.format c.maxLength
  | "serial" => .ok "bigint unsigned not null auto_increment unique"
  | "year" => .ok (if c.format = some "year(2)" then "year(2)" else "year")
  | "time" => withPrecision "time" c.precision
  | "datetime" => withPrecision "datetime" c.precision
  | "timestamp" => withPrecision "timestamp" c.precision
  | "jsonb" => .ok "json"
  | "uuid" => .ok "char(36)"
  | "binary" => binaryNative c.format c.maxLength
  | "varbinary" => withNumber "varbinary" ((nonZero? c.maxLength).getD lengthLimit)
  | kind => .ok kind

end TableOps.NativeType.Mysql
