import TableOps.NativeType.Parameter

/-!
# Native types of PostgreSQL

The engine's spelling of column types, read into neutral types and written from them. Array types
are unwrapped into the type of their items. There is no integer of 8 bits, which is widened, and
no unsigned one, which is dropped.

* `Postgres.ofNative` — the type a spelling stands for.
* `Postgres.toNative` — the spelling of a type.
-/

namespace TableOps.NativeType.Postgres

/-- A kind with a time zone. -/
def zoned (kind : String) : ColumnType :=
  { ColumnType.ofKind kind with withTimeZone := some true }

/-- The spellings with a meaning of their own. -/
def exact : Entries ColumnType := [
  ("boolean", .ofKind "boolean"),
  ("bool", .ofKind "boolean"),
  ("smallint", refined "integer" "int16"),
  ("int2", refined "integer" "int16"),
  ("integer", .ofKind "integer"),
  ("int", .ofKind "integer"),
  ("int4", .ofKind "integer"),
  ("bigint", refined "integer" "int64"),
  ("int8", refined "integer" "int64"),
  ("real", refined "number" "float"),
  ("float4", refined "number" "float"),
  ("double precision", refined "number" "double"),
  ("float8", refined "number" "double"),
  ("numeric", refined "number" "decimal"),
  ("decimal", refined "number" "decimal"),
  ("text", refined "string" "text"),
  ("character varying", .ofKind "string"),
  ("varchar", .ofKind "string"),
  ("character", .ofKind "string"),
  ("char", .ofKind "string"),
  ("serial", .ofKind "serial"),
  ("smallserial", refined "serial" "int16"),
  ("bigserial", refined "serial" "int64"),
  ("date", .ofKind "date"),
  ("time", .ofKind "time"),
  ("time without time zone", .ofKind "time"),
  ("time with time zone", zoned "time"),
  ("timestamp", .ofKind "timestamp"),
  ("timestamp without time zone", .ofKind "timestamp"),
  ("timestamp with time zone", zoned "timestamp"),
  ("timestamptz", zoned "timestamp"),
  ("interval", .ofKind "interval"),
  ("uuid", .ofKind "uuid"),
  ("json", .ofKind "json"),
  ("jsonb", .ofKind "jsonb"),
  ("bytea", .ofKind "binary"),
  ("inet", .ofKind "inet"),
  ("cidr", .ofKind "cidr"),
  ("macaddr", .ofKind "macaddr"),
  ("point", .ofKind "point"),
  ("line", .ofKind "line"),
  ("lseg", .ofKind "lseg"),
  ("box", .ofKind "box"),
  ("path", .ofKind "path"),
  ("polygon", .ofKind "polygon"),
  ("circle", .ofKind "circle")]

/-- The type of a time spelling. It has a time zone when it says `with time zone` and does not say
`without`. -/
def timeOf? (spelling : String) : Except Failure (Option ColumnType) :=
  match ["timestamp", "time"].find? fun word => Text.startsWith word spelling with
  | some kind => do
    let precision ← intParameter? spelling
    let zone :=
      if Text.holds "with time zone" spelling && !Text.holds "without" spelling then some true
      else none
    return some { ColumnType.ofKind kind with precision := precision, withTimeZone := zone }
  | none => .ok none

/-- The type of a spelling with parameters or attributes that is no array; an unknown one is a kind
of its own, as it was written. -/
def ofSpelling (native spelling : String) : Except Failure ColumnType := do
  let starts := fun words => startsWithAny words spelling
  if starts ["numeric", "decimal"] then return refined "number" (decimalFormat spelling)
  if starts ["character varying", "varchar", "character", "char"] then
    return sized "string" (← intParameter? spelling)
  if let some column ← timeOf? spelling then return column
  return .ofKind native

/-- The type a spelling without array suffixes stands for. -/
def itemOfNative (native : String) : Except Failure ColumnType :=
  let spelling := normalize native
  match exact.get? spelling with
  | some column => .ok column
  | none => ofSpelling native spelling

/-- The number of array suffixes at the end of a text, which is given from its end, and the text
before them. Blanks behind a suffix do not count; those behind the remaining text are kept. -/
def peel : List Char → Nat × List Char
  | [] => (0, [])
  | ']' :: '[' :: rest =>
    let (n, base) := peel rest
    (n + 1, base)
  | c :: rest =>
    if Text.isBlank c then
      match peel rest with
      | (0, _) => (0, c :: rest)
      | layers => layers
    else (0, c :: rest)

/-- An array type over `n` layers. -/
def nested : Nat → ColumnType → ColumnType
  | 0, c => c
  | n + 1, c => { ColumnType.ofKind "array" with arrayOf := some (nested n c) }

/-- The type a spelling stands for. -/
def ofNative (native : String) : Except Failure ColumnType :=
  let (layers, base) := peel native.toList.reverse
  let item := if layers = 0 then base.reverse else Text.trimFront base.reverse
  (itemOfNative (String.ofList item)).map (nested layers)

/-- The longest text that is written with its length. -/
def lengthLimit : Int := 10485760

/-- The spelling of a number type. -/
def numberNative (format : Option String) : String :=
  match format with
  | some f =>
    if isExactFormat f then "numeric" ++ parenthesised f
    else if f = "double" then "double precision"
    else "real"
  | none => "real"

/-- The spelling of a text type. -/
def textNative (format : Option String) (length : Option Int) : Except Failure String :=
  if (format.filter textFormats.contains).isSome then .ok "text"
  else
    match (nonZero? length).filter (· ≤ lengthLimit) with
    | some n => withNumber "varchar" n
    | none => .ok "text"

/-- The spelling of a time type, which always says whether there is a time zone. -/
def timeNative (word : String) (precision : Option Int) (withTimeZone : Option Bool) :
    Except Failure String :=
  (withPrecision word precision).map
    (· ++ if withTimeZone = some true then " with time zone" else " without time zone")

/-- The spelling of a type; a kind the engine does not know is written as it stands. A length or a
precision that has too many digits is refused. -/
def toNative : ColumnType → Except Failure String
  | ⟨kind, format, maxLength, precision, withTimeZone, arrayOf, _⟩ =>
    match kind with
    | "integer" =>
      match format with
      | some "int8" => .ok "smallint"
      | some "int16" => .ok "smallint"
      | some "int64" => .ok "bigint"
      | _ => .ok "integer"
    | "number" => .ok (numberNative format)
    | "string" => textNative format maxLength
    | "serial" =>
      match format with
      | some "int64" => .ok "bigserial"
      | some "int16" => .ok "smallserial"
      | _ => .ok "serial"
    | "timestamp" => timeNative "timestamp" precision withTimeZone
    | "datetime" => timeNative "timestamp" precision withTimeZone
    | "time" => timeNative "time" precision withTimeZone
    | "year" => .ok "smallint"
    | "binary" => .ok "bytea"
    | "varbinary" => .ok "bytea"
    | "array" =>
      match arrayOf with
      | some c => (toNative c).map (· ++ "[]")
      | none => .ok kind
    | _ => .ok kind

end TableOps.NativeType.Postgres
