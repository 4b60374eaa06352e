import TableOps.NativeType
import TableOps.Value.Written

/-!
# Column definitions

How a column is written in a definition: its name, its native type and its options.

* `defaultLiteral` — a value as a literal; some keywords stand for themselves.
* `Engine.columnOptions` — the clauses of the options, engine by engine.
* `Engine.columnDefinition` — the whole definition.
-/

namespace TableOps

/-- The defaults that are written without quotes. -/
def defaultKeywords : List String :=
  ["CURRENT_TIMESTAMP", "CURRENT_DATE", "CURRENT_TIME", "NOW()", "NULL"]

/-- A text as a literal: a keyword in upper case, any other text quoted. -/
def textLiteral (s : String) : String :=
  let keyword := Text.upper s
  if defaultKeywords.contains keyword then keyword else Text.quoted '\'' s

/-- A value as a literal: truth values and numbers bare, anything else as text. A whole number with
too many digits is refused, also one inside a value. -/
def defaultLiteral : Value → Except Failure String
  | .bool b => .ok (if b then "TRUE" else "FALSE")
  | .int n => Integer.digits n
  | .float x => .ok x.text
  | v => v.asText.map textLiteral

namespace Engine

/-- A name between the quote marks of the engine. -/
def identifier (engine : Engine) (name : String) : String :=
  Text.quoted engine.quoteMark name

/-- Names between the quote marks of the engine, separated by commas. -/
def identifiers (engine : Engine) (names : List String) : String :=
  String.intercalate ", " (names.map engine.identifier)

/-- The clause of a default, which may be missing. -/
def defaultClause (v : Value) : Except Failure String :=
  if v.isNull then .ok "" else (defaultLiteral v).map (" DEFAULT " ++ ·)

/-- The clauses that every engine writes. -/
def commonOptions (o : ColumnOptions) : Except Failure String :=
  (defaultClause o.default).map ((if o.notNull = some true then " NOT NULL" else "") ++ ·)

/-- The clauses of a column's options. -/
def columnOptions (engine : Engine) (o : ColumnOptions) : Except Failure String :=
  match engine with
  | .mysql =>
    (commonOptions o).map fun common =>
      common ++ (if o.autoIncrement = some true then " AUTO_INCREMENT" else "") ++
        (match o.comment.filter (!·.isEmpty) with
          | some comment => " COMMENT " ++ textLiteral comment
          | none => "")
  | .postgres => commonOptions o

/-- The native type of a column with its options. -/
def typeWithOptions (engine : Engine) (c : ColumnType) : Except Failure String := do
  return (← engine.toNative c) ++ (← engine.columnOptions c.options)

/-- The definition of a column. -/
def columnDefinition (engine : Engine) (name : String) (c : ColumnType) : Except Failure String :=
  (engine.typeWithOptions c).map (engine.identifier name ++ " " ++ ·)

end Engine

end TableOps
