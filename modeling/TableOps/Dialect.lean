import TableOps.Reference.Column
import TableOps.Reference.Table
import TableOps.Text.Quoted

/-!
# Dialects

A dialect is an engine together with the way its driver marks bound values. It decides how names
are quoted, how placeholders look and how raw text is written.

* `Engine`, `Style` — the engines and the placeholder styles; `Engine.styles` says which of them
  go together.
* `Dialect` — an engine with one of its styles.
* `Dialect.identifier`, `Dialect.columnText`, `Dialect.tableText`, `Dialect.raw`,
  `Dialect.placeholder` — names, columns, tables, raw text and placeholders as they are written.
* `Dialect.ofScheme` — the dialect for the scheme of a URL.
-/

namespace TableOps

/-- The database engines. -/
inductive Engine where
  | mysql
  | postgres
  deriving DecidableEq, Repr

/-- The ways of marking bound values in a statement. -/
inductive Style where
  /-- Every value is marked `%s`; a percent sign of the statement itself is written twice. -/
  | format
  /-- Every value is marked `?`. -/
  | qmark
  /-- The n-th value is marked `$n`. -/
  | numeric
  deriving DecidableEq, Repr

/-- The name of a style. -/
def Style.name : Style → String
  | .format => "format"
  | .qmark => "qmark"
  | .numeric => "numeric"

/-- The way a list obtains its total. -/
inductive CountStrategy where
  /-- A second statement counts the rows. -/
  | secondQuery
  /-- A column of the page itself carries the total. -/
  | window
  deriving DecidableEq, Repr

namespace Engine

/-- The styles the engine's driver knows, its own first. -/
def styles : Engine → List Style
  | .mysql => [.format, .qmark]
  | .postgres => [.format, .numeric]

/-- The URL schemes of the engine, its name first. -/
def schemes : Engine → List String
  | .mysql => ["mysql", "mariadb"]
  | .postgres => ["postgresql", "postgres"]

/-- The name of the engine. -/
def name : Engine → String
  | .mysql => "mysql"
  | .postgres => "postgresql"

/-- The name of the engine's dialect. -/
def dialectName : Engine → String
  | .mysql => "MysqlDialect"
  | .postgres => "PostgresDialect"

/-- The mark around quoted names. -/
def quoteMark : Engine → Char
  | .mysql => '\x60'
  | .postgres => '"'

/-- The way a paged list of the engine obtains its total. -/
def countStrategy : Engine → CountStrategy
  | .mysql => .secondQuery
  | .postgres => .window

/-- Every command needs the schema of its table. -/
def requiresSchema : Engine → Bool
  | .mysql => false
  | .postgres => true

end Engine

/-- An engine with one of the placeholder styles it knows. -/
structure Dialect where
  engine : Engine
  style : Style
  known : style ∈ engine.styles
  deriving DecidableEq, Repr

namespace Dialect

/-- The engine with its own style. -/
def standard : Engine → Dialect
  | .mysql => ⟨.mysql, .format, by decide⟩
  | .postgres => ⟨.postgres, .format, by decide⟩

/-- The engine with the style of the given name. -/
def withStyle (engine : Engine) (style : String) : Except Failure Dialect :=
  match h : engine.styles.find? (·.name == style) with
  | some s => .ok ⟨engine, s, List.mem_of_find?_eq_some h⟩
  | none =>
    .error (.invalid [⟨[.member "paramstyle"],
      .refused (InputFault.unsupportedStyle engine.dialectName style).message⟩])

/-- The engine with the style that a value names, or with its own for null. -/
def ofStyle? (engine : Engine) : Value → Except Failure Dialect
  | .null => .ok (standard engine)
  | .text style => withStyle engine style
  | _ => .error (.invalid [⟨[.member "paramstyle"], .notText⟩])

/-- The engine of a URL scheme; what follows a plus sign names a driver and does not count. -/
def engineOfScheme? (scheme : String) : Option Engine :=
  let head := Text.fold (String.ofList (scheme.toList.takeWhile (· ≠ '+')))
  [Engine.mysql, .postgres].find? fun engine => engine.schemes.contains head

/-- The dialect for a URL scheme; an empty style is no style. -/
def ofScheme (scheme : String) (style : Value) : Except Failure Dialect :=
  match engineOfScheme? scheme with
  | some engine => ofStyle? engine (if style.truthy then style else .null)
  | none => .error (.configuration (.unsupportedScheme scheme))

/-- A quoted name. -/
def identifier (d : Dialect) (name : String) : String :=
  Text.quoted d.engine.quoteMark name

/-- Text as the caller wrote it; a percent sign is written twice where one alone would be read as
the start of a placeholder. -/
def raw (d : Dialect) (text : String) : String :=
  match d.style with
  | .format => String.ofList (Text.doubled '%' text.toList)
  | _ => text

/-- A path quoted part by part; a star stays bare. -/
def path (d : Dialect) (path : String) : String :=
  String.intercalate "." ((Reference.pathParts path).map fun part =>
    if part = "*" then part else d.identifier part)

/-- The expression of a column reference: paths are quoted, alone or behind `DISTINCT`, anything
else is raw text. -/
def columnExpression (d : Dialect) (expression : String) : String :=
  if Reference.isIdentifierPath expression then d.path expression
  else
    match (Reference.afterDistinct? expression).filter Reference.isIdentifierPath with
    | some column => "DISTINCT " ++ d.path column
    | none => d.raw expression

/-- A column reference with its alias. -/
def columnText (d : Dialect) (ref : String) : String :=
  let (expression, aliasName) := Reference.splitAlias ref
  match aliasName with
  | some aliasName => d.columnExpression expression ++ " AS " ++ d.identifier aliasName
  | none => d.columnExpression expression

/-- A table with its alias. -/
def tableText (d : Dialect) (t : TableRef) : String :=
  match t.aliasText? with
  | some aliasName => d.identifier t.name ++ " AS " ++ d.identifier aliasName
  | none => d.identifier t.name

/-- The mark of a bound value; only the numeric style shows its label. -/
def mark (d : Dialect) (label : String) : String :=
  match d.style with
  | .format => "%s"
  | .qmark => "?"
  | .numeric => "$" ++ label

/-- The placeholder of the `n`-th bound value, counted from 1. -/
def placeholder (d : Dialect) (n : Nat) : String :=
  d.mark (toString n)

end Dialect

end TableOps
