import TableOps.Expression.Basic
import TableOps.Page
import TableOps.Schema.Table

/-!
# Commands

A command asks for one operation on one expression, with the data to write and the query values
its filter looks up.

* `Operation` — what may be asked for.
* `Target` — the expression of a command: given with it, shared, or stored under a path.
* `Command` — the command; `Command.members` shows it, `Command.request` pairs it with its
  expression.
* `Request` — a command whose expression is known, ready to be made a statement.
-/

namespace TableOps

/-- What a command asks for. -/
inductive Operation where
  | query
  | list
  | insert
  | update
  | delete
  deriving DecidableEq, Repr

namespace Operation

/-- The name of an operation. -/
def name : Operation → String
  | .query => "query"
  | .list => "list"
  | .insert => "insert"
  | .update => "update"
  | .delete => "delete"

/-- The operation of a name. -/
def ofName? : String → Option Operation
  | "query" => some .query
  | "list" => some .list
  | "insert" => some .insert
  | "update" => some .update
  | "delete" => some .delete
  | _ => none

end Operation

/-- The expression of a command. -/
inductive Target where
  /-- Given with the command. -/
  | given (e : Expression)
  /-- An expression of the session, which other commands may use as well. -/
  | shared (id : ExpressionId)
  /-- Stored under a path. -/
  | stored (path : String)

/-- One operation on one expression. -/
structure Command where
  operation : Operation
  target : Target
  data : Option (Entries Value)
  query : Entries Value
  page : Option Page
  /-- The columns to keep of those the expression selects. -/
  fields : Option (List String)
  /-- The connection to run on; null is one of the pool. -/
  connection : Value
  /-- Forget the cached total first. -/
  refresh : Bool
  schema : Option TableSchema
  debug : Bool

/-- The expression of a command as it is shown. -/
def Target.shown : Target → Value
  | .given e => .map e.state
  | .shared id => .expression id
  | .stored path => .text path

/-- Every member of a command, null for what it lacks. -/
def Command.members (c : Command) : Entries Value :=
  [("operation", .text c.operation.name), ("expression", c.target.shown),
    ("data", .orNull .map c.data), ("query", .map c.query),
    ("range", .orNull (fun p => .map p.members) c.page),
    ("fields", .orNull Value.ofTexts c.fields), ("refresh_cache", .bool c.refresh),
    ("debug", .bool c.debug), ("table_schema", .orNull (fun s => .map s.describe) c.schema),
    ("connection", c.connection)]

/-- A command with its expression, ready to be made a statement. -/
structure Request where
  expression : Expression
  data : Option (Entries Value)
  query : Entries Value
  fields : Option (List String)
  page : Option Page
  schema : Option TableSchema

/-- The command with its expression known. -/
def Command.request (c : Command) (e : Expression) : Request :=
  ⟨e, c.data, c.query, c.fields, c.page, c.schema⟩

end TableOps
