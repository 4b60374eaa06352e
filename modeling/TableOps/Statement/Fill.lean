import TableOps.Command.Basic
import TableOps.Dialect

/-!
# Filling in from the schema

An expression without columns or without a filter gets them from the schema of its table: all
columns for a read, those with data for a write, and a filter that compares every query value that
has a column.

* `needsSchema` — the schema has to be known to run a command.
* `autoFill` — the expression with the columns and the filter that the schema supplies.
-/

namespace TableOps

/-- The schema of the table is needed to run a command. -/
def needsSchema (d : Dialect) (c : Command) (e : Expression) : Bool :=
  d.engine.requiresSchema || c.operation == .insert ||
    (e.columns.isEmpty && c.operation != .delete) || (e.filter.isNone && !c.query.isEmpty)

/-- The keys that name columns, of which a write has to have one. -/
def writableKeys (table : TableRef) (operation : Operation) (columns keys : List String) :
    Except Failure (List String) :=
  match keys.filter columns.contains with
  | [] => .error (.noWritableColumns table.name operation.name)
  | writable => .ok writable

/-- The columns that a schema supplies to an expression without any. -/
def suppliedColumns (c : Command) (e : Expression) (columns : List String) :
    Except Failure (Option (List String)) :=
  if !e.columns.isEmpty then .ok none
  else
    match c.operation with
    | .query | .list => .ok (some columns)
    | .insert | .update => some <$> writableKeys e.table c.operation columns (c.data.getD []).keys
    | .delete => .ok none

/-- Equality with the query value of every key that names a column. -/
def comparisons (columns keys : List String) : Option Filter :=
  Filter.join? .and ((keys.filter columns.contains).map fun key => .leaf (.equals key))

/-- An expression with the columns and filters that the schema supplies. -/
def autoFill (c : Command) (e : Expression) (schema : TableSchema) : Except Failure Expression := do
  let columns ← suppliedColumns c e schema.columnNames
  return e.derive { Changes.none with
    columns := columns
    filter := some (e.filter.or (comparisons schema.columnNames c.query.keys)) }

end TableOps
