import TableOps.Definition.Column
import TableOps.Schema.Table

/-!
# Table definitions

* `Engine.createTable` — the definition of a table.
* `Engine.dropTable`, `Engine.renameTable` — dropping and renaming it.
-/

namespace TableOps

namespace Engine

/-- An option of a table that counts as present, written behind `label`. -/
def tableOption (options : Entries Value) (name label : String)
    (write : Value → Except Failure String) : Except Failure String :=
  match (options.get? name).filter Value.truthy with
  | some v => (write v).map (label ++ ·)
  | none => .ok ""

/-- The clauses of a table's options. -/
def tableOptions (engine : Engine) (options : Entries Value) : Except Failure String :=
  match engine with
  | .mysql => do
    return (← tableOption options "engine" " ENGINE=" Value.asText) ++
      (← tableOption options "charset" " DEFAULT CHARSET=" Value.asText) ++
      (← tableOption options "collation" " COLLATE=" Value.asText) ++
      (← tableOption options "comment" " COMMENT=" defaultLiteral)
  | .postgres => .ok ""

/-- The definition of a table from its schema. -/
def createTable (engine : Engine) (s : TableSchema) : Except Failure String := do
  s.requireCreatable
  let columns ← s.columns.mapM fun (name, c) => engine.columnDefinition name c
  let lines := columns ++ ["PRIMARY KEY (" ++ engine.identifiers s.primaryKey ++ ")"]
  let options ← engine.tableOptions s.options
  return "CREATE TABLE " ++ engine.identifier s.title ++ " (\n  " ++
    String.intercalate ",\n  " lines ++ "\n)" ++ options

/-- The statement that drops a table. -/
def dropTable (engine : Engine) (name : String) : String :=
  "DROP TABLE " ++ engine.identifier name

/-- The statement that renames a table. -/
def renameTable (engine : Engine) (old new : String) : String :=
  match engine with
  | .mysql => "RENAME TABLE " ++ engine.identifier old ++ " TO " ++ engine.identifier new
  | .postgres =>
    "ALTER TABLE " ++ engine.identifier old ++ " RENAME TO " ++ engine.identifier new

end Engine

end TableOps
