import TableOps.Definition.Column
import TableOps.Schema.Change

/-!
# Statements that change a table

A change is first broken into clauses, one for every entry. They are put into words one after the
other, which the first one that has no wording ends, and are then gathered into statements. One engine
takes all of them in one statement; the other has statements of their own for indexes and renamed
columns, which follow the rest.

* `Clause` — one change; `Clause.text` is its wording, if it has one.
* `Engine.clauses` — the clauses of a change.
* `Engine.gather` — the statements of clauses that were put into words.
* `Engine.alterTable` — the statements of a change.
-/

namespace TableOps

/-- One change of a table. -/
inductive Clause where
  | addColumn (name : String) (column : ColumnType)
  | addIndex (name : String) (index : Index)
  | addForeignKey (name : String) (key : ForeignKey)
  /-- A column defined anew, perhaps under another name. -/
  | redefine (name : String) (newName : Option String) (column : ColumnType)
  | setType (name : String) (column : ColumnType)
  | setNotNull (name : String) (notNull : Bool)
  | setDefault (name : String) (default : Value)
  | renameColumn (name newName : String)
  | dropColumn (name : String)
  | dropIndex (name : String)
  | dropForeignKey (name : String)
  deriving Repr

namespace Clause

/-- The wording of an added index behind the word `INDEX`. -/
def uniqueLead (index : Index) : String :=
  if index.unique then "UNIQUE " else ""

/-- The wording of an added foreign key, whose reference has to name a table and a column. -/
def foreignKeyText (engine : Engine) (name : String) (key : ForeignKey) : Except Failure String :=
  match Text.cutLastOf? '.' key.reference with
  | some (table, column) =>
    .ok ("ADD CONSTRAINT " ++ engine.identifier name ++ " FOREIGN KEY (" ++
      engine.identifier key.key ++ ") REFERENCES " ++ engine.identifier table ++ " (" ++
      engine.identifier column ++ ") ON DELETE " ++ Text.upper key.onDelete ++ " ON UPDATE " ++
      Text.upper key.onUpdate)
  | none => .error (.schema (.unqualifiedForeignKey key.reference))

/-- The wording of a clause for the table `table`. -/
def text (engine : Engine) (table : String) : Clause → Except Failure String
  | .addColumn name c => (engine.columnDefinition name c).map ("ADD COLUMN " ++ ·)
  | .addIndex name index =>
    match engine with
    | .mysql =>
      .ok ("ADD " ++ uniqueLead index ++ "INDEX " ++ engine.identifier name ++ " (" ++
        engine.identifiers index.columns ++ ")")
    | .postgres =>
      .ok ("CREATE " ++ uniqueLead index ++ "INDEX " ++ engine.identifier name ++ " ON " ++
        engine.identifier table ++ " (" ++ engine.identifiers index.columns ++ ")")
  | .addForeignKey name key => foreignKeyText engine name key
  | .redefine name newName c =>
    let lead :=
      match newName with
      | some new =>
        "CHANGE COLUMN " ++ engine.identifier name ++ " " ++ engine.identifier new ++ " "
      | none => "MODIFY COLUMN " ++ engine.identifier name ++ " "
    (engine.typeWithOptions c).map (lead ++ ·)
  | .setType name c =>
    (engine.toNative c).map ("ALTER COLUMN " ++ engine.identifier name ++ " TYPE " ++ ·)
  | .setNotNull name notNull =>
    .ok ("ALTER COLUMN " ++ engine.identifier name ++ (if notNull then " SET" else " DROP") ++
      " NOT NULL")
  | .setDefault name v =>
    (defaultLiteral v).map ("ALTER COLUMN " ++ engine.identifier name ++ " SET DEFAULT " ++ ·)
  | .renameColumn name new =>
    .ok ("ALTER TABLE " ++ engine.identifier table ++ " RENAME COLUMN " ++
      engine.identifier name ++ " TO " ++ engine.identifier new)
  | .dropColumn name => .ok ("DROP COLUMN " ++ engine.identifier name)
  | .dropIndex name => .ok ("DROP INDEX " ++ engine.identifier name)
  | .dropForeignKey name =>
    match engine with
    | .mysql => .ok ("DROP FOREIGN KEY " ++ engine.identifier name)
    | .postgres => .ok ("DROP CONSTRAINT " ++ engine.identifier name)

/-- A clause with its wording. -/
def worded (engine : Engine) (table : String) (c : Clause) : Except Failure (Clause × String) :=
  (c.text engine table).map fun text => (c, text)

/-- The clause is a statement of its own. -/
def standsAlone (engine : Engine) : Clause → Bool
  | .addIndex .. | .renameColumn .. | .dropIndex .. => engine == .postgres
  | _ => false

end Clause

namespace Engine

/-- The clauses of what is added. -/
def additionClauses (engine : Engine) (a : Additions) : List Clause :=
  let columns := a.columns.map fun (name, c) => Clause.addColumn name c
  let indexes := a.indexes.map fun (name, i) => Clause.addIndex name i
  let keys := a.foreignKeys.map fun (name, k) => Clause.addForeignKey name k
  match engine with
  | .mysql => columns ++ indexes ++ keys
  | .postgres => columns ++ keys ++ indexes

/-- The clauses of one altered column. -/
def alterationClauses (engine : Engine) (name : String) (c : ColumnChange) : List Clause :=
  let newName := c.newName.filter (!·.isEmpty)
  match engine with
  | .mysql => [.redefine name newName c.column]
  | .postgres =>
    let o := c.column.options
    [.setType name c.column] ++ (o.notNull.map (Clause.setNotNull name)).toList ++
      (if o.default.isNull then [] else [.setDefault name o.default]) ++
      (newName.map (Clause.renameColumn name)).toList

/-- The clauses of what is dropped. -/
def removalClauses (engine : Engine) (r : Removals) : List Clause :=
  let indexes := r.indexes.map Clause.dropIndex
  let keys := r.foreignKeys.map Clause.dropForeignKey
  r.columns.map Clause.dropColumn ++
    (match engine with
      | .mysql => indexes ++ keys
      | .postgres => keys ++ indexes)

/-- The clauses of a change in order. -/
def clauses (engine : Engine) (t : TableChange) : List Clause :=
  let added := match t.add with
    | some a => engine.additionClauses a
    | none => []
  let altered := match t.alter with
    | some a => a.columns.flatMap fun (name, c) => engine.alterationClauses name c
    | none => []
  let dropped := match t.drop with
    | some r => engine.removalClauses r
    | none => []
  added ++ altered ++ dropped

/-- Clauses in words, gathered into statements: those that do not stand alone share the first one. -/
def gather (engine : Engine) (table : String) (worded : List (Clause × String)) : List String :=
  let shared := (worded.filter (!·.1.standsAlone engine)).map Prod.snd
  let alone := (worded.filter (·.1.standsAlone engine)).map Prod.snd
  if shared.isEmpty then alone
  else ("ALTER TABLE " ++ engine.identifier table ++ " " ++ String.intercalate ",\n  " shared) ::
    alone

/-- The statements of a change in the order in which they are to be run. -/
def alterTable (engine : Engine) (t : TableChange) : Except Failure (List String) := do
  let worded ← (engine.clauses t).mapM (Clause.worded engine t.title)
  return engine.gather t.title worded

end Engine

end TableOps
