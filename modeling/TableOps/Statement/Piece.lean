import TableOps.Dialect

/-!
# Statements as pieces

A statement is a list of pieces: wording of its own, text of the caller, names, columns and bound
values. Only when it is written down are names quoted and placeholders numbered, so the bound
values and the placeholders of a statement correspond by construction.

* `Piece`, `Statement` — the pieces; `Statement.values` are the bound values in order.
* `Writer` — how pieces are written; `Dialect.writer` is that of a dialect.
* `Statement.writeFrom` — the text of a statement whose first placeholder has a given number.
* `Dialect.render` — the text that is sent to the driver.

Main statement: `textsFrom_append`, the placeholders of a statement go on counting where the values
before it end.
-/

namespace TableOps

/-- A piece of a statement. -/
inductive Piece where
  /-- Wording that is written as it stands. -/
  | text (s : String)
  /-- Text of the caller. -/
  | raw (s : String)
  /-- A name to be quoted. -/
  | name (s : String)
  /-- A column reference. -/
  | column (ref : String)
  /-- A table with its alias. -/
  | table (t : TableRef)
  /-- A bound value. -/
  | value (v : Value)
  deriving Repr

/-- The value a piece binds, if it binds one. -/
@[simp] def Piece.value? : Piece → Option Value
  | .value v => some v
  | _ => none

/-- The pieces of a statement in order. -/
abbrev Statement := List Piece

/-- How the pieces of a statement are written. -/
structure Writer where
  name : String → String
  column : String → String
  table : TableRef → String
  raw : String → String
  /-- The placeholder of the `n`-th bound value, counted from 1. -/
  placeholder : Nat → String

/-- The writer of a dialect. -/
def Dialect.writer (d : Dialect) : Writer :=
  ⟨d.identifier, d.columnText, d.tableText, d.raw, d.placeholder⟩

namespace Statement

/-- The bound values in order. -/
def values (s : Statement) : List Value :=
  s.filterMap Piece.value?

/-- The written pieces, with placeholders numbered from `n` on. -/
@[simp] def textsFrom (w : Writer) (n : Nat) : Statement → List String
  | [] => []
  | .text s :: ps => s :: textsFrom w n ps
  | .raw s :: ps => w.raw s :: textsFrom w n ps
  | .name s :: ps => w.name s :: textsFrom w n ps
  | .column ref :: ps => w.column ref :: textsFrom w n ps
  | .table t :: ps => w.table t :: textsFrom w n ps
  | .value _ :: ps => w.placeholder n :: textsFrom w (n + 1) ps

/-- The text of a statement whose first placeholder has the number `n`. -/
def writeFrom (w : Writer) (n : Nat) (s : Statement) : String :=
  String.join (textsFrom w n s)

/-- The text of a statement. -/
def write (w : Writer) (s : Statement) : String :=
  writeFrom w 1 s

@[simp] theorem values_nil : values [] = [] :=
  rfl

@[simp] theorem values_cons (p : Piece) (ps : Statement) :
    values (p :: ps) = p.value?.toList ++ values ps := by
  rw [values, List.filterMap_cons]
  cases p.value? <;> rfl

/-- The bound values of two statements in a row are those of the first, then those of the second. -/
@[simp] theorem values_append (s t : Statement) : values (s ++ t) = values s ++ values t := by
  simp [values]

/-- Two statements in a row are written one after the other, the second numbered on from the
values of the first. -/
@[simp] theorem textsFrom_append (w : Writer) (n : Nat) (s t : Statement) :
    textsFrom w n (s ++ t) = textsFrom w n s ++ textsFrom w (n + (values s).length) t := by
  induction s generalizing n with
  | nil => simp [values]
  | cons p ps ih =>
    cases p with
    | value v =>
      have hn : n + (values (.value v :: ps)).length = n + 1 + (values ps).length := by
        simp [values]
        omega
      rw [hn]
      simp [ih]
    | _ => simp [values, List.filterMap_cons, ih]

/-- Statements in a row with `separator` between them. -/
def separated (separator : Statement) : List Statement → Statement
  | [] => []
  | [s] => s
  | s :: ss => s ++ separator ++ separated separator ss

/-- Statements in a row, separated by commas. -/
def commaSeparated (parts : List Statement) : Statement :=
  separated [.text ", "] parts

/-- Names in a row, separated by commas. -/
def nameList (names : List String) : Statement :=
  commaSeparated (names.map fun name => [.name name])

end Statement

/-- The text of a statement as it is sent. A driver that is given no values does not read the
statement for placeholders, so percent signs are then written once. -/
def Dialect.render (d : Dialect) (s : Statement) : String :=
  let text := s.write d.writer
  if d.style = .format ∧ s.values = [] then String.ofList (Text.halved '%' text.toList) else text

end TableOps
