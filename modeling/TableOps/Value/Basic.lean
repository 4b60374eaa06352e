import TableOps.Entries
import TableOps.Number.Binary64

/-!
# Values

The data that commands, conditions and rows carry. Besides plain data a value may name a column,
be a transformer, refer to an object of a session, or be a page, schema or table change that has
already been checked.

* `Value` — the values; `Value.truthy` says which of them count as present.
* `Transformer` — the functions that may be attached to a column.
* `ExpressionId`, `ConnectionId`, `DatabaseId` — references to the objects of a session.
-/

namespace TableOps

/-- A reference to a query expression of a session. -/
structure ExpressionId where
  index : Nat
  deriving DecidableEq, Repr

/-- A reference to a connection of a session. -/
structure ConnectionId where
  index : Nat
  deriving DecidableEq, Repr

/-- A reference to a database of a session. -/
structure DatabaseId where
  index : Nat
  deriving DecidableEq, Repr

/-- A reference to a function of a session. It may be attached to a column, and is then applied to
the value of the column in each row. -/
structure Transformer where
  name : String
  deriving DecidableEq, Repr

/-- What a checked value is an instance of. -/
inductive Model where
  | page
  | schema
  | change
  deriving DecidableEq, Repr

/-- The data that commands, conditions and rows carry. -/
inductive Value where
  | null
  | bool (b : Bool)
  | int (n : Int)
  | float (x : Binary64)
  | text (s : String)
  | list (items : List Value)
  | map (members : List (String × Value))
  /-- A column of the statement, as opposed to a value bound to it. -/
  | column (name : String)
  | transformer (t : Transformer)
  | expression (id : ExpressionId)
  | connection (id : ConnectionId)
  | database (id : DatabaseId)
  /-- A plain form that has passed the checks of a model. -/
  | checked (model : Model) (plain : Value)
  deriving Repr

namespace Value

/-- The value counts as present: it is not null, false, zero or empty. -/
def truthy : Value → Bool
  | .null => false
  | .bool b => b
  | .int n => n != 0
  | .float x => !x.isZero
  | .text s => !s.isEmpty
  | .list items => !items.isEmpty
  | .map members => !members.isEmpty
  | _ => true

/-- The value is the null value. -/
def isNull : Value → Bool
  | .null => true
  | _ => false

/-- The text, when the value is one. -/
def text? : Value → Option String
  | .text s => some s
  | _ => none

/-- The members, when the value is a mapping. -/
def map? : Value → Option (Entries Value)
  | .map members => some members
  | _ => none

/-- The value of something that may be missing, null when it is. -/
def orNull {α : Type} (form : α → Value) : Option α → Value
  | some a => form a
  | none => .null

/-- A text, or null when there is none. -/
def ofText? : Option String → Value :=
  orNull .text

/-- A truth value, or null when there is none. -/
def ofBool? : Option Bool → Value :=
  orNull .bool

/-- A whole number, or null when there is none. -/
def ofInt? : Option Int → Value :=
  orNull .int

/-- Texts as a list value. -/
def ofTexts (texts : List String) : Value :=
  .list (texts.map .text)

end Value

end TableOps
