import TableOps.Check

/-!
# Column types

The type of a column, described without reference to an engine: a kind such as `integer`, `string`
or `timestamp` with the attributes that refine it, and the options of the column. A kind that no
engine knows passes through unchanged.

* `ColumnOptions`, `ColumnType` — options and type; `ofValue` reads them from plain data.
* `ColumnType.members`, `ColumnType.describe` — the plain form, with null for what is not set and
  without it.
* `ColumnChange` — a column as it is to be, perhaps under a new name.
-/

namespace TableOps

/-- What holds for a column besides its type. -/
structure ColumnOptions where
  unsigned : Option Bool
  notNull : Option Bool
  /-- The default value; null is none. -/
  default : Value
  autoIncrement : Option Bool
  comment : Option String
  deriving Repr

namespace ColumnOptions

/-- Nothing is said. -/
def none : ColumnOptions :=
  ⟨.none, .none, .null, .none, .none⟩

/-- Options from their members, some of which have a second name. -/
def ofMembers (members : Entries Value) : Check ColumnOptions :=
  ColumnOptions.mk
    <$> Check.optional ["unsigned"] Check.bool members
    <*> Check.optional ["notNull", "not_null"] Check.bool members
    <*> Check.withDefault ["default"] .null Check.any members
    <*> Check.optional ["autoInc", "auto_increment"] Check.bool members
    <*> Check.optional ["comment"] Check.text members

/-- Every member, null for what is not said. -/
def members (o : ColumnOptions) : Entries Value :=
  [("unsigned", .ofBool? o.unsigned), ("not_null", .ofBool? o.notNull), ("default", o.default),
    ("auto_increment", .ofBool? o.autoIncrement), ("comment", .ofText? o.comment)]

/-- The plain form, without what is not said. -/
def describe (o : ColumnOptions) : Entries Value :=
  let flag (name : String) (b : Option Bool) : List (String × Value) :=
    (b.map fun b => (name, Value.bool b)).toList
  flag "unsigned" o.unsigned ++ flag "not_null" o.notNull ++
    (if o.default.isNull then [] else [("default", o.default)]) ++
    flag "auto_increment" o.autoIncrement ++
    (o.comment.map fun s => ("comment", Value.text s)).toList

/-- Nothing is said. -/
def isEmpty (o : ColumnOptions) : Bool :=
  o.describe.isEmpty

end ColumnOptions

/-- The type of a column. -/
structure ColumnType where
  kind : String
  format : Option String
  maxLength : Option Int
  precision : Option Int
  withTimeZone : Option Bool
  /-- The type of the items of an array. -/
  arrayOf : Option ColumnType
  options : ColumnOptions
  deriving Repr

namespace ColumnType

/-- A kind with nothing else. -/
def ofKind (kind : String) : ColumnType :=
  ⟨kind, none, none, none, none, none, .none⟩

/-- The members of a type apart from the type of its items. -/
def ofMembersWith (arrayOf : Check (Option ColumnType)) (members : Entries Value) :
    Check ColumnType :=
  ColumnType.mk
    <$> Check.required ["type"] Check.text members
    <*> Check.optional ["format"] Check.text members
    <*> Check.optional ["maxLength", "max_length"] Check.int members
    <*> Check.optional ["precision"] Check.int members
    <*> Check.optional ["withTimeZone", "with_time_zone"] Check.bool members
    <*> arrayOf
    <*> Check.withDefault ["options"] .none (Check.instanceOf ColumnOptions.ofMembers) members

mutual

/-- The type that plain data describes, unless more than `room` types lie one inside the other. -/
def ofValueWithin (room : Nat) (v : Value) : Check ColumnType :=
  if room = 0 then Check.problem .tooDeep
  else
    match v with
    | .map members =>
      ofMembersWith
        (((items? (room - 1) "arrayOf" members).orElse fun _ =>
          items? (room - 1) "array_of" members).getD (.ok none))
        members
    | _ => Check.problem .notInstance

/-- The type of the items, when `name` is a member. -/
def items? (room : Nat) (name : String) :
    List (String × Value) → Option (Check (Option ColumnType))
  | [] => none
  | (key, v) :: rest =>
    if key = name then
      some (Check.within (.member name)
        (match v with
          | .null => .ok none
          | v => Check.map some (ofValueWithin room v)))
    else items? room name rest

end

/-- The number of types that may lie one inside the other. -/
def nestingLimit : Nat := 255

/-- The type that plain data describes. -/
def ofValue (v : Value) : Check ColumnType :=
  ofValueWithin nestingLimit v

/-- Every member, null for what is not set. -/
def members : ColumnType → Entries Value
  | ⟨kind, format, maxLength, precision, withTimeZone, arrayOf, options⟩ =>
    [("type", .text kind), ("format", .ofText? format), ("max_length", .ofInt? maxLength),
      ("precision", .ofInt? precision), ("with_time_zone", .ofBool? withTimeZone),
      ("array_of", match arrayOf with
        | none => .null
        | some c => .map c.members),
      ("options", .map options.members)]

/-- The attributes that refine the kind, without what is not set. -/
def attributes (c : ColumnType) : Entries Value :=
  [("type", .text c.kind)] ++
    (c.format.map fun s => ("format", Value.text s)).toList ++
    (c.maxLength.map fun n => ("max_length", Value.int n)).toList ++
    (c.precision.map fun n => ("precision", Value.int n)).toList ++
    (c.withTimeZone.map fun b => ("with_time_zone", Value.bool b)).toList

/-- The options as a member, unless there are none. -/
def optionsMember (c : ColumnType) : Entries Value :=
  if c.options.isEmpty then [] else [("options", .map c.options.describe)]

/-- The plain form, without what is not set. -/
def describe : ColumnType → Entries Value
  | ⟨kind, format, maxLength, precision, withTimeZone, arrayOf, options⟩ =>
    attributes ⟨kind, format, maxLength, precision, withTimeZone, none, options⟩ ++
      (match arrayOf with
        | none => []
        | some c => [("array_of", .map c.describe)]) ++
      optionsMember ⟨kind, format, maxLength, precision, withTimeZone, none, options⟩

end ColumnType

/-- A column as it is to be, perhaps under a new name. -/
structure ColumnChange where
  column : ColumnType
  newName : Option String
  deriving Repr

namespace ColumnChange

/-- A changed column: the members of a type, and the new name as `title` or `new_name`. It may hold
as many types one inside the other as a column may. -/
def ofValue (v : Value) : Check ColumnChange :=
  match v with
  | .map members =>
    ColumnChange.mk
      <$> ColumnType.ofValueWithin (ColumnType.nestingLimit + 1) v
      <*> Check.optional ["title", "new_name"] Check.text members
  | _ => Check.problem .notInstance

/-- Every member, null for what is not set. -/
def members (c : ColumnChange) : Entries Value :=
  c.column.members ++ [("new_name", .ofText? c.newName)]

/-- The plain form, without what is not set. -/
def describe (c : ColumnChange) : Entries Value :=
  c.column.describe ++ (c.newName.map fun s => ("new_name", Value.text s)).toList

end ColumnChange

end TableOps
