/-!
# Problems found by checking

Checking plain data against a model finds all its problems at once. A problem says where it lies
and what is wrong there.

* `Place` — one step on the way to a problem: a member or an item.
* `Defect` — what is wrong; `Defect.code` is its short name.
* `Problem` — a defect and the way to it.
-/

namespace TableOps

/-- One step into plain data. -/
inductive Place where
  | member (name : String)
  | item (index : Nat)
  /-- The member whose name is a number. -/
  | numbered (key : Int)
  /-- The name of a member, as opposed to its value. -/
  | name
  deriving DecidableEq, Repr

/-- What is wrong with a piece of plain data. -/
inductive Defect where
  | notText
  | notBool
  | unreadableBool
  | notInt
  | unreadableInt
  | oversizedInt
  | fractionalInt
  | notFinite
  | notMapping
  | notList
  | missing
  | notInstance
  | tooSmall
  /-- Too many pieces of data lie one inside the other. -/
  | tooDeep
  /-- The data has the right form and is refused for the reason given. -/
  | refused (reason : String)
  deriving DecidableEq, Repr

/-- The short name of a defect. -/
def Defect.code : Defect → String
  | .notText => "string_type"
  | .notBool => "bool_type"
  | .unreadableBool => "bool_parsing"
  | .notInt => "int_type"
  | .unreadableInt => "int_parsing"
  | .oversizedInt => "int_parsing_size"
  | .fractionalInt => "int_from_float"
  | .notFinite => "finite_number"
  | .notMapping => "dict_type"
  | .notList => "list_type"
  | .missing => "missing"
  | .notInstance => "model_type"
  | .tooSmall => "greater_than_equal"
  | .tooDeep => "recursion_loop"
  | .refused _ => "value_error"

/-- A defect and the way to it from the outside in. -/
structure Problem where
  path : List Place
  defect : Defect
  deriving DecidableEq, Repr

/-- The problem seen from one step further out. -/
def Problem.within (place : Place) (p : Problem) : Problem :=
  { p with path := place :: p.path }

end TableOps
