import TableOps.Failure
import TableOps.Value.Items

/-!
# Values as mappings

A mapping may be given as such or as a list of pairs of a name and a value.

* `Value.itemsOf`, `Value.toText` — the items of a value that has to have some, and the text of one
  that has to be a text.
* `Value.toMapping` — the mapping a value stands for.
-/

namespace TableOps.Value

/-- The items of a value that has to have some. -/
def itemsOf (v : Value) : Except Failure (List Value) :=
  match v.items? with
  | some items => .ok items
  | none => .error .wrongKind

/-- The text of a value that has to be one. -/
def toText : Value → Except Failure String
  | .text s => .ok s
  | _ => .error .unsupportedValue

/-- The member a pair stands for. A name that is no text is never looked up, so such a pair
stands for no member. -/
def memberOf (name v : Value) : Except Failure (List (String × Value)) :=
  match name with
  | .text name => .ok [(name, v)]
  | .list _ | .map _ => .error .wrongKind
  | _ => .ok []

/-- The members that a list of pairs stands for, the first pair being the `i`-th. -/
def membersFrom (i : Nat) : List Value → Except Failure (List (String × Value))
  | [] => .ok []
  | pair :: rest => do
    match ← itemsOf pair with
    | [name, v] => return (← memberOf name v) ++ (← membersFrom (i + 1) rest)
    | items => throw (.input (.notAPair i items.length))

/-- The mapping a value stands for: itself, or a list of pairs. -/
def toMapping : Value → Except Failure (Entries Value)
  | .map members => .ok members
  | v => do return Entries.ofPairs (← membersFrom 0 (← itemsOf v))

end TableOps.Value
