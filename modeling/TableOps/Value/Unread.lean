import TableOps.Failure

/-!
# Unread parts

A record whose parts are replaced by values that nobody looks at keeps such a value beside the
record until the part is used.

* `Unread` — the unread values by part; they hide what the record has.
* `Unread.read` — the part of a record, or what an unread value gives in its place.
* `Unread.shows` — a part counts as present.
-/

namespace TableOps

/-- The unread values of a record by part. -/
abbrev Unread := Entries Value

namespace Unread

variable {α : Type}

/-- The part of a record, or what the unread value in its place gives. -/
def read (u : Unread) (name : String) (part : α) (other : Value → Except Failure α) :
    Except Failure α :=
  match Entries.get? u name with
  | some v => other v
  | none => .ok part

/-- The part of a record, which cannot be used while it is unread. -/
def readAs (u : Unread) (name : String) (part : α) : Except Failure α :=
  u.read name part fun _ => .error .unsupportedValue

/-- The part counts as present: the unread value does, or the part of the record when there is
none. -/
def shows (u : Unread) (name : String) (part : Bool) : Bool :=
  match Entries.get? u name with
  | some v => v.truthy
  | none => part

/-- Without unread values the parts are those of the record. -/
theorem read_nil (name : String) (part : α) (other : Value → Except Failure α) :
    read [] name part other = .ok part :=
  rfl

end Unread

end TableOps
