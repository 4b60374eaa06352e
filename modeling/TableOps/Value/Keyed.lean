import TableOps.Value.Membership

/-!
# Entries under values

A mapping whose names need not be texts. Names are the same when they are equal as data, and a name
written twice keeps its first place.

* `Keyed.put` — writing.
* `Keyed.ofPairs` — writing pairs from left to right; no collection can be a name.

Main statement: `length_put_le`, a write adds at most one entry.
-/

namespace TableOps

/-- Values of type `α` under names, in the order of first insertion. -/
abbrev Keyed (α : Type) := List (Value × α)

namespace Keyed

variable {α : Type}

/-- The entries with `a` under `name`, in its old place or at the end. -/
def put : Keyed α → Value → α → Keyed α
  | [], name, a => [(name, a)]
  | (key, old) :: rest, name, a =>
    if key.same name then (key, a) :: rest else (key, old) :: put rest name a

/-- The entries after one more pair. -/
def insert? (entries : Keyed α) (name : Value) (a : α) : Except Failure (Keyed α) :=
  if name.isName then .ok (put entries name a) else .error .wrongKind

/-- The entries written by pairs from left to right. -/
def ofPairs (pairs : List (Value × α)) : Except Failure (Keyed α) :=
  pairs.foldlM (fun entries (name, a) => insert? entries name a) []

/-- A write adds at most one entry. -/
theorem length_put_le (entries : Keyed α) (name : Value) (a : α) :
    (put entries name a).length ≤ entries.length + 1 := by
  induction entries with
  | nil => simp [put]
  | cons entry rest ih =>
    obtain ⟨key, old⟩ := entry
    by_cases h : key.same name <;> simp [put, h, ih]

end Keyed

end TableOps
