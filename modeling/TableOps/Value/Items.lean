import TableOps.Value.Basic

/-!
# Going through a value

What a value yields when it is gone through item by item.

* `Value.items?` — the items of a list, the characters of a text, the names of a mapping, and the
  named parts of an instance.
* `Value.parts?` — the named parts of an instance of a model.
-/

namespace TableOps.Value

/-- A name with its value, as a list of the two. -/
def pair (name : String) (v : Value) : Value :=
  .list [.text name, v]

/-- The parts of an instance of a model, each with its name. -/
def parts? : Value → Option (List Value)
  | .column name => some [pair "name" (.text name)]
  | .checked _ (.map members) => some (members.map fun (name, v) => pair name v)
  | _ => none

/-- The characters of a text as texts. -/
def characters (s : String) : List Value :=
  s.toList.map fun c => .text (String.ofList [c])

/-- The items of a value; nothing, when it cannot be gone through. -/
def items? : Value → Option (List Value)
  | .list items => some items
  | .text s => some (characters s)
  | .map members => some (members.map fun (name, _) => .text name)
  | v => parts? v

/-- The texts, when all values are. -/
def texts? (vs : List Value) : Option (List String) :=
  vs.mapM text?

theorem texts?_ofTexts (texts : List String) : texts? (texts.map .text) = some texts := by
  induction texts with
  | nil => rfl
  | cons s texts ih =>
    simp only [texts?] at ih
    simp [texts?, List.mapM_cons, text?, ih]

end TableOps.Value
