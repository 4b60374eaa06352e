import TableOps.Text.Cut
import TableOps.Value.Equality
import TableOps.Value.Mapping

/-!
# Membership in a value

`Value.holds` says whether a value contains another one: an item in a list, a name in a mapping, a
stretch in a text, a part in an instance. Main statement: `holds_ofTexts`, a list of texts holds
exactly its own.
-/

namespace TableOps.Value

/-- The value can stand as a name in a mapping. -/
def isName : Value → Bool
  | .list _ | .map _ | .column _ | .expression _ | .checked .. => false
  | _ => true

/-- The container holds the value. Only a text may stand in a text, and no collection can be a name
in a mapping. -/
def holds (container v : Value) : Except Failure Bool :=
  match container, v with
  | .text s, .text part => .ok (Text.contains part.toList s.toList)
  | .text _, _ => .error .wrongKind
  | .map members, .text name => .ok (Entries.has members name)
  | .map _, v => if v.isName then .ok false else .error .wrongKind
  | container, v => do return (← container.itemsOf).any (same · v)

/-- A list of texts holds a text exactly when it is one of them. -/
theorem holds_ofTexts (texts : List String) (s : String) :
    holds (ofTexts texts) (.text s) = .ok (texts.contains s) := by
  have h : ∀ t, same (.text t) (.text s) = (s == t) := fun t => by
    simp [same, Bool.beq_comm]
  rw [List.contains_eq_any_beq]
  show (Except.ok ((texts.map text).any (same · (.text s))) : Except Failure Bool) = _
  rw [List.any_map]
  exact congrArg (fun p => Except.ok (texts.any p)) (funext h)

end TableOps.Value
