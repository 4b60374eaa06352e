import TableOps.Value.Equality

/-!
# Order of values

Numbers are ordered exactly across integers, floats and truth values, texts by code point, and
lists by their first difference. Other values, and values of different kinds, have no order.

* `Value.before?` — the first value comes before the second.
* `sorted?` — a list in an order that is not defined everywhere.

Main statement: `perm_of_sorted?`, sorting keeps every item.
-/

namespace TableOps

namespace Value

/-- The number that a value counts as. -/
def number? : Value → Option Binary64
  | .bool b => some (.finite false (if b then 1 else 0) 0)
  | .int n => some (.finite (n < 0) n.natAbs 0)
  | .float x => some x
  | _ => none

mutual

/-- The first value comes before the second; nothing, when they have no order. -/
def before? : Value → Value → Option Bool
  | .text s, .text t => some (s < t)
  | .list xs, .list ys => listBefore? xs ys
  | v, w =>
    match number? v, number? w with
    | some x, some y => some (x.less y)
    | _, _ => none

/-- The first list comes before the second: its first differing item does, or it ends there. -/
def listBefore? : List Value → List Value → Option Bool
  | _, [] => some false
  | [], _ :: _ => some true
  | x :: xs, y :: ys => if same x y then listBefore? xs ys else before? x y

end

end Value

/-! ## Sorting -/

variable {α : Type}

/-- `x` put into a list whose last item comes first, in front of all that it does not come
before. -/
def insertBack? (before? : α → α → Option Bool) (x : α) : List α → Option (List α)
  | [] => some [x]
  | y :: ys => do
    if ← before? x y then return y :: (← insertBack? before? x ys)
    else return x :: y :: ys

/-- The list in order; items of which neither comes before the other keep their places. There is no
order when two items that have to be compared have none. -/
def sorted? (before? : α → α → Option Bool) (items : List α) : Option (List α) :=
  (items.foldlM (fun back x => insertBack? before? x back) []).map List.reverse

theorem perm_of_insertBack? {before? : α → α → Option Bool} {x : α} {ys zs : List α}
    (h : insertBack? before? x ys = some zs) : zs.Perm (x :: ys) := by
  induction ys generalizing zs with
  | nil =>
    cases h
    exact .refl _
  | cons y ys ih =>
    cases hb : before? x y with
    | none => simp [insertBack?, hb] at h
    | some b =>
      cases b with
      | false =>
        simp only [insertBack?, hb, Option.bind_eq_bind, Option.bind_some] at h
        cases h
        exact .refl _
      | true =>
        cases hi : insertBack? before? x ys with
        | none => simp [insertBack?, hb, hi] at h
        | some ws =>
          simp only [insertBack?, hb, hi, Option.bind_eq_bind, Option.bind_some] at h
          cases h
          exact ((ih hi).cons y).trans (.swap x y ys)

theorem perm_of_foldlM_insertBack? {before? : α → α → Option Bool} {items back zs : List α}
    (h : items.foldlM (fun back x => insertBack? before? x back) back = some zs) :
    zs.Perm (items ++ back) := by
  induction items generalizing back with
  | nil =>
    cases h
    exact .refl _
  | cons x items ih =>
    cases hi : insertBack? before? x back with
    | none => simp [List.foldlM, hi] at h
    | some next =>
      simp only [List.foldlM, hi, Option.bind_eq_bind, Option.bind_some] at h
      exact (ih h).trans (((perm_of_insertBack? hi).append_left items).trans
        List.perm_middle)

/-- Sorting keeps every item. -/
theorem perm_of_sorted? {before? : α → α → Option Bool} {items zs : List α}
    (h : sorted? before? items = some zs) : zs.Perm items := by
  obtain ⟨back, hb, rfl⟩ := Option.map_eq_some_iff.1 h
  have hp := perm_of_foldlM_insertBack? hb
  rw [List.append_nil] at hp
  exact (List.reverse_perm back).trans hp

end TableOps
