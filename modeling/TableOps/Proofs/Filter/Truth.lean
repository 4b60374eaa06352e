import Mathlib.Order.BoundedOrder.Lattice
import TableOps.Proofs.Filter.Chosen

/-!
# The truth of a filter

Whether a filter holds is decided by its comparisons, counted from left to right, so that two of one
wording may hold apart. The truth values are those of any bounded lattice: the two of logic, and the
three of SQL, among which unknown stands between false and true.

Pruning keeps the truth. What it does beyond deleting leaves and the groups that are left empty, the
replacing of a group by its only member, makes no difference.

* `Connective.combine` — the truth of a group from that of its members.
* `Filter.truthFrom` — the truth of a filter from that of its comparisons.
* `Filter.keeping?` — a filter without some of its leaves, and without groups left empty.

Main statement: `Filter.truth_choose?`, a pruned filter holds when the filter without the leaves
that were pruned does.
-/

namespace TableOps

variable {α : Type} [Lattice α] [BoundedOrder α]

namespace Connective

/-- The truth of a group whose members have the given truth values. -/
def combine : Connective → List α → α
  | .and, vs => vs.foldr (· ⊓ ·) ⊤
  | .or, vs => vs.foldr (· ⊔ ·) ⊥

theorem combine_singleton (connective : Connective) (v : α) : connective.combine [v] = v := by
  cases connective with
  | and => exact inf_top_eq v
  | or => exact sup_bot_eq v

/-- The truth of a group that is deleted when it has no members. -/
def combine? (connective : Connective) : List α → Option α
  | [] => none
  | vs => some (connective.combine vs)

end Connective

namespace Filter

mutual

/-- The truth of a filter whose comparisons hold as given, the first of them counted as the
`n`-th. -/
def truthFrom (holds : Nat → α) (n : Nat) : Filter → α
  | .leaf _ => holds n
  | .group connective members => connective.combine (truthsFrom holds n members)

/-- The truth of several filters in a row. -/
def truthsFrom (holds : Nat → α) (n : Nat) : List Filter → List α
  | [] => []
  | f :: fs => truthFrom holds n f :: truthsFrom holds (n + f.leaves.length) fs

end

theorem truthsFrom_append (holds : Nat → α) (n : Nat) (fs gs : List Filter) :
    truthsFrom holds n (fs ++ gs) =
      truthsFrom holds n fs ++ truthsFrom holds (n + (leavesOf fs).length) gs := by
  induction fs generalizing n with
  | nil => rfl
  | cons f fs ih =>
    rw [List.cons_append, truthsFrom, truthsFrom, ih, leavesOf, List.length_append, Nat.add_assoc]
    rfl

theorem truthsFrom_toList (holds : Nat → α) (n : Nat) (filter : Option Filter) :
    truthsFrom holds n filter.toList = (filter.map (truthFrom holds n)).toList := by
  cases filter <;> rfl

/-! ## Deleted leaves -/

/-- A group, unless it is left empty. -/
def group? (connective : Connective) : List Filter → Option Filter
  | [] => none
  | fs => some (.group connective fs)

mutual

/-- A filter with some of its leaves: the others are deleted, and groups that are left empty. -/
def keeping? (keep : Leaf → Bool) : Filter → Option Filter
  | .leaf l => if keep l then some (.leaf l) else none
  | .group connective members => group? connective (keepingAll keep members)

/-- Several filters with some of their leaves. -/
def keepingAll (keep : Leaf → Bool) : List Filter → List Filter
  | [] => []
  | f :: fs => (keeping? keep f).toList ++ keepingAll keep fs

end

theorem leavesOf?_group? (connective : Connective) (fs : List Filter) :
    leavesOf? (group? connective fs) = leavesOf fs := by
  cases fs <;> simp [group?, leavesOf?, leaves, leavesOf]

mutual

/-- The leaves that are left are the kept ones. -/
theorem leaves_keeping? (keep : Leaf → Bool) : ∀ f : Filter,
    leavesOf? (f.keeping? keep) = f.leaves.filter keep
  | .leaf l => by
    rw [keeping?, leaves, List.filter_singleton]
    cases keep l <;> rfl
  | .group connective members => by
    rw [keeping?, leavesOf?_group?, leaves, leavesOf_keepingAll keep members]

theorem leavesOf_keepingAll (keep : Leaf → Bool) : ∀ fs : List Filter,
    leavesOf (keepingAll keep fs) = (leavesOf fs).filter keep
  | [] => rfl
  | f :: fs => by
    rw [keepingAll, leavesOf_append, leavesOf_toList, leavesOf, List.filter_append,
      leaves_keeping? keep f, leavesOf_keepingAll keep fs]

end

/-! ## The truth of what is left -/

variable (holds : Nat → α)

theorem truth_group? (n : Nat) (connective : Connective) (fs : List Filter) :
    (group? connective fs).map (truthFrom holds n) =
      connective.combine? (truthsFrom holds n fs) := by
  cases fs <;> rfl

/-- A group of one member holds when the member does. -/
theorem truth_join? (n : Nat) (connective : Connective) (fs : List Filter) :
    (join? connective fs).map (truthFrom holds n) =
      connective.combine? (truthsFrom holds n fs) := by
  match fs with
  | [] => rfl
  | [f] => exact congrArg some (connective.combine_singleton (truthFrom holds n f)).symm
  | _ :: _ :: _ => rfl

variable {pick : Leaf → Option Leaf}

mutual

/-- A pruned filter holds when the filter does without the leaves that were pruned and the groups
left empty. -/
theorem truth_choose? : ∀ (f : Filter) (n : Nat),
    (f.choose? pick).map (truthFrom holds n) =
      (f.keeping? fun l => (pick l).isSome).map (truthFrom holds n)
  | .leaf l, n => by
    rw [choose?, keeping?]
    cases pick l <;> rfl
  | .group connective members, n => by
    rw [choose?, keeping?, truth_join?, truth_group?, truths_chooseAll members n]

theorem truths_chooseAll : ∀ (fs : List Filter) (n : Nat),
    truthsFrom holds n (chooseAll pick fs) =
      truthsFrom holds n (keepingAll (fun l => (pick l).isSome) fs)
  | [], n => rfl
  | f :: fs, n => by
    -- the comparisons behind a filter are counted on from as many on both sides
    rw [chooseAll, keepingAll, truthsFrom_append, truthsFrom_append, truthsFrom_toList,
      truthsFrom_toList, truth_choose? f n, leavesOf_toList, leavesOf_toList, leaves_choose?,
      leaves_keeping?, List.length_filterMap_eq_countP, List.countP_eq_length_filter,
      truths_chooseAll fs]

end

end Filter

end TableOps
