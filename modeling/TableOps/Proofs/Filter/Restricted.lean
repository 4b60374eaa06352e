import TableOps.Proofs.Filter.Groups
import TableOps.Proofs.Filter.Truth
import TableOps.Proofs.Statement.WriteTarget

/-!
# Filters restricted to one table

What restricting a filter to a table leaves of it: the leaves of the table in their order, without
qualifiers, in the groups that keep two members.

* `Leaf.ownedBy` — the leaf compares a column of the table; `Leaf.filterMap_restrict?`, these are
  the leaves that are kept.
* `Filter.IsRestriction` — what is left has the owned leaves, the wide groups and the truth of a
  filter.

Main statement: `Filter.restrict?_spec`, when there is a restriction, and what it is.
-/

namespace TableOps

namespace Leaf

/-- The leaf compares a column of the table. -/
def ownedBy (table : TableRef) (l : Leaf) : Bool :=
  table.owns (Reference.splitQualifier l.name).1

/-- The leaf without the qualifier of its column. -/
def bare (l : Leaf) : Leaf :=
  { l with name := l.column }

theorem restrict?_eq_ite (table : TableRef) (l : Leaf) :
    l.restrict? table = if l.ownedBy table then some l.bare else none :=
  rfl

theorem isSome_restrict? (table : TableRef) (l : Leaf) :
    (l.restrict? table).isSome = l.ownedBy table := by
  rw [restrict?_eq_ite]
  cases l.ownedBy table <;> rfl

theorem filterMap_restrict? (table : TableRef) (leaves : List Leaf) :
    leaves.filterMap (restrict? table) = (leaves.filter (ownedBy table)).map bare := by
  induction leaves with
  | nil => rfl
  | cons l leaves ih =>
    rw [List.filterMap_cons, List.filter_cons, restrict?_eq_ite, ih]
    cases l.ownedBy table <;> rfl

end Leaf

namespace Filter

/-- The filter `g` is what restricting `f` to a table leaves of it. -/
structure IsRestriction (table : TableRef) (f g : Filter) : Prop where
  /-- The leaves are the owned ones in their order, under their unqualified columns. -/
  leaves : g.leaves = (f.leaves.filter (Leaf.ownedBy table)).map Leaf.bare
  /-- Every group has at least two members. -/
  wide : ∀ o ∈ g.groups, 2 ≤ o.2.length
  /-- The groups are those with owned leaves in two members, in their order, with their
  connectives. -/
  groups : g.groups.map (fun o => (o.1, leavesOf o.2)) =
    (f.groups.filter fun o => 2 ≤ o.2.countP fun m => m.leaves.any (Leaf.ownedBy table)).map
      fun o => (o.1, ((leavesOf o.2).filter (Leaf.ownedBy table)).map Leaf.bare)
  /-- Whatever its comparisons hold, it holds as the filter does without the leaves of other tables
  and the groups that this leaves empty. -/
  truth : ∀ (α : Type) [Lattice α] [BoundedOrder α] (holds : Nat → α),
    (f.keeping? (Leaf.ownedBy table)).map (truthFrom holds 0) = some (g.truthFrom holds 0)

theorem isRestriction_of_restrict? {table : TableRef} {f g : Filter}
    (h : f.restrict? table = some g) : IsRestriction table f g := by
  have howned : (fun l => (Leaf.restrict? table l).isSome) = Leaf.ownedBy table :=
    funext (Leaf.isSome_restrict? table)
  rw [restrict?_eq_choose?] at h
  have hleaves : leavesOf? (f.choose? (Leaf.restrict? table)) = _ := leaves_choose? f
  have hgroups : groupsOf? (f.choose? (Leaf.restrict? table)) = _ := groups_choose? f
  rw [h] at hleaves hgroups
  refine ⟨?_, two_le_of_mem_groups h, ?_, fun α _ _ holds => ?_⟩
  · rw [← Leaf.filterMap_restrict?]
    exact hleaves
  · rw [show g.groups = _ from hgroups, List.map_map]
    simp only [length_chooseAll, howned]
    refine List.map_congr_left fun o _ => ?_
    rw [← Leaf.filterMap_restrict?, ← leavesOf_chooseAll]
    rfl
  · rw [← howned, ← truth_choose?, h]
    rfl

/-- Nothing is left of a filter without leaves of the table. Otherwise what is left has its owned
leaves, the groups that keep two members, and its truth. -/
theorem restrict?_spec (table : TableRef) (f : Filter) :
    (f.restrict? table = none ↔ ∀ l ∈ f.leaves, l.ownedBy table = false) ∧
      ∀ g ∈ f.restrict? table, IsRestriction table f g := by
  refine ⟨?_, fun g hg => isRestriction_of_restrict? hg⟩
  rw [restrict?_eq_choose?, choose?_eq_none_iff]
  refine forall₂_congr fun l _ => ?_
  rw [← Leaf.isSome_restrict?, Option.isSome_eq_false_iff, Option.isNone_iff_eq_none]

end Filter

end TableOps
