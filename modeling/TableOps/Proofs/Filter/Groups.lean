import TableOps.Proofs.Filter.Chosen

/-!
# The groups of a filter

Pruning leaves the groups that keep at least two members, in order and with their connectives; the
members are pruned in turn.

* `Filter.groups` — the groups with their members, each before the groups inside it.
* `Filter.choose?_eq_none_iff` — nothing is left when no leaf is chosen.
* `Filter.groups_choose?` — the groups that are left; `Filter.two_le_of_mem_groups`, each of them
  has two members.
-/

namespace TableOps.Filter

mutual

/-- The groups with their connectives and members, each before the groups inside it. -/
def groups : Filter → List (Connective × List Filter)
  | .leaf _ => []
  | .group connective members => (connective, members) :: groupsOf members

/-- The groups of several filters from left to right. -/
def groupsOf : List Filter → List (Connective × List Filter)
  | [] => []
  | f :: fs => f.groups ++ groupsOf fs

end

/-- The groups of a filter that may be missing. -/
def groupsOf? (filter : Option Filter) : List (Connective × List Filter) :=
  (filter.map groups).getD []

theorem groupsOf_append (fs gs : List Filter) :
    groupsOf (fs ++ gs) = groupsOf fs ++ groupsOf gs := by
  induction fs with
  | nil => rfl
  | cons f fs ih => rw [List.cons_append, groupsOf, groupsOf, ih, List.append_assoc]

theorem groupsOf_toList (filter : Option Filter) : groupsOf filter.toList = groupsOf? filter := by
  cases filter <;> simp [groupsOf, groupsOf?]

/-- Filters that are joined form a group when there are several of them. -/
theorem groupsOf?_join? (connective : Connective) (fs : List Filter) :
    groupsOf? (join? connective fs) =
      (if 2 ≤ fs.length then [(connective, fs)] else []) ++ groupsOf fs := by
  match fs with
  | [] => rfl
  | [f] => simp [join?, groupsOf?, groupsOf]
  | f :: f' :: fs => simp [join?, groupsOf?, groups]

variable {pick : Leaf → Option Leaf}

/-! ## What is left of a filter -/

theorem join?_eq_none_iff (connective : Connective) (fs : List Filter) :
    join? connective fs = none ↔ fs = [] := by
  unfold join?
  split <;> simp_all

mutual

/-- Nothing is left of a filter exactly when none of its leaves is chosen. -/
theorem choose?_eq_none_iff : ∀ f : Filter, f.choose? pick = none ↔ ∀ l ∈ f.leaves, pick l = none
  | .leaf l => by simp [choose?, leaves]
  | .group connective members => by
    rw [choose?, join?_eq_none_iff, leaves]
    exact chooseAll_eq_nil_iff members

theorem chooseAll_eq_nil_iff : ∀ fs : List Filter,
    chooseAll pick fs = [] ↔ ∀ l ∈ leavesOf fs, pick l = none
  | [] => by simp [chooseAll, leavesOf]
  | f :: fs => by
    rw [chooseAll, List.append_eq_nil_iff, Option.toList_eq_nil_iff, leavesOf,
      List.forall_mem_append, choose?_eq_none_iff f, chooseAll_eq_nil_iff fs]

end

/-- As many members of a group are left as hold a chosen leaf. -/
theorem length_chooseAll (fs : List Filter) :
    (chooseAll pick fs).length = fs.countP fun f => f.leaves.any fun l => (pick l).isSome := by
  induction fs with
  | nil => rfl
  | cons f fs ih =>
    rw [chooseAll, List.length_append, ih, List.countP_cons, Nat.add_comm]
    congr 1
    cases h : f.choose? pick with
    | none =>
      rw [choose?_eq_none_iff] at h
      rw [if_neg]
      · rfl
      · simpa using h
    | some g =>
      rw [if_pos]
      · rfl
      · by_contra hnone
        have hempty : f.choose? pick = none := (choose?_eq_none_iff f).mpr (by simpa using hnone)
        rw [hempty] at h
        cases h

/-! ## The groups that are left -/

mutual

/-- The groups that are left of a filter are those that keep two members, with what is left of the
members. -/
theorem groups_choose? : ∀ f : Filter, groupsOf? (f.choose? pick) =
    (f.groups.filter fun o => 2 ≤ (chooseAll pick o.2).length).map fun o =>
      (o.1, chooseAll pick o.2)
  | .leaf l => by
    rw [choose?, groups]
    cases pick l <;> rfl
  | .group connective members => by
    rw [choose?, groupsOf?_join?, groups, List.filter_cons, groupsOf_chooseAll members]
    by_cases hwide : 2 ≤ (chooseAll pick members).length
    · rw [if_pos hwide, if_pos (decide_eq_true hwide)]
      rfl
    · rw [if_neg hwide, if_neg fun h => hwide (of_decide_eq_true h)]
      rfl

theorem groupsOf_chooseAll : ∀ fs : List Filter, groupsOf (chooseAll pick fs) =
    ((groupsOf fs).filter fun o => 2 ≤ (chooseAll pick o.2).length).map fun o =>
      (o.1, chooseAll pick o.2)
  | [] => rfl
  | f :: fs => by
    rw [chooseAll, groupsOf_append, groupsOf_toList, groupsOf, List.filter_append, List.map_append,
      groups_choose? f, groupsOf_chooseAll fs]

end

/-- Every group of a pruned filter has at least two members. -/
theorem two_le_of_mem_groups {f g : Filter} (h : f.choose? pick = some g) :
    ∀ o ∈ g.groups, 2 ≤ o.2.length := by
  intro o ho
  have hgroups : groupsOf? (f.choose? pick) = _ := groups_choose? f
  rw [h] at hgroups
  rw [show g.groups = _ from hgroups] at ho
  obtain ⟨o', ho', rfl⟩ := List.mem_map.mp ho
  exact of_decide_eq_true (List.mem_filter.mp ho').2

end TableOps.Filter
