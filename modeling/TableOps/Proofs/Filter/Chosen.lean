import TableOps.Proofs.Filter.Assembled

/-!
# Filters with some of their leaves

A write keeps the leaves of its table. `Filter.choose?` keeps any choice of leaves, perhaps changed,
and prunes the groups as restricting does, so that what follows from pruning is proved once.

* `Filter.leaves_choose?` — the leaves that are left.
* `Filter.choose?_bind` — two choices in a row are one.
* `Filter.assemble?_choose?` — a pruned filter is written as the whole one with nothing for the
  leaves left out.
-/

namespace TableOps.Filter

open Statement

mutual

/-- What is left of a filter when some leaves are chosen: groups left empty vanish, and groups left
with one member are replaced by it. -/
def choose? (pick : Leaf → Option Leaf) : Filter → Option Filter
  | .leaf l => (pick l).map .leaf
  | .group connective members => join? connective (chooseAll pick members)

/-- What is left of several filters. -/
def chooseAll (pick : Leaf → Option Leaf) : List Filter → List Filter
  | [] => []
  | f :: fs => (choose? pick f).toList ++ chooseAll pick fs

end

variable {pick pick' : Leaf → Option Leaf}

mutual

theorem choose?_congr : ∀ f : Filter, (∀ l ∈ f.leaves, pick l = pick' l) →
    f.choose? pick = f.choose? pick'
  | .leaf l, h => by rw [choose?, choose?, h l (by simp [leaves])]
  | .group connective members, h => by
    rw [leaves] at h
    rw [choose?, choose?, chooseAll_congr members h]

theorem chooseAll_congr : ∀ fs : List Filter, (∀ l ∈ leavesOf fs, pick l = pick' l) →
    chooseAll pick fs = chooseAll pick' fs
  | [], _ => rfl
  | f :: fs, h => by
    rw [leavesOf, List.forall_mem_append] at h
    rw [chooseAll, chooseAll, choose?_congr f h.1, chooseAll_congr fs h.2]

end

mutual

/-- The leaves that are left are the chosen ones. -/
theorem leaves_choose? : ∀ f : Filter, leavesOf? (f.choose? pick) = f.leaves.filterMap pick
  | .leaf l => by
    rw [choose?, leaves]
    cases h : pick l with
    | none => simp [h, leavesOf?]
    | some k => simp [h, leavesOf?, leaves]
  | .group connective members => by
    rw [choose?, leavesOf?_join?, leaves, leavesOf_chooseAll members]

theorem leavesOf_chooseAll : ∀ fs : List Filter,
    leavesOf (chooseAll pick fs) = (leavesOf fs).filterMap pick
  | [] => rfl
  | f :: fs => by
    rw [chooseAll, leavesOf_append, leavesOf_toList, leavesOf, List.filterMap_append]
    rw [leaves_choose? f, leavesOf_chooseAll fs]

end

/-- The same for a filter that may be missing. -/
theorem leaves_bind_choose? (filter : Option Filter) :
    leavesOf? (filter.bind (choose? pick)) = (leavesOf? filter).filterMap pick := by
  cases filter with
  | none => rfl
  | some f => exact leaves_choose? f

/-! ## Two choices in a row -/

theorem chooseAll_append (fs gs : List Filter) :
    chooseAll pick (fs ++ gs) = chooseAll pick fs ++ chooseAll pick gs := by
  induction fs with
  | nil => rfl
  | cons f fs ih => rw [List.cons_append, chooseAll, chooseAll, ih, List.append_assoc]

theorem chooseAll_toList (filter : Option Filter) :
    chooseAll pick filter.toList = (filter.bind (choose? pick)).toList := by
  cases filter with
  | none => rfl
  | some f => exact List.append_nil _

/-- Leaves may be chosen before the members of a group are joined. -/
theorem join?_bind_choose? (connective : Connective) (fs : List Filter) :
    (join? connective fs).bind (choose? pick) = join? connective (chooseAll pick fs) := by
  unfold join?
  split
  · rfl
  · rename_i f
    show choose? pick f = join? connective (chooseAll pick [f])
    rw [chooseAll, chooseAll, List.append_nil]
    cases choose? pick f <;> rfl
  · rfl

mutual

/-- Two choices in a row are one. -/
theorem choose?_bind : ∀ f : Filter,
    (f.choose? pick).bind (choose? pick') = f.choose? fun l => (pick l).bind pick'
  | .leaf l => by
    rw [choose?, choose?]
    cases pick l <;> rfl
  | .group connective members => by
    rw [choose?, join?_bind_choose?, choose?, chooseAll_chooseAll members]

theorem chooseAll_chooseAll : ∀ fs : List Filter,
    chooseAll pick' (chooseAll pick fs) = chooseAll (fun l => (pick l).bind pick') fs
  | [] => rfl
  | f :: fs => by
    rw [chooseAll, chooseAll_append, chooseAll_toList, choose?_bind f, chooseAll_chooseAll fs]
    rw [chooseAll]

end

/-! ## What is written for a choice -/

variable {write : Leaf → Statement}

mutual

/-- A pruned filter is written as the whole one, with nothing for the leaves that are left out. -/
theorem assemble?_choose? : ∀ f : Filter,
    assemble? write (f.choose? pick) = f.assemble fun l => ((pick l).map write).getD []
  | .leaf l => by
    rw [choose?, assemble]
    cases pick l <;> rfl
  | .group connective members => by
    rw [choose?, assemble?_join?, assemble, assembleAll_chooseAll members]

theorem assembleAll_chooseAll : ∀ fs : List Filter,
    assembleAll write (chooseAll pick fs) =
      assembleAll (fun l => ((pick l).map write).getD []) fs
  | [] => rfl
  | f :: fs => by
    rw [chooseAll, assembleAll_append, assembleAll_toList, assemble?_choose? f]
    rw [assembleAll_chooseAll fs, assembleAll]

end

end TableOps.Filter
