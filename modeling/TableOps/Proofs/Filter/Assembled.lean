import TableOps.Proofs.Filter.Pieces

/-!
# Filters written leaf by leaf

The shape of a condition, its groups, connectives and brackets, depends on the filter and on which
of its leaves have pieces, and on nothing else. So two ways of writing the leaves give conditions of
one shape as soon as they leave the same leaves out.

* `Filter.assemble` — a filter with given pieces for its leaves.
* `Filter.eq_assemble` — the pieces of a filter are assembled from those of its leaves.
* `Filter.assemble_eq_nil_iff` — there is a condition as soon as one leaf has pieces.
* `Filter.assemble?_join?` — joining filters and enclosing what is written for them are the same.
-/

namespace TableOps

/-- A statement in a list of members; one without pieces is left out. -/
def Statement.kept (s : Statement) : List Statement :=
  if s.isEmpty then [] else [s]

theorem Statement.kept_eq_nil_iff {s : Statement} : s.kept = [] ↔ s = [] := by
  cases s <;> simp [kept]

/-- The pieces of a leaf, none when it cannot be written. -/
def Leaf.piecesOrNone (query : Entries Value) (table : Option TableRef) (l : Leaf) : Statement :=
  (l.pieces query table).toOption.getD []

/-- A leaf that can be written is written with the value that the query has for it. -/
theorem Leaf.piecesOrNone_eq {query : Entries Value} {table : Option TableRef} {l : Leaf}
    {p : Statement} (h : l.pieces query table = .ok p) :
    l.piecesOrNone query table =
      (query.get? l.column).elim [] fun v => l.head ++ l.operand table v := by
  have hp : l.piecesOrNone query table = p := by
    rw [piecesOrNone, h]
    rfl
  rcases pieces_eq_ok h with ⟨hnone, rfl⟩ | ⟨v, hv, hwritten⟩
  · rw [hp, hnone, Option.elim_none]
  · rw [hp, hv, Option.elim_some, hwritten.eq_operand]

namespace Filter

open Statement

mutual

/-- A filter with given pieces for its leaves. -/
def assemble (write : Leaf → Statement) : Filter → Statement
  | .leaf l => write l
  | .group connective members => enclose connective (assembleAll write members)

/-- Several filters, without those that have no pieces. -/
def assembleAll (write : Leaf → Statement) : List Filter → List Statement
  | [] => []
  | f :: fs => (assemble write f).kept ++ assembleAll write fs

end

/-- The same for a filter that may be missing. -/
def assemble? (write : Leaf → Statement) (filter : Option Filter) : Statement :=
  (filter.map (assemble write)).getD []

variable {write : Leaf → Statement}

/-! ## What is assembled -/

mutual

/-- The pieces of a filter are assembled from those of its leaves. -/
theorem eq_assemble {query : Entries Value} {table : Option TableRef} :
    ∀ (f : Filter) (s : Statement), f.pieces query table = .ok s →
      s = f.assemble (Leaf.piecesOrNone query table)
  | .leaf l, s, h => by
    rw [pieces] at h
    rw [assemble, Leaf.piecesOrNone, h]
    rfl
  | .group connective members, s, h => by
    rw [pieces] at h
    obtain ⟨ss, hss, rfl⟩ := ok_of_map h
    rw [assemble, eq_assembleAll members ss hss]

theorem eq_assembleAll {query : Entries Value} {table : Option TableRef} :
    ∀ (fs : List Filter) (ss : List Statement), piecesOf query table fs = .ok ss →
      ss = assembleAll (Leaf.piecesOrNone query table) fs
  | [], ss, h => by
    cases h
    rfl
  | f :: fs, ss, h => by
    obtain ⟨s, rest, hf, hfs, rfl⟩ := ok_of_piecesOf_cons h
    rw [assembleAll, ← eq_assemble f s hf, ← eq_assembleAll fs rest hfs, kept]
    split <;> rfl

end

theorem enclose_eq_nil_iff {connective : Connective} {ss : List Statement} (h : [] ∉ ss) :
    enclose connective ss = [] ↔ ss = [] := by
  unfold enclose
  split
  · simp
  · simpa [eq_comm] using h
  · rename_i hnil hsingle
    exact iff_of_false (by simp) hnil

theorem nil_not_mem_assembleAll (fs : List Filter) : [] ∉ assembleAll write fs := by
  induction fs with
  | nil => simp [assembleAll]
  | cons f fs ih =>
    rw [assembleAll, List.mem_append, not_or]
    refine ⟨?_, ih⟩
    unfold kept
    split
    · simp
    · rename_i hsome
      intro hnil
      rw [← List.mem_singleton.mp hnil] at hsome
      exact hsome rfl

mutual

/-- Nothing is written for a filter exactly when nothing is written for its leaves. -/
theorem assemble_eq_nil_iff : ∀ f : Filter,
    f.assemble write = [] ↔ ∀ l ∈ f.leaves, write l = []
  | .leaf l => by simp [assemble, leaves]
  | .group connective members => by
    rw [assemble, enclose_eq_nil_iff (nil_not_mem_assembleAll members), leaves]
    exact assembleAll_eq_nil_iff members

theorem assembleAll_eq_nil_iff : ∀ fs : List Filter,
    assembleAll write fs = [] ↔ ∀ l ∈ leavesOf fs, write l = []
  | [] => by simp [assembleAll, leavesOf]
  | f :: fs => by
    rw [assembleAll, List.append_eq_nil_iff, kept_eq_nil_iff, leavesOf, List.forall_mem_append]
    rw [assemble_eq_nil_iff f, assembleAll_eq_nil_iff fs]

end

theorem assemble?_eq_nil_iff (filter : Option Filter) :
    assemble? write filter = [] ↔ ∀ l ∈ leavesOf? filter, write l = [] := by
  cases filter with
  | none => simp [assemble?, leavesOf?]
  | some f => exact assemble_eq_nil_iff f

/-! ## Joined filters -/

theorem assembleAll_append (fs gs : List Filter) :
    assembleAll write (fs ++ gs) = assembleAll write fs ++ assembleAll write gs := by
  induction fs with
  | nil => rfl
  | cons f fs ih => rw [List.cons_append, assembleAll, assembleAll, ih, List.append_assoc]

theorem assembleAll_toList (filter : Option Filter) :
    assembleAll write filter.toList = (assemble? write filter).kept := by
  cases filter with
  | none => rfl
  | some f => exact List.append_nil _

/-- A group of one member, or of none, is written without brackets, and so is the member itself. -/
theorem assemble?_join? (connective : Connective) (fs : List Filter) :
    assemble? write (join? connective fs) = enclose connective (assembleAll write fs) := by
  unfold join?
  split
  · rfl
  · rename_i f
    show f.assemble write = enclose connective ((f.assemble write).kept ++ [])
    rw [List.append_nil]
    cases f.assemble write <;> rfl
  · rfl

end Filter

end TableOps
