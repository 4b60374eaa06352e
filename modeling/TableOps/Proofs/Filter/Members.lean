import TableOps.Proofs.Filter.Pieces

/-!
# Where the pieces of a statement come from

* `Statement.mem_separated` — the pieces of lists; `Statement.forall_mem_commaSeparated`, what holds
  of all of them.
* `Leaf.mem_pieces` — those of a leaf.
* `Filter.mem_pieces` — those of a filter: wording, and the pieces of its leaves.
-/

namespace TableOps

namespace Statement

variable {p : Piece}

theorem mem_separated {separator : Statement} {ss : List Statement}
    (h : p ∈ separated separator ss) : p ∈ separator ∨ ∃ s ∈ ss, p ∈ s := by
  induction ss with
  | nil => cases h
  | cons s ss ih =>
    cases ss with
    | nil => exact Or.inr ⟨s, List.mem_cons_self, h⟩
    | cons s' ss =>
      rw [separated, List.mem_append, List.mem_append] at h
      · rcases h with (hs | hseparator) | hrest
        · exact Or.inr ⟨s, List.mem_cons_self, hs⟩
        · exact Or.inl hseparator
        · rcases ih hrest with hseparator | ⟨t, ht, hp⟩
          · exact Or.inl hseparator
          · exact Or.inr ⟨t, List.mem_cons_of_mem s ht, hp⟩
      · exact fun hnil => List.cons_ne_nil _ _ hnil

theorem mem_commaSeparated {ss : List Statement} (h : p ∈ commaSeparated ss) :
    p = .text ", " ∨ ∃ s ∈ ss, p ∈ s :=
  (mem_separated h).imp_left List.mem_singleton.mp

/-- What holds of the pieces of every item, and of a comma, holds of the pieces of the list. -/
theorem forall_mem_commaSeparated {holds : Piece → Prop} {ss : List Statement}
    (hcomma : holds (.text ", ")) (h : ∀ s ∈ ss, ∀ p ∈ s, holds p) :
    ∀ p ∈ commaSeparated ss, holds p := by
  intro p hp
  rcases mem_commaSeparated hp with rfl | ⟨s, hs, hp⟩
  · exact hcomma
  · exact h s hs p hp

end Statement

/-! ## Leaves -/

namespace Leaf

/-- The wording that a leaf is written with. -/
def wordings (l : Leaf) : List String :=
  [" ", Operator.wording l.op, " (", ", ", ")"]

variable {p : Piece} {l : Leaf} {query : Entries Value} {table : Option TableRef} {s : Statement}

theorem mem_head (h : p ∈ l.head) : p = .column l.name ∨ ∃ w ∈ l.wordings, p = .text w := by
  simp only [head, List.mem_cons, List.not_mem_nil, or_false] at h
  rcases h with rfl | rfl | rfl
  · exact Or.inl rfl
  · exact Or.inr ⟨" ", by simp [wordings], rfl⟩
  · exact Or.inr ⟨Operator.wording l.op, by simp [wordings], rfl⟩

theorem mem_marks {items : List Value} (h : p ∈ marks items) :
    (∃ w ∈ l.wordings, p = .text w) ∨ ∃ v, p = .value v := by
  simp only [marks, List.mem_append, List.mem_singleton] at h
  rcases h with (rfl | h) | rfl
  · exact Or.inl ⟨" (", by simp [wordings], rfl⟩
  · rcases Statement.mem_commaSeparated h with rfl | ⟨s, hs, hp⟩
    · exact Or.inl ⟨", ", by simp [wordings], rfl⟩
    · obtain ⟨v, -, rfl⟩ := List.mem_map.mp hs
      exact Or.inr ⟨v, List.mem_singleton.mp hp⟩
  · exact Or.inl ⟨")", by simp [wordings], rfl⟩

/-- A leaf is written with its column, its wording, the column that its value refers to, and the
values that it binds. -/
theorem mem_pieces (h : l.pieces query table = .ok s) (hp : p ∈ s) :
    p = .column l.name ∨ (∃ w ∈ l.wordings, p = .text w) ∨ (∃ v, p = .value v) ∨
      ∃ v ref, query.get? l.column = some v ∧ v.columnRef? = some ref ∧
        p = .column (l.resolve table ref) := by
  have hhead : p ∈ l.head → p = .column l.name ∨ (∃ w ∈ l.wordings, p = .text w) ∨
      (∃ v, p = .value v) ∨ ∃ v ref, query.get? l.column = some v ∧ v.columnRef? = some ref ∧
        p = .column (l.resolve table ref) :=
    fun hp => (mem_head hp).imp_right Or.inl
  rcases pieces_eq_ok h with ⟨-, rfl⟩ | ⟨v, hv, hwritten⟩
  · cases hp
  · cases hwritten with
    | unary hop => exact hhead hp
    | membership hop items hitems hne =>
      rcases List.mem_append.mp hp with hp | hp
      · exact hhead hp
      · rcases @mem_marks p l items hp with hword | hvalue
        · exact Or.inr (Or.inl hword)
        · exact Or.inr (Or.inr (Or.inl hvalue))
    | reference hop ref href =>
      rcases List.mem_append.mp hp with hp | hp
      · exact hhead hp
      · rcases List.mem_cons.mp hp with rfl | hp
        · exact Or.inr (Or.inl ⟨" ", by simp [wordings], rfl⟩)
        · exact Or.inr (Or.inr (Or.inr ⟨v, ref, hv, href, List.mem_singleton.mp hp⟩))
    | alone hop href hno => exact hhead hp
    | value hop href hno =>
      rcases List.mem_append.mp hp with hp | hp
      · exact hhead hp
      · rcases List.mem_cons.mp hp with rfl | hp
        · exact Or.inr (Or.inl ⟨" ", by simp [wordings], rfl⟩)
        · exact Or.inr (Or.inr (Or.inl ⟨v, List.mem_singleton.mp hp⟩))

end Leaf

/-! ## Filters -/

namespace Filter

/-- The wording around the leaves of a filter. -/
def wordings : List String :=
  ["(", ")", " AND ", " OR "]

/-- The piece is wording around leaves, or belongs to one of the leaves. -/
def OfLeaves (query : Entries Value) (table : Option TableRef) (leaves : List Leaf)
    (p : Piece) : Prop :=
  (∃ w ∈ wordings, p = .text w) ∨ ∃ l ∈ leaves, ∃ part, l.pieces query table = .ok part ∧ p ∈ part

variable {query : Entries Value} {table : Option TableRef} {p : Piece}

theorem OfLeaves.mono {leaves leaves' : List Leaf} (h : OfLeaves query table leaves p)
    (hsubset : leaves ⊆ leaves') : OfLeaves query table leaves' p :=
  h.imp_right fun ⟨l, hl, hpart⟩ => ⟨l, hsubset hl, hpart⟩

theorem mem_enclose {connective : Connective} {ss : List Statement} (h : p ∈ enclose connective ss) :
    (∃ w ∈ wordings, p = .text w) ∨ ∃ s ∈ ss, p ∈ s := by
  unfold enclose at h
  split at h
  · cases h
  · exact Or.inr ⟨_, List.mem_singleton.mpr rfl, h⟩
  · simp only [List.mem_append, List.mem_singleton] at h
    rcases h with (rfl | h) | rfl
    · exact Or.inl ⟨"(", by simp [wordings], rfl⟩
    · refine (Statement.mem_separated h).imp_left fun hconnective => ?_
      rw [List.mem_singleton.mp hconnective]
      cases connective
      · exact ⟨" AND ", by simp [wordings], rfl⟩
      · exact ⟨" OR ", by simp [wordings], rfl⟩
    · exact Or.inl ⟨")", by simp [wordings], rfl⟩

mutual

/-- A filter is written with the pieces of its leaves and with wording around them. -/
theorem mem_pieces : ∀ (f : Filter) (s : Statement), f.pieces query table = .ok s → p ∈ s →
    OfLeaves query table f.leaves p
  | .leaf l, s, h, hp => Or.inr ⟨l, by simp [leaves], s, by rwa [pieces] at h, hp⟩
  | .group connective members, s, h, hp => by
    rw [pieces] at h
    obtain ⟨ss, hss, rfl⟩ := ok_of_map h
    rw [leaves]
    rcases mem_enclose hp with hword | ⟨t, ht, hp⟩
    · exact Or.inl hword
    · exact mem_piecesOf members ss hss t ht hp

/-- The same for the members of a group. -/
theorem mem_piecesOf : ∀ (fs : List Filter) (ss : List Statement),
    piecesOf query table fs = .ok ss → ∀ s ∈ ss, p ∈ s → OfLeaves query table (leavesOf fs) p
  | [], ss, h, s, hs, hp => by
    cases h
    cases hs
  | f :: fs, ss, h, s, hs, hp => by
    obtain ⟨first, rest, hf, hfs, rfl⟩ := ok_of_piecesOf_cons h
    -- a member without pieces is left out
    have hmem : s = first ∨ s ∈ rest := by
      split at hs
      · exact Or.inr hs
      · exact List.mem_cons.mp hs
    rw [leavesOf]
    rcases hmem with rfl | hs
    · exact (mem_pieces f s hf hp).mono (List.subset_append_left _ _)
    · exact (mem_piecesOf fs rest hfs s hs hp).mono (List.subset_append_right _ _)

end

end Filter

end TableOps
