import TableOps.Proofs.Statement.Composed

/-!
# The comparisons of a statement

A filter is a template: of its leaves a statement compares those that the query has a value for. The
clause that restricts a statement consists of exactly these comparisons, in the order of the leaves,
and is empty without them.

* `Leaf.effective?` — the leaf as a statement of some kind compares it.
* `Leaf.reaches` — a statement of some kind compares the leaf.
* `Statement.comparisons_of_whereClause` — the comparisons of a clause.
* `Statement.RestrictedTo` — the clause of a statement is made of the comparisons of some leaves;
  `Request.Composed.restrictedTo`, those are the leaves that reach it.
-/

namespace TableOps

/-! ## Which leaves are compared -/

namespace Leaf

/-- The leaf as a statement of some kind compares it: an insert compares none, and the other writes
compare the leaves of their table only, without qualifiers. -/
def effective? (kind : StatementKind) (table : TableRef) (l : Leaf) : Option Leaf :=
  match kind with
  | .of .insert => none
  | .of .update | .of .delete => l.restrict? table
  | _ => some l

/-- Whatever else a statement changes about a leaf, it keeps the operator. -/
theorem op_of_effective? {kind : StatementKind} {table : TableRef} {l l' : Leaf}
    (h : l.effective? kind table = some l') : l'.op = l.op := by
  have hwrite : l.restrict? table = some l' → l'.op = l.op := by
    intro hrestrict
    rw [(eq_of_restrict? hrestrict).1]
  cases kind with
  | total =>
    cases h
    rfl
  | of op =>
    cases op with
    | insert => cases h
    | update => exact hwrite h
    | delete => exact hwrite h
    | _ =>
      cases h
      rfl

/-- A statement of some kind compares the leaf: the query has a value under its column. -/
def reaches (kind : StatementKind) (table : TableRef) (query : Entries Value) (l : Leaf) : Bool :=
  (l.effective? kind table).any fun l' => query.has l'.column

/-- The pieces are the comparison of the leaf as a statement of some kind has it. -/
def IsComparison (kind : StatementKind) (table : TableRef) (l : Leaf) (p : Statement) : Prop :=
  ∃ l' operand, l.effective? kind table = some l' ∧ p = l'.head ++ operand

end Leaf

namespace Filter

open Statement

variable {query : Entries Value} {table : Option TableRef}

/-- Of the leaves, those with a value have pieces, and these start with the column. -/
theorem LeafPieces.compared {leaves : List Leaf} {parts : List Statement}
    (h : LeafPieces query table leaves parts) :
    List.Forall₂ (fun (l : Leaf) p => ∃ operand, p = l.head ++ operand)
      (leaves.filter fun l => query.has l.column) (parts.filter fun p => !p.isEmpty) := by
  induction h with
  | nil => exact .nil
  | @cons l p leaves parts hp h ih =>
    rcases Leaf.pieces_eq_ok hp with ⟨habsent, rfl⟩ | ⟨v, hfound, hwritten⟩
    · rw [List.filter_cons_of_neg, List.filter_cons_of_neg]
      · exact ih
      · simp
      · simp [Entries.has, habsent]
    · rw [hwritten.eq_operand, List.filter_cons_of_pos, List.filter_cons_of_pos]
      · exact .cons ⟨_, rfl⟩ ih
      · simp [Leaf.head]
      · simp [Entries.has, hfound]

mutual

/-- A filter without a value for any of its leaves has no pieces. -/
theorem pieces_of_absent : ∀ f : Filter, (∀ l ∈ f.leaves, query.get? l.column = none) →
    f.pieces query table = .ok []
  | .leaf l, h => by
    rw [pieces, Leaf.pieces, h l (by simp [leaves])]
  | .group connective members, h => by
    rw [leaves] at h
    rw [pieces, piecesOf_of_absent members h]
    rfl

theorem piecesOf_of_absent : ∀ fs : List Filter,
    (∀ l ∈ leavesOf fs, query.get? l.column = none) → piecesOf query table fs = .ok []
  | [], _ => rfl
  | f :: fs, h => by
    rw [leavesOf] at h
    have hf := pieces_of_absent f fun l hl => h l (List.mem_append_left _ hl)
    have hfs := piecesOf_of_absent fs fun l hl => h l (List.mem_append_right _ hl)
    rw [piecesOf, hf, hfs]
    rfl

end

end Filter

namespace Statement

/-- Parts without pieces may be left out. -/
theorem MadeOf.filter_nonempty {parts : List Statement} {s : Statement} (h : MadeOf parts s) :
    MadeOf (parts.filter fun p => !p.isEmpty) s := by
  induction h with
  | nil => exact .nil
  | wording w h ih => exact .wording w ih
  | part p h ih =>
    cases p with
    | nil => exact ih
    | cons piece p => exact .part (piece :: p) ih

/-- Of all parts, only those without pieces can stand in the empty statement. -/
theorem MadeOf.eq_nil {parts : List Statement} {p : Statement} (h : MadeOf parts [])
    (hp : p ∈ parts) : p = [] := by
  obtain ⟨before, behind, heq⟩ := h.exists_append hp
  have hlength := congrArg List.length heq
  simp only [List.length_nil, List.length_append] at hlength
  exact List.length_eq_zero_iff.mp (by omega)

/-- A filter whose leaves all lack a value does not restrict a statement. -/
theorem whereClause_of_absent {filter : Option Filter} {query : Entries Value} {table : TableRef}
    (h : ∀ l ∈ Filter.leavesOf? filter, query.get? l.column = none) :
    whereClause filter query table = .ok [] := by
  cases filter with
  | none => rfl
  | some f =>
    have hpieces : f.pieces query (some table) = .ok [] := Filter.pieces_of_absent f h
    rw [whereClause, condition, hpieces]
    rfl

/-- The clause that restricts a statement opens with its word, unless it is empty. -/
theorem head?_whereClause {filter : Option Filter} {query : Entries Value} {table : TableRef}
    {clause : Statement} (h : whereClause filter query table = .ok clause) :
    clause = [] ∨ clause.head? = some whereWord := by
  obtain ⟨c, hc, rfl⟩ := ok_of_map h
  by_cases hempty : c.isEmpty
  · -- without pieces the word is left out as well
    exact Or.inl (if_pos hempty)
  · rw [if_neg hempty]
    exact Or.inr rfl

/-- The comparisons of the clause that restricts a statement: one for each leaf with a value. -/
theorem comparisons_of_whereClause {filter : Option Filter} {query : Entries Value}
    {table : TableRef} {clause : Statement} (h : whereClause filter query table = .ok clause) :
    ∃ parts, MadeOf parts clause ∧
      List.Forall₂ (fun (l : Leaf) p => ∃ operand, p = l.head ++ operand)
        ((Filter.leavesOf? filter).filter fun l => query.has l.column) parts ∧
      (clause = [] ↔ parts = []) := by
  obtain ⟨parts, hparts, hmade⟩ := madeOf_whereClause h
  have hcompared := hparts.compared
  refine ⟨parts.filter fun p => !p.isEmpty, hmade.filter_nonempty, hcompared, ?_, fun hnone => ?_⟩
  · rintro rfl
    refine List.filter_eq_nil_iff.mpr fun p hp => ?_
    rw [hmade.eq_nil hp]
    simp
  · -- without comparisons no leaf has a value, so that nothing was written around them either
    have hlength := hcompared.length_eq
    rw [hnone, List.length_nil, List.length_eq_zero_iff, List.filter_eq_nil_iff] at hlength
    have habsent : ∀ l ∈ Filter.leavesOf? filter, query.get? l.column = none := by
      intro l hl
      have hl' := hlength l hl
      rw [Entries.has, Option.not_isSome_iff_eq_none] at hl'
      exact hl'
    rw [whereClause_of_absent habsent] at h
    cases h
    rfl

end Statement

/-! ## The comparisons of a composed statement -/

namespace Statement

/-- The clause of a statement, from its opening word on, consists of the comparisons of some leaves
in their order; without leaves there is no clause. -/
def RestrictedTo (kind : StatementKind) (table : TableRef) (leaves : List Leaf) (s : Statement) :
    Prop :=
  ∃ before clause behind parts, s = before ++ clause ++ behind ∧
    whereWord ∉ before ∧ whereWord ∉ behind ∧ MadeOf parts clause ∧
    List.Forall₂ (Leaf.IsComparison kind table) leaves parts ∧
    (parts = [] → clause = []) ∧ (parts ≠ [] → clause.head? = some whereWord)

/-- A statement has a clause exactly when it is restricted to some leaf. -/
theorem RestrictedTo.whereWord_mem_iff {kind : StatementKind} {table : TableRef}
    {leaves : List Leaf} {s : Statement} (h : s.RestrictedTo kind table leaves) :
    whereWord ∈ s ↔ leaves ≠ [] := by
  obtain ⟨before, clause, behind, parts, rfl, hbefore, hbehind, hmade, hparts, hnone, hsome⟩ := h
  simp only [List.mem_append, hbefore, hbehind, false_or, or_false]
  -- the word can only stand at the head of the clause
  cases hparts with
  | nil =>
    rw [hnone rfl]
    simp
  | cons hp hrest =>
    have hhead := hsome (List.cons_ne_nil _ _)
    exact iff_of_true (List.mem_of_mem_head? hhead) (List.cons_ne_nil _ _)

end Statement

namespace Request

open Statement

/-- The leaves that restrict a statement of some kind. -/
theorem leaves_effectiveFilter (r : Request) (kind : StatementKind) :
    Filter.leavesOf? (r.effectiveFilter kind) =
      (Filter.leavesOf? r.expression.filter).filterMap
        (Leaf.effective? kind r.expression.table) := by
  have hread : (Filter.leavesOf? r.expression.filter).filterMap some =
      Filter.leavesOf? r.expression.filter := List.filterMap_some
  have hwrite : Filter.leavesOf? (r.expression.filter.bind
        (Filter.restrict? r.expression.table)) =
      (Filter.leavesOf? r.expression.filter).filterMap
        (Leaf.restrict? r.expression.table) :=
    Filter.leaves_bind_restrict? r.expression.table r.expression.filter
  cases kind with
  | total => exact hread.symm
  | of op =>
    cases op with
    | query => exact hread.symm
    | list => exact hread.symm
    | insert => exact (List.filterMap_eq_nil_iff.mpr fun l hl => rfl).symm
    | update => exact hwrite
    | delete => exact hwrite

/-- The query of a statement has values under the same names as that of the request. -/
theorem has_effectiveQuery (r : Request) (kind : StatementKind) (key : String) :
    (r.effectiveQuery kind).has key = r.query.has key := by
  have hwrite : (r.query.mapValues (Value.restrict r.expression.table)).has key =
      r.query.has key := by
    rw [Entries.has, Entries.get?_mapValues, Option.isSome_map, Entries.has]
  cases kind with
  | total => rfl
  | of op =>
    cases op with
    | query => rfl
    | list => rfl
    | insert => rfl
    | update => exact hwrite
    | delete => exact hwrite

/-- Leaves that are changed or dropped, and then kept when they have a value, are the ones that
reach the statement. -/
theorem forall₂_reaches {kind : StatementKind} {table : TableRef} {query : Entries Value}
    {leaves : List Leaf} {parts : List Statement}
    (h : List.Forall₂ (fun (l : Leaf) p => ∃ operand, p = l.head ++ operand)
      ((leaves.filterMap (Leaf.effective? kind table)).filter fun l => query.has l.column) parts) :
    List.Forall₂ (Leaf.IsComparison kind table) (leaves.filter (Leaf.reaches kind table query))
      parts := by
  induction leaves generalizing parts with
  | nil =>
    cases h
    exact .nil
  | cons l leaves ih =>
    cases heffective : l.effective? kind table with
    | none =>
      rw [List.filterMap_cons_none heffective] at h
      rw [List.filter_cons_of_neg (by simp [Leaf.reaches, heffective])]
      exact ih h
    | some l' =>
      rw [List.filterMap_cons_some heffective] at h
      rw [List.filter_cons] at h
      -- a leaf that is kept reaches the statement when its column has a value
      by_cases hfound : query.has l'.column
      · rw [if_pos hfound] at h
        rw [List.filter_cons_of_pos (by simpa [Leaf.reaches, heffective] using hfound)]
        cases h with
        | cons hp hrest =>
          obtain ⟨operand, rfl⟩ := hp
          exact .cons ⟨l', operand, heffective, rfl⟩ (ih hrest)
      · rw [if_neg hfound] at h
        rw [List.filter_cons_of_neg (by simpa [Leaf.reaches, heffective] using hfound)]
        exact ih h

/-- A composed statement is restricted to the leaves that reach it. -/
theorem Composed.restrictedTo {d : Dialect} {r : Request} {kind : StatementKind} {s : Statement}
    (h : r.Composed d kind s) :
    s.RestrictedTo kind r.expression.table ((Filter.leavesOf? r.expression.filter).filter
      (Leaf.reaches kind r.expression.table r.query)) := by
  obtain ⟨before, clause, behind, hs, hbefore, hbehind, hclause⟩ := h.clause
  obtain ⟨parts, hmade, hparts, hempty⟩ := comparisons_of_whereClause hclause
  rw [leaves_effectiveFilter] at hparts
  simp only [has_effectiveQuery] at hparts
  refine ⟨before, clause, behind, parts, hs, hbefore, hbehind, hmade, forall₂_reaches hparts,
    hempty.mpr, ?_⟩
  intro hsome
  exact (head?_whereClause hclause).resolve_left fun hnil => hsome (hempty.mp hnil)

end Request

end TableOps
