import TableOps.Proofs.Number.Decimal
import TableOps.Proofs.Statement.Comparisons
import TableOps.Proofs.Statement.Escaping

/-!
# Statements without a percent sign of their own

Where the names that a request gives have no percent sign, its statement has one only in the text of
the caller, which is escaped, and in the operators of its filter, which are written as they stand.

* `Request.NamesPercentFree` — the names of a request have no percent sign.
* `Statement.PercentFree.whereClause` — a clause whose operators have none has none.
* `Piece.Opens` — a piece that begins with a character of its own.
* `Statement.framed_of_compose` — the clause that restricts a statement, and what is around it.
-/

namespace TableOps

open Statement

/-- The names in a join have no percent sign. -/
structure Join.NamesPercentFree (j : Join) : Prop where
  table : '%' ∉ j.table.toList
  kind : ∀ kind, j.kind = some kind → '%' ∉ kind.toList
  shared : ∀ column, j.using? = some column → '%' ∉ column.toList

/-- The names that a request gives have no percent sign: tables, join types, shared columns and keys.
Its columns, its conditions, its operators and its trailing clause may have any. -/
structure Request.NamesPercentFree (r : Request) : Prop where
  table : '%' ∉ r.expression.source.text.toList
  joins : ∀ j ∈ r.expression.joins, j.NamesPercentFree
  keys : ∀ schema, r.schema = some schema → ∀ key ∈ schema.primaryKey, '%' ∉ key.toList

/-- Wording that begins with a character other than a percent sign. -/
def Piece.Opens : Piece → Prop
  | .text s => ∃ c, s.toList.head? = some c ∧ c ≠ '%'
  | _ => False

namespace Statement

variable {d : Dialect} {r : Request}

/-! ## Clauses and lists -/

namespace PercentFree

variable {s t : Statement}

theorem append (hs : s.PercentFree) (ht : t.PercentFree) : (s ++ t).PercentFree :=
  List.forall_mem_append.mpr ⟨hs, ht⟩

/-- What is written between the items of a list has no percent sign. -/
theorem commaSeparated {ss : List Statement} (h : ∀ s ∈ ss, s.PercentFree) :
    (commaSeparated ss).PercentFree := by
  have hcomma : '%' ∉ ", ".toList := by decide
  exact forall_mem_commaSeparated hcomma h

theorem nameList {names : List String} (h : ∀ name ∈ names, '%' ∉ name.toList) :
    (nameList names).PercentFree :=
  commaSeparated
    (List.forall_mem_map.mpr fun name hname => List.forall_mem_singleton.mpr (h name hname))

end PercentFree

/-- In a clause only the operators of the compared leaves may have a percent sign that is written as
it stands. -/
theorem percentFree_or_operator {filter : Option Filter} {query : Entries Value} {table : TableRef}
    {s : Statement} (h : whereClause filter query table = .ok s) {p : Piece} (hp : p ∈ s) :
    p.PercentFree ∨ ∃ l ∈ Filter.leavesOf? filter, query.has l.column = true ∧
      p = .text (Operator.wording l.op) := by
  have hclause : ∀ w ∈ " WHERE " :: Filter.wordings, '%' ∉ w.toList := by decide
  rcases mem_whereClause h hp with rfl | ⟨w, hw, rfl⟩ | ⟨l, hl, part, hpart, hp⟩
  · exact Or.inl (hclause " WHERE " List.mem_cons_self)
  · exact Or.inl (hclause w (List.mem_cons_of_mem _ hw))
  · rcases Leaf.mem_pieces hpart hp with rfl | ⟨w, hw, rfl⟩ | ⟨v, rfl⟩ | ⟨v, ref, -, -, rfl⟩
    · exact Or.inl trivial
    · have hrest : ∀ w ∈ [" ", " (", ", ", ")"], '%' ∉ w.toList := by decide
      rw [Leaf.wordings, List.mem_cons, List.mem_cons] at hw
      rcases hw with rfl | rfl | hw
      · exact Or.inl (hrest " " List.mem_cons_self)
      · -- a leaf has pieces only when its column has a value
        rcases Leaf.pieces_eq_ok hpart with ⟨-, rfl⟩ | ⟨v, hfound, -⟩
        · cases hp
        · exact Or.inr ⟨l, hl, by rw [Entries.has, hfound]; rfl, rfl⟩
      · exact Or.inl (hrest w (List.mem_cons_of_mem _ hw))
    · exact Or.inl trivial
    · exact Or.inl trivial

/-- A clause has none when the operators have none. -/
theorem PercentFree.whereClause {filter : Option Filter} {query : Entries Value} {table : TableRef}
    {s : Statement} (hops : ∀ l ∈ Filter.leavesOf? filter, '%' ∉ l.op.toList)
    (h : whereClause filter query table = .ok s) : s.PercentFree := by
  intro p hp
  rcases percentFree_or_operator h hp with hfree | ⟨l, hl, -, rfl⟩
  · exact hfree
  · exact Text.not_mem_trimmed (hops l hl)

/-! ## Tables and joins -/

/-- The names of a table have no percent sign when the text that refers to it has none. -/
theorem percentFree_table {text : String} {table : TableRef} (h : '%' ∉ text.toList)
    (hsubset : table.name.toList ⊆ text.toList ∧
      ∀ a, table.aliasName = some a → a.toList ≠ [] ∧ a.toList ⊆ text.toList) :
    (Piece.table table).PercentFree := by
  refine ⟨fun hname => h (hsubset.1 hname), fun a ha hmem => ?_⟩
  have halias := (Option.filter_eq_some_iff.mp ha).1
  exact h ((hsubset.2 a halias).2 hmem)

theorem percentFree_matching {j : Join} {primary : TableRef} {s : Statement} (hj : j.NamesPercentFree)
    (h : matching d j primary = .ok s) : s.PercentFree := by
  have hwording : ∀ w ∈ [" USING (", ")", " ON ", " = ", " ON None"], '%' ∉ w.toList := by decide
  unfold matching at h
  split at h
  · rename_i column hcolumn
    cases h
    have hshared := hj.shared column (Option.filter_eq_some_iff.mp hcolumn).1
    simp only [PercentFree, Piece.PercentFree, List.forall_mem_cons]
    exact ⟨hwording _ (by simp), hshared, hwording _ (by simp), List.forall_mem_nil _⟩
  · obtain ⟨equality, -, h⟩ := ok_of_bind h
    split at h
    · cases h
      simp only [PercentFree, Piece.PercentFree, List.forall_mem_cons]
      exact ⟨hwording _ (by simp), trivial, hwording _ (by simp), trivial, List.forall_mem_nil _⟩
    · split at h <;> cases h
      · simp only [PercentFree, Piece.PercentFree, List.forall_mem_cons]
        exact ⟨hwording _ (by simp), trivial, List.forall_mem_nil _⟩
      · simp only [PercentFree, Piece.PercentFree, List.forall_mem_cons]
        exact ⟨hwording _ (by simp), List.forall_mem_nil _⟩

/-- The type of a join is written in upper case, which brings in no percent sign. -/
theorem percent_not_mem_joinKind {j : Join} (hj : j.NamesPercentFree) : '%' ∉ (joinKind j).toList := by
  unfold joinKind
  split
  · rename_i kind hkind
    have hgiven := hj.kind kind (Option.filter_eq_some_iff.mp hkind).1
    have hupper := Text.percent_not_mem_upper (Text.not_mem_trimmed hgiven)
    have hblank : '%' ∉ " ".toList := by decide
    rw [String.toList_append, List.mem_append, not_or]
    exact ⟨hupper, hblank⟩
  · decide

theorem percentFree_joinClause {j : Join} {primary : TableRef} {s : Statement} (hj : j.NamesPercentFree)
    (h : joinClause d primary j = .ok s) : s.PercentFree := by
  obtain ⟨table, htable, h⟩ := ok_of_bind h
  obtain ⟨matched, hmatched, h⟩ := ok_of_bind h
  cases h
  have hword : '%' ∉ (" " ++ joinKind j ++ "JOIN ").toList := by
    have hblank : '%' ∉ " ".toList := by decide
    have hjoin : '%' ∉ "JOIN ".toList := by decide
    simp only [String.toList_append, List.mem_append, not_or]
    exact ⟨⟨hblank, percent_not_mem_joinKind hj⟩, hjoin⟩
  have htable := percentFree_table hj.table (TableRef.subset_of_parse htable)
  refine PercentFree.append ?_ (percentFree_matching hj hmatched)
  exact List.forall_mem_cons.mpr ⟨hword, List.forall_mem_singleton.mpr htable⟩

theorem percentFree_fromClause {s : Statement} (hr : r.NamesPercentFree)
    (h : fromClause d r.expression.table r.expression.joins = .ok s) : s.PercentFree := by
  obtain ⟨clauses, hclauses, h⟩ := ok_of_bind h
  cases h
  have hword : '%' ∉ "FROM ".toList := by decide
  have htable : (Piece.table r.expression.table).PercentFree :=
    percentFree_table hr.table (TableRef.subset_of_ofWords? r.expression.source.reads)
  refine PercentFree.append ?_ fun p hp => ?_
  · exact List.forall_mem_cons.mpr ⟨hword, List.forall_mem_singleton.mpr htable⟩
  · obtain ⟨clause, hclause, hp⟩ := List.mem_flatten.mp hp
    obtain ⟨j, hj, hjoin⟩ := ok_of_mapM hclauses clause hclause
    exact percentFree_joinClause (hr.joins j hj) hjoin p hp

theorem percentFree_extraClause {e : Expression} {s : Statement}
    (h : extraClause d e = .ok s) : s.PercentFree := by
  have hblank : '%' ∉ " ".toList := by decide
  unfold extraClause at h
  split at h <;> cases h
  · exact List.forall_mem_nil _
  · exact List.forall_mem_cons.mpr ⟨hblank, List.forall_mem_singleton.mpr trivial⟩

theorem percentFree_items (engine : Engine) (columns : List String) (paged : Bool) :
    (commaSeparated (items engine columns paged)).PercentFree := by
  apply PercentFree.commaSeparated
  intro s hs
  unfold items at hs
  rcases List.mem_append.mp hs with hs | hs
  · obtain ⟨c, -, rfl⟩ := List.mem_map.mp hs
    exact List.forall_mem_singleton.mpr trivial
  · split at hs
    · rw [List.mem_singleton.mp hs]
      have htotal : '%' ∉ "COUNT(*) OVER() AS ".toList ∧ '%' ∉ totalColumn.toList := by decide
      exact List.forall_mem_cons.mpr ⟨htotal.1, List.forall_mem_singleton.mpr htotal.2⟩
    · cases hs

/-! ## Pages and writes -/

/-- The clause that cuts out a page has digits only. -/
theorem percent_not_mem_limit {engine : Engine} {p : Page} {cut : String}
    (h : limit engine p = .ok cut) : '%' ∉ cut.toList := by
  have hdigits : ∀ {n : Nat} {text : String}, Integer.digits n = .ok text → '%' ∉ text.toList := by
    intro n text hn
    rw [Integer.of_digits_natCast hn]
    exact Text.percent_not_mem_toString n
  have hwords : ∀ w ∈ ["LIMIT ", ", ", " OFFSET "], '%' ∉ w.toList := by decide
  obtain ⟨size, hsize, h⟩ := ok_of_bind h
  obtain ⟨offset, hoffset, h⟩ := ok_of_bind h
  have hparts := And.intro (hdigits hsize) (hdigits hoffset)
  cases engine <;> cases h <;> simp only [String.toList_append, List.mem_append, not_or]
  · exact ⟨⟨⟨hwords _ (by simp), hparts.2⟩, hwords _ (by simp)⟩, hparts.1⟩
  · exact ⟨⟨⟨hwords _ (by simp), hparts.1⟩, hwords _ (by simp)⟩, hparts.2⟩

/-- The columns of a write are identifiers. -/
theorem percent_not_mem_writable {e : Expression} {data : Entries Value} {c : String}
    (h : c ∈ writable e data) : '%' ∉ c.toList := by
  obtain ⟨ref, -, hown⟩ := List.mem_filterMap.mp (mem_writable h).1
  exact Reference.percent_not_mem_of_isIdentifierChars (ownColumn?_eq_some hown).2

/-- The name of the written table has no percent sign. -/
theorem percentFree_target (hr : r.NamesPercentFree) :
    (Piece.name r.expression.table.name).PercentFree :=
  fun hmem => hr.table ((TableRef.subset_of_ofWords? r.expression.source.reads).1 hmem)

theorem percentFree_inserting (hr : r.NamesPercentFree) (data : Entries Value) :
    (inserting d.engine r.expression.table (writable r.expression data) data r.schema).PercentFree := by
  have hwords : ∀ w ∈ ["INSERT INTO ", " (", ") VALUES (", ")", " RETURNING "], '%' ∉ w.toList := by
    decide
  have hvalues : (commaSeparated
      ((writable r.expression data).map fun c => [.value (valueOf data c)])).PercentFree := by
    exact PercentFree.commaSeparated
      (List.forall_mem_map.mpr fun c _ => List.forall_mem_singleton.mpr trivial)
  have hreturning : (returning d.engine r.schema).PercentFree := by
    unfold returning
    split
    · rename_i key keys hkeys
      obtain ⟨schema, hschema, heq⟩ := Option.map_eq_some_iff.mp hkeys
      refine List.forall_mem_cons.mpr ⟨hwords _ (by simp), PercentFree.nameList ?_⟩
      rw [← heq]
      exact hr.keys schema hschema
    · exact List.forall_mem_nil _
  unfold inserting
  refine ((((PercentFree.append ?_ (.nameList ?_)).append ?_).append hvalues).append ?_).append
    hreturning
  · simp only [PercentFree, List.forall_mem_cons]
    exact ⟨hwords _ (by simp), percentFree_target hr, hwords _ (by simp), List.forall_mem_nil _⟩
  · exact fun c hc => percent_not_mem_writable hc
  · exact List.forall_mem_singleton.mpr (hwords _ (by simp))
  · exact List.forall_mem_singleton.mpr (hwords _ (by simp))

/-- An update up to its clause. -/
theorem percentFree_assigning (hr : r.NamesPercentFree) (data : Entries Value) :
    Statement.PercentFree ([.text "UPDATE ", .name r.expression.table.name, .text " SET "] ++
      Statement.commaSeparated ((writable r.expression data).map (assignment data))) := by
  have hwords : ∀ w ∈ ["UPDATE ", " SET ", " = "], '%' ∉ w.toList := by decide
  refine PercentFree.append ?_ (.commaSeparated ?_)
  · simp only [PercentFree, List.forall_mem_cons]
    exact ⟨hwords _ (by simp), percentFree_target hr, hwords _ (by simp), List.forall_mem_nil _⟩
  · refine List.forall_mem_map.mpr fun c hc => ?_
    simp only [assignment, PercentFree, List.forall_mem_cons]
    exact ⟨percent_not_mem_writable hc, hwords _ (by simp), trivial, List.forall_mem_nil _⟩

/-! ## What is around the clause -/

/-- A statement consists of the clause that restricts it and of what is around it. That has no
percent sign but in the text of the caller, and behind the clause it goes on with wording. -/
def Framed (r : Request) (kind : StatementKind) (s : Statement) : Prop :=
  ∃ before clause behind, s = before ++ clause ++ behind ∧ before.PercentFree ∧
    behind.PercentFree ∧ (∀ p, behind.head? = some p → p.Opens) ∧
    whereClause (r.effectiveFilter kind) (r.effectiveQuery kind) (r.effectiveTable kind) =
      .ok clause

/-- The clause may be the end of the statement. -/
theorem framed_of_front {kind : StatementKind} {before clause : Statement}
    (hbefore : before.PercentFree)
    (hclause : whereClause (r.effectiveFilter kind) (r.effectiveQuery kind) (r.effectiveTable kind) =
      .ok clause) : Framed r kind (before ++ clause) := by
  refine ⟨before, clause, [], (List.append_nil _).symm, hbefore, List.forall_mem_nil _, ?_, hclause⟩
  intro p hp
  cases hp

theorem Framed.text {kind : StatementKind} {s : Statement} (h : Framed r kind s) {w : String}
    (hfree : '%' ∉ w.toList) (hopens : (Piece.text w).Opens) :
    Framed r kind (s ++ [.text w]) := by
  obtain ⟨before, clause, behind, rfl, hbefore, hbehind, hhead, hclause⟩ := h
  have hword : PercentFree [.text w] := List.forall_mem_singleton.mpr hfree
  refine ⟨before, clause, behind ++ [.text w], by simp only [List.append_assoc], hbefore,
    hbehind.append hword, fun p hp => ?_, hclause⟩
  cases behind with
  | nil =>
    cases hp
    exact hopens
  | cons q behind => exact hhead p hp

theorem opens_blank (w : String) : (Piece.text (" " ++ w)).Opens :=
  ⟨' ', by rw [String.toList_append]; rfl, by decide⟩

/-- The trailing clause stands behind a blank. -/
theorem opens_extraClause {e : Expression} {s : Statement} (h : extraClause d e = .ok s) :
    ∀ p, s.head? = some p → p.Opens := by
  unfold extraClause at h
  split at h <;> cases h
  · intro p hp
    cases hp
  · intro p hp
    cases hp
    exact opens_blank ""

theorem framed_select? {paged : Bool} {s : Statement} (hr : r.NamesPercentFree)
    (h : select? d r paged = .ok (some s)) {kind : StatementKind}
    (hkind : kind = .of .query ∨ kind = .of .list) : Framed r kind s := by
  obtain ⟨-, source, restriction, extra, hsource, hwhere, hextra, rfl⟩ := selection_of_select? h
  have hselect : '%' ∉ "SELECT ".toList := by decide
  have hblank : '%' ∉ " ".toList := by decide
  have hitems := percentFree_items d.engine (selected r.expression r.fields) paged
  refine ⟨[.text "SELECT "] ++ Statement.commaSeparated (items d.engine
    (selected r.expression r.fields) paged) ++ [.text " "] ++ source, restriction, extra, rfl, ?_,
    percentFree_extraClause hextra, opens_extraClause hextra, ?_⟩
  · refine ((PercentFree.append ?_ hitems).append ?_).append (percentFree_fromClause hr hsource)
    · exact List.forall_mem_singleton.mpr hselect
    · exact List.forall_mem_singleton.mpr hblank
  · rcases hkind with rfl | rfl <;> exact hwhere

theorem framed_count {s : Statement} (hr : r.NamesPercentFree) (h : count d r = .ok s) :
    Framed r .total s := by
  obtain ⟨source, hsource, h⟩ := ok_of_bind h
  obtain ⟨restriction, hwhere, h⟩ := ok_of_bind h
  cases h
  have htarget : (countTarget r.expression.columns.head?).PercentFree := by
    have hstar : '%' ∉ "*".toList := by decide
    rcases countTarget_cases r.expression.columns.head? with hrows | ⟨ref, hcolumn⟩
    · rw [hrows]
      exact hstar
    · rw [hcolumn]
      trivial
  have hwords : ∀ w ∈ ["SELECT COUNT(", ") AS ", "ct", " "], '%' ∉ w.toList := by decide
  refine framed_of_front (PercentFree.append ?_ (percentFree_fromClause hr hsource)) hwhere
  simp only [PercentFree, List.forall_mem_cons]
  exact ⟨hwords _ (by simp), htarget, hwords _ (by simp), hwords _ (by simp), hwords _ (by simp),
    List.forall_mem_nil _⟩

/-- Every statement of a request whose names have no percent sign. -/
theorem framed_of_compose {kind : StatementKind} {withTotal : Bool} {s : Statement}
    (hr : r.NamesPercentFree) (h : compose d kind withTotal r = .ok (some s)) :
    Framed r kind s := by
  have hone : '%' ∉ " LIMIT 1".toList := by decide
  have hblank : '%' ∉ " ".toList := by decide
  have hwrite := composed_of_compose h
  unfold compose at h
  split at h
  · obtain ⟨selection, hselection, h⟩ := ok_of_bind h
    cases selection with
    | none => cases h
    | some s' =>
      cases h
      exact (framed_select? hr hselection (Or.inl rfl)).text hone (opens_blank "LIMIT 1")
  · split at h
    · exact framed_select? hr h (Or.inr rfl)
    · obtain ⟨selection, hselection, h⟩ := ok_of_bind h
      cases selection with
      | none => cases h
      | some s' =>
        obtain ⟨cut, hcut, h⟩ := ok_of_bind h
        cases h
        refine (framed_select? hr hselection (Or.inr rfl)).text ?_ (opens_blank cut)
        rw [String.toList_append, List.mem_append, not_or]
        exact ⟨hblank, percent_not_mem_limit hcut⟩
  · obtain ⟨s', hs', h⟩ := ok_of_map h
    cases h
    exact framed_count hr hs'
  · cases hwrite with
    | selection hkind => simp at hkind
    | inserting hcolumns =>
      -- an insert has no clause, and all of it is behind
      refine ⟨[], [], _, rfl, List.forall_mem_nil _, percentFree_inserting hr _, ?_, rfl⟩
      intro p hp
      cases hp
      exact ⟨'I', by decide, by decide⟩
  · cases hwrite with
    | selection hkind => simp at hkind
    | updating hquery hcolumns hwhere =>
      exact framed_of_front (percentFree_assigning hr _)
        (r.whereClause_of_restriction (.inl rfl) hquery hwhere)
  · cases hwrite with
    | selection hkind => simp at hkind
    | deleting hquery hwhere =>
      have hword : '%' ∉ "DELETE FROM ".toList := by decide
      exact framed_of_front (List.forall_mem_cons.mpr
        ⟨hword, List.forall_mem_singleton.mpr (percentFree_target hr)⟩)
        (r.whereClause_of_restriction (.inr rfl) hquery hwhere)

end Statement

end TableOps
