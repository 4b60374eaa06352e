import TableOps.Proofs.Reference.Parts
import TableOps.Proofs.Statement.BoundValues
import TableOps.Proofs.Statement.Comparisons

/-!
# A write restricts as a list does

A list writes the filter of an expression as it is; a write first cuts it down to the leaves of its
table and takes their qualifiers away. Both give a condition of the same shape that binds the same
values, provided that a write finds the value of each leaf as the list does. It does not for a leaf
that is qualified by anything else than the alias or the bare name of the table: the write drops
that leaf, also where no other table is joined, and with the last leaf it loses its clause.

* `Leaf.FoundAlike` — a write finds the same value for a leaf; `Leaf.foundAlike_of_owns`, it does
  for the leaves of its table.
* `Leaf.Alike` — a comparison with and without its qualifiers; `Leaf.FoundAlike.comparedAlike`, a
  leaf that is found alike is compared alike.
* `Filter.assemble?_bind_restrict?` — a write assembles the whole filter, with nothing for the
  leaves it drops.
* `Statement.ShareCondition` — two statements have conditions of one shape;
  `Statement.ShareCondition.whereWord_mem_iff`, then they have a clause both or neither.

Main statement: `Statement.restricts_alike`.
-/

namespace TableOps

/-! ## Leaves of a write -/

namespace Leaf

/-- A write finds the same value for the leaf as a list: it keeps the leaf, or there is none. -/
def FoundAlike (table : TableRef) (query : Entries Value) (l : Leaf) : Prop :=
  ((l.restrict? table).bind fun k => query.get? k.column) = query.get? l.column

/-- What is written for a leaf when a write keeps it, and nothing else. -/
def whenKept (table : TableRef) (write : Leaf → Statement) (l : Leaf) : Statement :=
  ((l.restrict? table).map write).getD []

/-- The leaf without its qualifier. -/
def unqualified (l : Leaf) : Leaf :=
  { l with name := l.column }

@[simp] theorem unqualified_name (l : Leaf) : l.unqualified.name = l.column := by
  simp only [unqualified]

@[simp] theorem unqualified_op (l : Leaf) : l.unqualified.op = l.op := by
  simp only [unqualified]

@[simp] theorem unqualified_noArg (l : Leaf) : l.unqualified.noArg = l.noArg := by
  simp only [unqualified]

/-- The leaves that are qualified by the alias or the name of the table, or by nothing, are found
alike. A blank in front of a column behind its qualifier would be lost in a write. -/
theorem foundAlike_of_owns {table : TableRef} {l : Leaf}
    (howns : table.owns (Reference.splitQualifier l.name).1)
    (hblank : Text.trimmed l.column = l.column) (query : Entries Value) :
    l.FoundAlike table query := by
  have hkept : l.restrict? table = some l.unqualified := by
    rw [restrict?, if_pos howns, unqualified]
  have hcolumn : l.unqualified.column = l.column := by
    have hdot : '.' ∉ l.column.toList := Reference.dot_not_mem_column l.name
    rw [column, unqualified_name, Reference.splitQualifier_of_not_mem hdot, hblank]
  rw [FoundAlike, hkept, Option.bind_some, hcolumn]

/-- A comparison of the leaf in a list, and the same in a write: without qualifiers, with the same
operator and the same values. -/
inductive Alike (l : Leaf) : Statement → Statement → Prop where
  /-- The operand names no column. -/
  | operand (operand : Statement) (h : ∀ ref, .column ref ∉ operand) :
      Alike l (l.head ++ operand) (l.unqualified.head ++ operand)
  /-- The operand is a column, perhaps with a qualifier in front of its last dot. -/
  | reference (ref column : String) (hcolumn : '.' ∉ column.toList)
      (href : ref = column ∨ ∃ qualifier, ref = qualifier ++ "." ++ column) :
      Alike l (l.head ++ [.text " ", .column ref])
        (l.unqualified.head ++ [.text " ", .column (Text.trimmed column)])

theorem Alike.ne_nil {l : Leaf} {p q : Statement} (h : l.Alike p q) : p ≠ [] ∧ q ≠ [] := by
  cases h <;> simp [head]

/-- The column of a reference stands behind the last dot, whatever its qualifier becomes. -/
theorem resolve_cases (l : Leaf) (table : Option TableRef) (ref : String) :
    l.resolve table ref = (Reference.splitQualifier ref).2 ∨
      ∃ qualifier, l.resolve table ref = qualifier ++ "." ++ (Reference.splitQualifier ref).2 := by
  unfold resolve
  dsimp only
  split
  · exact Or.inr ⟨_, rfl⟩
  · exact Or.inl rfl

/-- Without qualifiers a reference stays a column. -/
theorem resolve_of_not_mem {l : Leaf} {ref : String} (table : Option TableRef)
    (hl : '.' ∉ l.name.toList) (href : '.' ∉ ref.toList) :
    l.resolve table ref = Text.trimmed ref := by
  rw [resolve, Reference.splitQualifier_of_not_mem href, Reference.splitQualifier_of_not_mem hl]
  rfl

/-- Where the value names no column, the operand names none. -/
theorem column_not_mem_operand {l : Leaf} {table : Option TableRef} {v : Value}
    (hv : v.columnRef? = none) (ref : String) : .column ref ∉ l.operand table v := by
  intro hmem
  unfold operand at hmem
  split at hmem
  · cases hmem
  · unfold markedItems at hmem
    split at hmem
    · rcases @mem_marks _ l _ hmem with ⟨w, -, hw⟩ | ⟨v, hv⟩
      · cases hw
      · cases hv
    · cases hmem
  · simp only [hv] at hmem
    split at hmem
    · cases hmem
    · simp at hmem

/-- Then the qualifier of the leaf does not matter for it either. -/
theorem operand_unqualified {l : Leaf} {v : Value} (hv : v.columnRef? = none)
    (table table' : Option TableRef) : l.unqualified.operand table v = l.operand table' v := by
  cases hop : Operator.ofWording l.op with
  | unary => simp only [operand, unqualified_op, hop]
  | membership => simp only [operand, unqualified_op, hop]
  | binary => simp only [operand, unqualified_op, unqualified_noArg, hop, hv]

/-- A leaf that a write keeps, with a value that refers to no other table, is written alike. -/
theorem alike_operand {l : Leaf} {table target : TableRef} {v : Value}
    (howns : ∀ ref, v.columnRef? = some ref → table.owns (Reference.splitQualifier ref).1) :
    l.Alike (l.head ++ l.operand (some table) v)
      (l.unqualified.head ++ l.unqualified.operand (some target) (v.restrict table)) := by
  cases href : v.columnRef? with
  | none =>
    have hv : v.restrict table = v := by simp [Value.restrict, href]
    rw [hv, operand_unqualified href (some target) (some table)]
    exact .operand _ (column_not_mem_operand href)
  | some ref =>
    have hdot := Reference.dot_not_mem_column ref
    have hkept := Value.columnRef?_restrict_of_owns href (howns ref href)
    by_cases hop : Operator.ofWording l.op = .binary
    · have hop' : Operator.ofWording l.unqualified.op = .binary := by rw [unqualified_op, hop]
      have hname : '.' ∉ l.unqualified.name.toList := by
        rw [unqualified_name]
        exact Reference.dot_not_mem_column l.name
      rw [operand_reference hop href, operand_reference hop' hkept, resolve_of_not_mem _ hname hdot]
      exact .reference _ _ hdot (l.resolve_cases (some table) ref)
    · have hop' : Operator.ofWording l.unqualified.op ≠ .binary := by rwa [unqualified_op]
      rw [operand_eq_nil hop (by rw [href]; rfl), operand_eq_nil hop' (by rw [hkept]; rfl)]
      exact .operand [] (by simp)

theorem eq_unqualified {table : TableRef} {l k : Leaf} (h : l.restrict? table = some k) :
    k = l.unqualified := by
  rw [unqualified]
  exact (eq_of_restrict? h).1

/-- The leaf is compared alike, or it has no value and is not compared. -/
def ComparedAlike (query : Entries Value) (l : Leaf) (p q : Statement) : Prop :=
  if query.has l.column then l.Alike p q else p = [] ∧ q = []

/-- A leaf that is found alike is compared alike. -/
theorem FoundAlike.comparedAlike {l : Leaf} {table target : TableRef} {query : Entries Value}
    (h : l.FoundAlike table query) (hread : ∃ p, l.pieces query (some table) = .ok p)
    (hwrite : ∀ k, l.restrict? table = some k →
      ∃ q, k.pieces (query.mapValues (Value.restrict table)) (some target) = .ok q)
    (howns : ∀ k v ref, l.restrict? table = some k → query.get? k.column = some v →
      v.columnRef? = some ref → table.owns (Reference.splitQualifier ref).1) :
    l.ComparedAlike query (l.piecesOrNone query (some table))
      (l.whenKept table
        (piecesOrNone (query.mapValues (Value.restrict table)) (some target))) := by
  obtain ⟨p, hp⟩ := hread
  unfold FoundAlike at h
  unfold ComparedAlike
  rw [Entries.has, piecesOrNone_eq hp, whenKept]
  cases hk : l.restrict? table with
  | none =>
    -- a leaf that is dropped has no value in the query either
    rw [hk, Option.bind_none] at h
    simp [← h]
  | some k =>
    obtain ⟨q, hq⟩ := hwrite k hk
    rw [hk, Option.bind_some] at h
    rw [Option.map_some, Option.getD_some, piecesOrNone_eq hq, Entries.get?_mapValues, h]
    cases hv : query.get? l.column with
    | none => simp
    | some v =>
      rw [Option.isSome_some, if_pos rfl, Option.map_some, Option.elim_some, Option.elim_some,
        eq_unqualified hk]
      exact alike_operand fun ref href => howns k v ref hk (h.trans hv) href

/-- The values that are bound for a leaf that is found alike are those that a write binds for it. -/
theorem FoundAlike.bound_eq {l : Leaf} {table : TableRef} {query : Entries Value}
    (h : l.FoundAlike table query) :
    ((l.restrict? table).map (bound query)).getD [] = l.bound query := by
  unfold FoundAlike at h
  rw [bound, ← h]
  cases hk : l.restrict? table with
  | none => rfl
  | some k =>
    have hbound : ∀ v, k.boundBy v = l.boundBy v := by
      intro v
      rw [eq_unqualified hk, boundBy, boundBy, unqualified_op, unqualified_noArg]
    rw [Option.map_some, Option.getD_some, Option.bind_some, bound]
    simp only [hbound]

/-- A write binds the same for its leaves as a list does for all of them. -/
theorem flatMap_bound_kept {table : TableRef} {query : Entries Value} {leaves : List Leaf}
    (h : ∀ l ∈ leaves, l.FoundAlike table query) :
    (leaves.filterMap (restrict? table)).flatMap (bound query) = leaves.flatMap (bound query) := by
  rw [List.filterMap_eq_flatMap_toList, List.flatMap_assoc]
  refine List.flatMap_congr fun l hl => ?_
  rw [← (h l hl).bound_eq]
  cases l.restrict? table with
  | none => rfl
  | some k => exact List.append_nil _

end Leaf

/-- A write assembles the whole filter, with nothing for the leaves that it drops. -/
theorem Filter.assemble?_bind_restrict? (table : TableRef) (write : Leaf → Statement)
    (filter : Option Filter) :
    assemble? write (filter.bind (restrict? table)) =
      assemble? (Leaf.whenKept table write) filter := by
  cases filter with
  | none => rw [Option.bind_none, assemble?, assemble?, Option.map_none, Option.map_none]
  | some f =>
    rw [Option.bind_some, restrict?_eq_choose?, assemble?_choose?]
    rfl

/-! ## Statements with conditions of one shape -/

namespace Statement

/-- The clause with a condition, empty without one. -/
def opened (condition : Statement) : Statement :=
  if condition.isEmpty then [] else whereWord :: condition

theorem whereWord_mem_opened {condition : Statement} :
    whereWord ∈ opened condition ↔ condition ≠ [] := by
  cases condition with
  | nil => simp [opened]
  | cons piece pieces => simp [opened]

/-- The statement is restricted by a condition: it has the clause with it, and no other. -/
def HasCondition (s condition : Statement) : Prop :=
  ∃ before behind, s = before ++ opened condition ++ behind ∧
    whereWord ∉ before ∧ whereWord ∉ behind

theorem HasCondition.whereWord_mem_iff {s condition : Statement} (h : s.HasCondition condition) :
    whereWord ∈ s ↔ condition ≠ [] := by
  obtain ⟨before, behind, rfl, hbefore, hbehind⟩ := h
  simp only [List.mem_append, hbefore, hbehind, false_or, or_false, whereWord_mem_opened]

/-- A list and a write are restricted by conditions of one shape: that of the filter, with its
groups and connectives. Each leaf with a value is compared alike in both, the others in neither. -/
def ShareCondition (filter : Option Filter) (query : Entries Value) (page write : Statement) :
    Prop :=
  ∃ read written : Leaf → Statement,
    page.HasCondition (Filter.assemble? read filter) ∧
    write.HasCondition (Filter.assemble? written filter) ∧
    ∀ l ∈ Filter.leavesOf? filter, l.ComparedAlike query (read l) (written l)

/-- With one of the clauses there is the other one. -/
theorem ShareCondition.whereWord_mem_iff {filter : Option Filter} {query : Entries Value}
    {page write : Statement} (h : ShareCondition filter query page write) :
    whereWord ∈ page ↔ whereWord ∈ write := by
  obtain ⟨read, written, hpage, hwrite, hleaves⟩ := h
  rw [hpage.whereWord_mem_iff, hwrite.whereWord_mem_iff, not_iff_not]
  rw [Filter.assemble?_eq_nil_iff, Filter.assemble?_eq_nil_iff]
  refine forall₂_congr fun l hl => ?_
  have halike := hleaves l hl
  unfold Leaf.ComparedAlike at halike
  split at halike
  · exact iff_of_false halike.ne_nil.1 halike.ne_nil.2
  · exact iff_of_true halike.1 halike.2

/-- The clause of a statement holds what is assembled from the leaves of its filter. -/
theorem whereClause_eq {filter : Option Filter} {query : Entries Value} {table : TableRef}
    {clause : Statement} (h : whereClause filter query table = .ok clause) :
    clause = opened (Filter.assemble? (Leaf.piecesOrNone query (some table)) filter) := by
  obtain ⟨c, hc, rfl⟩ := ok_of_map h
  have hcondition : c = Filter.assemble? (Leaf.piecesOrNone query (some table)) filter := by
    cases filter with
    | none =>
      cases hc
      rfl
    | some f => exact Filter.eq_assemble f c (ok_of_mapError hc)
  rw [← hcondition]
  rfl

end Statement

namespace Request

open Statement

/-- A composed statement is restricted by what is assembled from its effective filter. -/
theorem Composed.hasCondition {d : Dialect} {r : Request} {kind : StatementKind} {s : Statement}
    (h : r.Composed d kind s) :
    s.HasCondition (Filter.assemble?
      (Leaf.piecesOrNone (r.effectiveQuery kind) (some (r.effectiveTable kind)))
      (r.effectiveFilter kind)) := by
  obtain ⟨before, clause, behind, rfl, hbefore, hbehind, hclause⟩ := h.clause
  refine ⟨before, behind, ?_, hbefore, hbehind⟩
  rw [whereClause_eq hclause]

/-- All leaves of a composed statement can be written. -/
theorem Composed.exists_pieces {d : Dialect} {r : Request} {kind : StatementKind} {s : Statement}
    (h : r.Composed d kind s) {l : Leaf} (hl : l ∈ Filter.leavesOf? (r.effectiveFilter kind)) :
    ∃ p, l.pieces (r.effectiveQuery kind) (some (r.effectiveTable kind)) = .ok p := by
  obtain ⟨before, clause, behind, -, -, -, hclause⟩ := h.clause
  obtain ⟨parts, hparts, -⟩ := madeOf_whereClause hclause
  obtain ⟨p, -, hp⟩ := hparts.exists_of_mem hl
  exact ⟨p, hp⟩

/-- A write that is restricted has accepted its query. -/
theorem Composed.exists_writeQuery {d : Dialect} {r : Request} {op : Operation} {s : Statement}
    (h : r.Composed d (.of op) s) (hop : op = .update ∨ op = .delete) :
    ∃ query, writeQuery r.expression.table r.expression.filter r.query = .ok query := by
  rcases hop with rfl | rfl
  · cases h with
    | selection hkind => simp at hkind
    | updating hquery hcolumns hwhere => exact ⟨_, hquery⟩
  · cases h with
    | selection hkind => simp at hkind
    | deleting hquery hwhere => exact ⟨_, hquery⟩

/-- The leaves of an update or a deletion are compared with columns of the written table only. -/
theorem Composed.owns_reference {d : Dialect} {r : Request} {op : Operation} {s : Statement}
    (h : r.Composed d (.of op) s) (hop : op = .update ∨ op = .delete) {k : Leaf}
    (hk : k ∈ Filter.leavesOf? (r.effectiveFilter (.of op))) {v : Value} {ref : String}
    (hv : r.query.get? k.column = some v) (href : v.columnRef? = some ref) :
    r.expression.table.owns (Reference.splitQualifier ref).1 := by
  obtain ⟨query, hquery⟩ := h.exists_writeQuery hop
  rw [r.effectiveFilter_of_restricted hop] at hk
  exact owns_of_writeQuery hquery hk hv href

section

variable {d : Dialect} {r r' : Request} {op : Operation} {page write : Statement}

/-- A list and a write of the same expression with the same query, for which the leaves are found
alike, have conditions of one shape. -/
theorem Composed.shareCondition (hread : r.Composed d (.of .list) page)
    (hwritten : r'.Composed d (.of op) write) (hop : op = .update ∨ op = .delete)
    (hexpression : r'.expression = r.expression) (hquery : r'.query = r.query)
    (hfound : ∀ l ∈ Filter.leavesOf? r.expression.filter,
      l.FoundAlike r.expression.table r.query) :
    ShareCondition r.expression.filter r.query page write := by
  have hfilter := r'.effectiveFilter_of_restricted hop
  have hlooked := r'.effectiveQuery_of_restricted hop
  have htarget := r'.effectiveTable_of_restricted hop
  rw [hexpression] at hfilter hlooked htarget
  rw [hquery] at hlooked
  -- what a write keeps of a leaf is a leaf of its own filter
  have hkept : ∀ l ∈ Filter.leavesOf? r.expression.filter, ∀ k,
      l.restrict? r.expression.table = some k →
        k ∈ Filter.leavesOf? (r'.effectiveFilter (.of op)) := by
    intro l hl k hk
    rw [hfilter, Filter.leaves_bind_restrict?]
    exact List.mem_filterMap.mpr ⟨l, hl, hk⟩
  refine ⟨_, Leaf.whenKept r.expression.table (Leaf.piecesOrNone
    (r.query.mapValues (Value.restrict r.expression.table))
    (some (.ofName r.expression.table.name))), hread.hasCondition, ?_, fun l hl => ?_⟩
  · have hcondition := hwritten.hasCondition
    rw [hfilter, hlooked, htarget, Filter.assemble?_bind_restrict?] at hcondition
    exact hcondition
  · refine (hfound l hl).comparedAlike (hread.exists_pieces hl) (fun k hk => ?_) ?_
    · have hpieces := hwritten.exists_pieces (hkept l hl k hk)
      rw [hlooked, htarget] at hpieces
      exact hpieces
    · intro k v ref hk hv href
      rw [← hquery] at hv
      rw [← hexpression]
      exact hwritten.owns_reference hop (hkept l hl k hk) hv href

/-- The write binds its data, and then what the list binds. -/
theorem Composed.values_eq_append (hread : r.Composed d (.of .list) page)
    (hwritten : r'.Composed d (.of op) write) (hop : op = .update ∨ op = .delete)
    (hexpression : r'.expression = r.expression) (hquery : r'.query = r.query)
    (hfound : ∀ l ∈ Filter.leavesOf? r.expression.filter,
      l.FoundAlike r.expression.table r.query) :
    write.values = (r'.written (.of op)).map (valueOf (r'.data.getD [])) ++ page.values := by
  have hbound := Leaf.flatMap_bound_kept hfound
  rw [← Filter.leaves_bind_restrict?] at hbound
  rw [hwritten.values_eq, hread.values_eq, r'.effectiveFilter_of_restricted hop, hexpression, hquery,
    hbound]
  rfl

end

end Request

/-- The list of an expression and an update or a deletion with the same expression and the same
query are restricted by conditions of one shape, with the same comparisons but for qualifiers,
provided that the leaves are found alike. The write binds its data and then what the list binds, and
it has a clause exactly when the list has one. -/
theorem Statement.restricts_alike {d : Dialect} {r r' : Request} {op : Operation}
    {withTotal withTotal' : Bool} {page write : Statement} (hop : op = .update ∨ op = .delete)
    (hexpression : r'.expression = r.expression) (hquery : r'.query = r.query)
    (hfound : ∀ l ∈ Filter.leavesOf? r.expression.filter,
      l.FoundAlike r.expression.table r.query)
    (hpage : compose d (.of .list) withTotal r = .ok (some page))
    (hwrite : compose d (.of op) withTotal' r' = .ok (some write)) :
    ShareCondition r.expression.filter r.query page write ∧
      write.values = (r'.written (.of op)).map (valueOf (r'.data.getD [])) ++ page.values ∧
      (whereWord ∈ page ↔ whereWord ∈ write) := by
  have hread := composed_of_compose hpage
  have hwritten := composed_of_compose hwrite
  have hshare := hread.shareCondition hwritten hop hexpression hquery hfound
  exact ⟨hshare, hread.values_eq_append hwritten hop hexpression hquery hfound,
    hshare.whereWord_mem_iff⟩

/-- A filter with leaves under the alias, under the name and without a qualifier, one of which is
compared with another column. -/
def Request.ofStaff : Request where
  expression :=
    { source := ⟨"shop.Person AS psn", ⟨some "shop", "Person", some "psn"⟩, by decide +kernel⟩
      joins := []
      columns := ["psn.name", "psn.age"]
      transformers := []
      filter := some (.group .and [.leaf ⟨"psn.age", "IN", false⟩,
        .group .or [.leaf ⟨"Person.city", "like", false⟩, .leaf (.equals "addr")],
        .group .or [.leaf (.equals "psn.boss"), .leaf ⟨"left", "IS NULL", false⟩]])
      extra := .null }
  data := some [("age", .int 8)]
  query := [("age", .list [.int 6, .int 7]), ("city", .text "Ba%"), ("boss", .text "@Person.id"),
    ("left", .bool true)]
  fields := none
  page := none
  schema := none

/-- The update has the groups, the operators and the values of the list, without the alias. -/
theorem Statement.restricts_alike_ofStaff :
    ∃ page write,
      compose ⟨.mysql, .format, by decide⟩ (.of .list) true Request.ofStaff = .ok (some page) ∧
      compose ⟨.mysql, .format, by decide⟩ (.of .update) true Request.ofStaff = .ok (some write) ∧
      Dialect.render ⟨.mysql, .format, by decide⟩ page =
        "SELECT `psn`.`name`, `psn`.`age` FROM `Person` AS `psn` WHERE " ++
          "(`psn`.`age` IN (%s, %s) AND `Person`.`city` like %s AND " ++
          "(`psn`.`boss` = `psn`.`id` OR `left` IS NULL))" ∧
      Dialect.render ⟨.mysql, .format, by decide⟩ write =
        "UPDATE `Person` SET `age` = %s WHERE (`age` IN (%s, %s) AND `city` like %s AND " ++
          "(`boss` = `id` OR `left` IS NULL))" ∧
      ShareCondition Request.ofStaff.expression.filter Request.ofStaff.query page write ∧
      write.values = (Request.ofStaff.written (.of .update)).map
        (valueOf (Request.ofStaff.data.getD [])) ++ page.values := by
  have hpage : (compose ⟨.mysql, .format, by decide⟩ (.of .list) true
      Request.ofStaff).toOption.join.map (Dialect.render ⟨.mysql, .format, by decide⟩) =
      some ("SELECT `psn`.`name`, `psn`.`age` FROM `Person` AS `psn` WHERE " ++
        "(`psn`.`age` IN (%s, %s) AND `Person`.`city` like %s AND " ++
        "(`psn`.`boss` = `psn`.`id` OR `left` IS NULL))") := by
    decide +kernel
  have hwrite : (compose ⟨.mysql, .format, by decide⟩ (.of .update) true
      Request.ofStaff).toOption.join.map (Dialect.render ⟨.mysql, .format, by decide⟩) =
      some ("UPDATE `Person` SET `age` = %s WHERE (`age` IN (%s, %s) AND `city` like %s AND " ++
        "(`boss` = `id` OR `left` IS NULL))") := by
    decide +kernel
  obtain ⟨page, hpage, hrender⟩ := Option.map_eq_some_iff.mp hpage
  obtain ⟨write, hwrite, hrender'⟩ := Option.map_eq_some_iff.mp hwrite
  have hpage := ok_of_toOption_join hpage
  have hwrite := ok_of_toOption_join hwrite
  have hfound : ∀ l ∈ Filter.leavesOf? Request.ofStaff.expression.filter,
      l.FoundAlike Request.ofStaff.expression.table Request.ofStaff.query := by
    have hleaves : ∀ l ∈ Filter.leavesOf? Request.ofStaff.expression.filter,
        Request.ofStaff.expression.table.owns (Reference.splitQualifier l.name).1 ∧
          Text.trimmed l.column = l.column := by
      decide +kernel
    exact fun l hl => Leaf.foundAlike_of_owns (hleaves l hl).1 (hleaves l hl).2 _
  obtain ⟨hshare, hvalues, -⟩ := restricts_alike (.inl rfl) rfl rfl hfound hpage hwrite
  exact ⟨page, write, hpage, hwrite, hrender, hrender', hshare, hvalues⟩

/-- A filter with a leaf that is qualified by the database and the table. -/
def Request.ofDatabase : Request where
  expression :=
    { source := ⟨"shop.Person", ⟨some "shop", "Person", none⟩, by decide +kernel⟩
      joins := []
      columns := ["name"]
      transformers := []
      filter := some (.leaf (.equals "shop.Person.name"))
      extra := .null }
  data := none
  query := [("name", .text "x")]
  fields := none
  page := none
  schema := none

/-- The list is restricted, and the deletion with the same filter and the same query deletes every
row. -/
theorem Statement.deletes_all_ofDatabase :
    ∃ page write,
      compose ⟨.mysql, .format, by decide⟩ (.of .list) true Request.ofDatabase = .ok (some page) ∧
      compose ⟨.mysql, .format, by decide⟩ (.of .delete) true Request.ofDatabase =
        .ok (some write) ∧
      Dialect.render ⟨.mysql, .format, by decide⟩ page =
        "SELECT `name` FROM `Person` WHERE `shop`.`Person`.`name` = %s" ∧
      Dialect.render ⟨.mysql, .format, by decide⟩ write = "DELETE FROM `Person`" ∧
      whereWord ∈ page ∧ whereWord ∉ write := by
  have hpage : (compose ⟨.mysql, .format, by decide⟩ (.of .list) true
      Request.ofDatabase).toOption.join.map (Dialect.render ⟨.mysql, .format, by decide⟩) =
      some "SELECT `name` FROM `Person` WHERE `shop`.`Person`.`name` = %s" := by
    decide +kernel
  have hwrite : (compose ⟨.mysql, .format, by decide⟩ (.of .delete) true
      Request.ofDatabase).toOption.join.map (Dialect.render ⟨.mysql, .format, by decide⟩) =
      some "DELETE FROM `Person`" := by
    decide +kernel
  obtain ⟨page, hpage, hrender⟩ := Option.map_eq_some_iff.mp hpage
  obtain ⟨write, hwrite, hrender'⟩ := Option.map_eq_some_iff.mp hwrite
  have hpage := ok_of_toOption_join hpage
  have hwrite := ok_of_toOption_join hwrite
  refine ⟨page, write, hpage, hwrite, hrender, hrender', ?_, ?_⟩
  · rw [(composed_of_compose hpage).restrictedTo.whereWord_mem_iff]
    decide +kernel
  · rw [(composed_of_compose hwrite).restrictedTo.whereWord_mem_iff]
    decide +kernel

end TableOps
