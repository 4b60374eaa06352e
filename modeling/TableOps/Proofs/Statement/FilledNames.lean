import Mathlib.Data.List.Basic
import TableOps.Proofs.Entries
import TableOps.Proofs.Reference.PlainNames
import TableOps.Proofs.Statement.WriteRestriction
import TableOps.Statement.Fill

/-!
# Names from a schema

An expression without columns or filter is given those of the keys of a command that are columns of the
table. The names are read as references again when the statement is composed, which only plain names
survive.

* `Statement.writable_eq_iff` — when the columns of an expression are written as they are named.
* `Statement.whereClause_equalities` — the clause that compares columns with their own values.
* `Command.dataColumns`, `Command.queryColumns` — the keys of a command that are columns, in order.
* `Command.filledStatement` — the statement of a command whose expression is filled from a schema.

Main statement: `Command.filledStatement_names`, the columns that a statement writes and compares when
they are taken from a schema.
-/

namespace TableOps

open Statement Reference

/-! ## The columns of a write -/

namespace Statement

variable {data : Entries Value}

/-- Columns with data, each given once, are all written. -/
theorem writableFrom_eq_self {columns seen : List String} (hhas : ∀ k ∈ columns, data.has k = true)
    (hseen : ∀ k ∈ columns, k ∉ seen) (hnodup : columns.Nodup) :
    writableFrom data seen columns = columns := by
  induction columns generalizing seen with
  | nil => rfl
  | cons k rest ih =>
    obtain ⟨hk, hrest⟩ := List.forall_mem_cons.mp hhas
    obtain ⟨hkseen, hrestseen⟩ := List.forall_mem_cons.mp hseen
    obtain ⟨hfresh, hnodup⟩ := List.nodup_cons.mp hnodup
    have hguard : (data.has k && !seen.contains k) = true := by simp [hk, hkseen]
    rw [writableFrom, if_pos hguard, ih hrest ?_ hnodup]
    intro k' hk' hmem
    rcases List.mem_cons.mp hmem with rfl | hmem
    · exact hfresh hk'
    · exact hrestseen k' hk' hmem

theorem writableFrom_sublist (data : Entries Value) (columns seen : List String) :
    (writableFrom data seen columns).Sublist columns := by
  induction columns generalizing seen with
  | nil => exact List.Sublist.refl _
  | cons k rest ih =>
    unfold writableFrom
    split
    · exact (ih (k :: seen)).cons_cons k
    · exact (ih seen).cons k

/-- Where no table is joined and every column has data, the columns of an expression are written as
they are named exactly when their names are plain. -/
theorem writable_eq_iff {e : Expression} (hjoins : e.joins = [])
    (hhas : ∀ k ∈ e.columns, data.has k = true) (hnodup : e.columns.Nodup) :
    writable e data = e.columns ↔ ∀ k ∈ e.columns, isName k.toList = true := by
  have hown : ownColumns e = e.columns ↔ ∀ k ∈ e.columns, isName k.toList = true := by
    rw [ownColumns, hjoins]
    have hself := List.filterMap_eq_map_iff_forall_eq_some (l := e.columns) (g := id)
      (f := ownColumn? e.table false)
    rw [List.map_id] at hself
    refine hself.trans (forall₂_congr fun k _ => ?_)
    exact ownColumn?_eq_self_iff e.table k
  rw [← hown, writable]
  constructor
  · intro h
    -- nothing is added on the way, so nothing may be lost either
    have hwritten := writableFrom_sublist data (ownColumns e) []
    rw [h] at hwritten
    exact (hwritten.eq_of_length_le (List.length_filterMap_le _ _)).symm
  · intro h
    rw [h]
    exact writableFrom_eq_self hhas (fun _ _ => List.not_mem_nil) hnodup

/-! ## The clause of plain comparisons -/

/-- The comparison of a column for equality. -/
def equality (column : String) (operand : Piece) : Statement :=
  [.column column, .text " ", .text "=", .text " ", operand]

/-- What a column is compared with: its query value, or the column that the value names. -/
def ownOperand (query : Entries Value) (table : TableRef) (k : String) : Piece :=
  match (valueOf query k).columnRef? with
  | some ref => .column ((Leaf.equals k).resolve (some table) ref)
  | none => .value (valueOf query k)

variable {query : Entries Value} {table : TableRef}

/-- A plain name with a value is compared with that value. -/
theorem pieces_equals {k : String} (hname : isName k.toList = true) (hhas : query.has k = true) :
    (Leaf.equals k).pieces query (some table) = .ok (equality k (ownOperand query table k)) := by
  have hcolumn : (Leaf.equals k).column = k :=
    congrArg Prod.snd (splitQualifier_of_isName hname)
  obtain ⟨v, hv⟩ := Option.isSome_iff_exists.mp hhas
  have hvalue : valueOf query k = v := by rw [valueOf, hv, Option.getD_some]
  have hop : Operator.ofWording (Leaf.equals k).op = .binary :=
    show Operator.ofWording "=" = .binary by decide +kernel
  have hwording : Operator.wording (Leaf.equals k).op = "=" :=
    show Operator.wording "=" = "=" by decide +kernel
  unfold Leaf.pieces Leaf.piecesWith
  simp only [hcolumn, hv, hop, hwording]
  rw [ownOperand, hvalue]
  cases v.columnRef? <;> rfl

/-- Filters that all have pieces are written side by side. -/
theorem piecesOf_map {filter : String → Filter} {written : String → Statement} {keys : List String}
    (h : ∀ k ∈ keys, (filter k).pieces query (some table) = .ok (written k) ∧ written k ≠ []) :
    Filter.piecesOf query (some table) (keys.map filter) = .ok (keys.map written) := by
  induction keys with
  | nil => rfl
  | cons k keys ih =>
    obtain ⟨⟨hk, hne⟩, hkeys⟩ := List.forall_mem_cons.mp h
    rw [List.map_cons, List.map_cons, Filter.piecesOf, hk]
    dsimp only
    rw [ih hkeys]
    dsimp only
    rw [if_neg (by simpa using hne)]

/-- Joined filters have the condition of what is written for them. -/
theorem condition_join? {connective : Connective} {fs : List Filter} {ss : List Statement}
    (h : Filter.piecesOf query (some table) fs = .ok ss) :
    condition (Filter.join? connective fs) query table = .ok (Filter.enclose connective ss) := by
  unfold Filter.join?
  split
  · cases h
    rfl
  · rename_i f
    obtain ⟨s, rest, hf, hrest, rfl⟩ := Filter.ok_of_piecesOf_cons h
    cases hrest
    rw [condition, hf]
    cases s <;> rfl
  · rw [condition, Filter.pieces, h]
    rfl

/-- The clause that compares columns with plain names with their own values. -/
theorem whereClause_equalities {keys : List String} (hnames : ∀ k ∈ keys, isName k.toList = true)
    (hhas : ∀ k ∈ keys, query.has k = true) :
    whereClause (Filter.join? .and (keys.map fun k => .leaf (.equals k))) query table =
      .ok (opened (Filter.enclose .and (keys.map fun k => equality k (ownOperand query table k)))) := by
  have hpieces : Filter.piecesOf query (some table) (keys.map fun k => .leaf (.equals k)) =
      .ok (keys.map fun k => equality k (ownOperand query table k)) :=
    piecesOf_map fun k hk => ⟨pieces_equals (hnames k hk) (hhas k hk), List.cons_ne_nil _ _⟩
  rw [whereClause, condition_join? hpieces]
  rfl

end Statement

/-! ## Requests that compare plain names -/

/-- Columns with plain names are compared in a write as well. -/
theorem Filter.join?_bind_restrict? (table : TableRef) {keys : List String}
    (hnames : ∀ k ∈ keys, isName k.toList = true) :
    (join? .and (keys.map fun k => .leaf (.equals k))).bind (restrict? table) =
      join? .and (keys.map fun k => .leaf (.equals k)) := by
  have hleaf : ∀ k ∈ keys, (Leaf.equals k).restrict? table = some (.equals k) := fun k hk => by
    have hsplit : splitQualifier (Leaf.equals k).name = (none, k) :=
      splitQualifier_of_isName (hnames k hk)
    rw [Leaf.restrict?, Leaf.column, hsplit]
    rfl
  have hchoose : restrict? table = choose? (Leaf.restrict? table) :=
    funext (restrict?_eq_choose? table)
  rw [hchoose, join?_bind_choose?]
  congr 1
  induction keys with
  | nil => rfl
  | cons k keys ih =>
    obtain ⟨hk, hkeys⟩ := List.forall_mem_cons.mp hleaf
    rw [List.map_cons, chooseAll, choose?, hk, ih (List.forall_mem_cons.mp hnames).2 hkeys]
    rfl

/-- The columns that such a filter looks up are its names. -/
theorem Filter.columns_join? {keys : List String} (hnames : ∀ k ∈ keys, isName k.toList = true) :
    ((join? .and (keys.map fun k => .leaf (.equals k))).map columns).getD [] = keys := by
  have hcolumns : ∀ filter : Option Filter,
      (filter.map columns).getD [] = (leavesOf? filter).map Leaf.column := by
    rintro (_ | f) <;> rfl
  rw [hcolumns, leavesOf?_join?]
  induction keys with
  | nil => rfl
  | cons k keys ih =>
    obtain ⟨hk, hkeys⟩ := List.forall_mem_cons.mp hnames
    have hcolumn : (Leaf.equals k).column = k := congrArg Prod.snd (splitQualifier_of_isName hk)
    rw [List.map_cons, leavesOf, leaves, List.map_append, ih hkeys, List.map_singleton, hcolumn]
    rfl

namespace Statement

theorem requireWritable_of_ne_nil {columns : List String} (h : columns ≠ []) (table : TableRef)
    (op : Operation) : requireWritable table op columns = .ok columns := by
  unfold requireWritable
  split
  · contradiction
  · rfl

/-- The insert of a row with a column that is written. -/
theorem insert_eq (d : Dialect) {r : Request} (h : r.written (.of .insert) ≠ []) :
    insert d r = .ok (inserting d.engine r.expression.table (r.written (.of .insert))
      (r.data.getD []) r.schema) := by
  rw [Request.written] at h ⊢
  rw [insert, requireWritable_of_ne_nil h]
  rfl

/-- An update with a column that is written is refused only for its restriction. -/
theorem update_eq {r : Request} (h : r.written (.of .update) ≠ []) :
    update r = do
      let query ← writeQuery r.expression.table r.expression.filter r.query
      let clause ← restriction r.expression.table r.expression.filter query
      return updating r.expression.table (r.written (.of .update)) (r.data.getD []) clause := by
  rw [Request.written] at h ⊢
  unfold update
  dsimp only
  rw [requireWritable_of_ne_nil h]
  rfl

/-- What restricts a write is refused for a value of the query. -/
theorem malformed_of_restriction {table : TableRef} {filter : Option Filter} {query : Entries Value}
    {f : Failure} (h : restriction table filter query = .error f) : ∃ m, f = .malformed m := by
  have h := error_of_map h
  unfold condition at h
  split at h
  · cases h
  · obtain ⟨u, -, rfl⟩ := error_of_mapError h
    exact ⟨_, rfl⟩

/-- A statement writes some columns of a table, each with its own data. -/
inductive Writes (engine : Engine) (table : TableRef) (data : Entries Value)
    (schema : Option TableSchema) (columns : List String) : Operation → Statement → Prop where
  | insert : Writes engine table data schema columns .insert
      (inserting engine table columns data schema)
  | update (clause : Statement) : Writes engine table data schema columns .update
      (updating table columns data clause)

end Statement

namespace Request

variable {d : Dialect} {r : Request} {op : Operation} {withTotal : Bool} {s : Statement}

theorem Composed.writes (h : r.Composed d (.of op) s) (hop : op = .insert ∨ op = .update) :
    Writes d.engine r.expression.table (r.data.getD []) r.schema (r.written (.of op)) op s := by
  rcases hop with rfl | rfl
  · cases h with
    | selection hkind => simp at hkind
    | inserting => exact .insert
  · cases h with
    | selection hkind => simp at hkind
    | updating => exact .update _

/-- A write that writes a column is not refused for lack of one. -/
theorem compose_ne_noWritable (hop : op = .insert ∨ op = .update) (h : r.written (.of op) ≠ [])
    (table operation : String) :
    compose d (.of op) withTotal r ≠ .error (.noWritableColumns table operation) := by
  intro herror
  rcases hop with rfl | rfl
  · rw [compose, insert_eq d h] at herror
    cases herror
  · rw [compose, update_eq h] at herror
    rcases error_of_bind (error_of_map herror) with hquery | ⟨query, -, herror⟩
    · obtain ⟨key, v, ref, -, -, -, -, hf⟩ := exists_foreign_of_restrictQuery hquery
      cases hf
    · rcases error_of_bind herror with hclause | ⟨clause, -, herror⟩
      · obtain ⟨m, hm⟩ := malformed_of_restriction hclause
        cases hm
      · cases herror

/-- An update or a deletion that compares plain names is composed unless one of them is compared with
a column of another table. -/
theorem compose_restricted {keys : List String}
    (hop : op = .update ∧ r.written (.of .update) ≠ [] ∨ op = .delete)
    (hfilter : r.expression.filter = Filter.join? .and (keys.map fun k => .leaf (.equals k)))
    (hnames : ∀ k ∈ keys, isName k.toList = true) (hhas : ∀ k ∈ keys, r.query.has k = true) :
    (∃ s, compose d (.of op) withTotal r = .ok (some s)) ∨
      ∃ k v ref, k ∈ keys ∧ (k, v) ∈ r.query ∧ v.columnRef? = some ref ∧
        ¬ r.expression.table.owns (splitQualifier ref).1 ∧
        compose d (.of op) withTotal r =
          .error (.malformed (.foreignColumn ref r.expression.table.name k)) := by
  have hcompose : ∃ write : Statement → Statement, compose d (.of op) withTotal r =
      some <$> (do
        let query ← writeQuery r.expression.table r.expression.filter r.query
        let clause ← restriction r.expression.table r.expression.filter query
        return write clause) := by
    rcases hop with ⟨rfl, hwritten⟩ | rfl
    · rw [compose, update_eq hwritten]
      exact ⟨_, rfl⟩
    · exact ⟨deleting r.expression.table, rfl⟩
  obtain ⟨write, hcompose⟩ := hcompose
  rw [hcompose]
  cases hquery : writeQuery r.expression.table r.expression.filter r.query with
  | error f =>
    obtain ⟨k, v, ref, hmem, href, hused, howns, rfl⟩ := exists_foreign_of_restrictQuery hquery
    rw [hfilter, Filter.join?_bind_restrict? _ hnames, Filter.columns_join? hnames] at hused
    exact .inr ⟨k, v, ref, hused, hmem, href, howns, rfl⟩
  | ok query =>
    -- every comparison can be written
    have hkept : ∀ k ∈ keys, query.has k = true := fun k hk => by
      rw [restrictQuery_eq hquery, Entries.has, Entries.get?_mapValues, Option.isSome_map]
      exact hhas k hk
    have hclause : whereClause (Filter.join? .and (keys.map fun k => .leaf (.equals k))) query
        (.ofName r.expression.table.name) = .ok (opened (Filter.enclose .and (keys.map fun k =>
          equality k (ownOperand query (.ofName r.expression.table.name) k)))) :=
      whereClause_equalities hnames hkept
    rw [← Filter.join?_bind_restrict? r.expression.table hnames, ← hfilter] at hclause
    refine .inl ⟨write (opened (Filter.enclose .and (keys.map fun k =>
      equality k (ownOperand query (.ofName r.expression.table.name) k)))), ?_⟩
    show some <$> (restriction r.expression.table r.expression.filter query >>= _) = _
    rw [restriction, hclause]
    rfl

end Request

/-! ## Commands that are filled in -/

namespace Command

/-- The keys of the data that are columns of a schema, in order. -/
def dataColumns (c : Command) (schema : TableSchema) : List String :=
  (c.data.getD []).keys.filter schema.columnNames.contains

/-- The keys of the query that are columns of a schema, in order. -/
def queryColumns (c : Command) (schema : TableSchema) : List String :=
  c.query.keys.filter schema.columnNames.contains

/-- The statement of a command whose expression is filled in from a schema. -/
def filledStatement (c : Command) (e : Expression) (schema : TableSchema) (d : Dialect)
    (withTotal : Bool) : Except Failure (Option Statement) := do
  let e ← autoFill c e schema
  compose d (.of c.operation) withTotal { c.request e with schema := some schema }

/-- What a column in the query of a command is compared with. -/
def operandOf (c : Command) (e : Expression) (k : String) : Piece :=
  ownOperand ((c.request e).effectiveQuery (.of c.operation))
    ((c.request e).effectiveTable (.of c.operation)) k

/-- The comparisons of the columns in the query of a command with their own values. -/
def ownCondition (c : Command) (e : Expression) (schema : TableSchema) : Statement :=
  Filter.enclose .and ((c.queryColumns schema).map fun k => equality k (c.operandOf e k))

variable {c : Command} {e e' : Expression} {schema : TableSchema} {d : Dialect} {withTotal : Bool}

/-- What a schema supplies to an expression; a write without columns gets those with data. -/
structure FilledFrom (c : Command) (e e' : Expression) (schema : TableSchema) : Prop where
  table : e'.table = e.table
  joins : e'.joins = e.joins
  filter : e'.filter = e.filter.or (comparisons schema.columnNames c.query.keys)
  columns : c.operation = .insert ∨ c.operation = .update → e.columns = [] →
    e'.columns = c.dataColumns schema ∧ c.dataColumns schema ≠ []

/-- A write that has no columns and no data for any is refused. -/
theorem autoFill_eq_error (hop : c.operation = .insert ∨ c.operation = .update)
    (hcolumns : e.columns = []) (h : c.dataColumns schema = []) :
    autoFill c e schema = .error (.noWritableColumns e.table.name c.operation.name) := by
  unfold dataColumns at h
  unfold autoFill suppliedColumns writableKeys
  rcases hop with hop | hop <;> rw [hcolumns, hop, h] <;> rfl

/-- Any other command is filled in. -/
theorem exists_filledFrom (h : c.operation = .insert ∨ c.operation = .update → e.columns = [] →
      c.dataColumns schema ≠ []) :
    ∃ e', autoFill c e schema = .ok e' ∧ c.FilledFrom e e' schema := by
  have hsupplied : ∃ columns, suppliedColumns c e schema.columnNames = .ok columns ∧
      (c.operation = .insert ∨ c.operation = .update → e.columns = [] →
        columns = some (c.dataColumns schema)) := by
    unfold suppliedColumns
    cases hcolumns : e.columns with
    | cons k columns => exact ⟨none, rfl, fun _ hnil => nomatch hnil⟩
    | nil =>
      have hwrite : c.operation = .insert ∨ c.operation = .update →
          writableKeys e.table c.operation schema.columnNames (c.data.getD []).keys =
            .ok (c.dataColumns schema) := fun hop => by
        have hsome := h hop hcolumns
        unfold dataColumns at hsome ⊢
        unfold writableKeys
        split
        · contradiction
        · rfl
      cases hop : c.operation with
      | query => exact ⟨some schema.columnNames, rfl, by simp⟩
      | list => exact ⟨some schema.columnNames, rfl, by simp⟩
      | delete => exact ⟨none, rfl, by simp⟩
      | insert =>
        rw [hop] at hwrite
        exact ⟨some (c.dataColumns schema), congrArg (some <$> ·) (hwrite (.inl rfl)), by simp⟩
      | update =>
        rw [hop] at hwrite
        exact ⟨some (c.dataColumns schema), congrArg (some <$> ·) (hwrite (.inr rfl)), by simp⟩
  obtain ⟨columns, hsupplied, hdata⟩ := hsupplied
  refine ⟨e.derive { Changes.none with
      columns := columns
      filter := some (e.filter.or (comparisons schema.columnNames c.query.keys)) }, ?_, rfl, rfl, rfl,
    fun hop hcolumns => ⟨?_, h hop hcolumns⟩⟩
  · rw [autoFill, hsupplied]
    rfl
  · rw [hdata hop hcolumns]
    rfl

theorem filledFrom_of_autoFill (h : autoFill c e schema = .ok e') : c.FilledFrom e e' schema := by
  obtain ⟨e'', hfill, hfilled⟩ : ∃ e'', autoFill c e schema = .ok e'' ∧
      c.FilledFrom e e'' schema := by
    refine exists_filledFrom fun hop hcolumns hnone => ?_
    rw [autoFill_eq_error hop hcolumns hnone] at h
    cases h
  obtain rfl : e' = e'' := Except.ok.inj (h.symm.trans hfill)
  exact hfilled

/-- The request of a command that is filled in. -/
def filledRequest (c : Command) (e' : Expression) (schema : TableSchema) : Request :=
  { c.request e' with schema := some schema }

theorem filledStatement_eq (h : autoFill c e schema = .ok e') :
    c.filledStatement e schema d withTotal =
      compose d (.of c.operation) withTotal (c.filledRequest e' schema) := by
  rw [filledStatement, h]
  rfl

section

variable (hfilled : c.FilledFrom e e' schema)

include hfilled

/-- The columns with data are all written exactly when their names are plain. -/
theorem FilledFrom.written_eq_iff (hjoins : e.joins = []) (hcolumns : e.columns = [])
    (hdata : (c.data.getD []).keys.Nodup)
    (hop : c.operation = .insert ∨ c.operation = .update) :
    (c.filledRequest e' schema).written (.of c.operation) = c.dataColumns schema ↔
      ∀ k ∈ c.dataColumns schema, isName k.toList = true := by
  have hwritten : (c.filledRequest e' schema).written (.of c.operation) =
      writable e' (c.data.getD []) := by
    rcases hop with hop | hop <;> rw [hop] <;> rfl
  have hcolumns' := (hfilled.columns hop hcolumns).1
  rw [hwritten, ← hcolumns']
  apply writable_eq_iff
  · rw [hfilled.joins, hjoins]
  · rw [hcolumns']
    exact fun k hk => Entries.has_of_mem_keys (List.mem_of_mem_filter hk)
  · rw [hcolumns']
    exact hdata.filter _

/-- The clause of a command whose filter is supplied. -/
theorem FilledFrom.whereClause_eq (hop : c.operation ≠ .insert) (hfilter : e.filter = none)
    (hnames : ∀ k ∈ c.queryColumns schema, isName k.toList = true) :
    whereClause ((c.filledRequest e' schema).effectiveFilter (.of c.operation))
      ((c.filledRequest e' schema).effectiveQuery (.of c.operation))
      ((c.filledRequest e' schema).effectiveTable (.of c.operation)) =
        .ok (opened (c.ownCondition e schema)) := by
  have hsupplied : e'.filter =
      Filter.join? .and ((c.queryColumns schema).map fun k => .leaf (.equals k)) := by
    rw [hfilled.filter, hfilter]
    rfl
  have heffective : (c.filledRequest e' schema).effectiveFilter (.of c.operation) =
      Filter.join? .and ((c.queryColumns schema).map fun k => .leaf (.equals k)) := by
    rw [← hsupplied]
    cases h : c.operation with
    | query => rfl
    | list => rfl
    | insert => exact absurd h hop
    | update | delete =>
      show e'.filter.bind (Filter.restrict? e'.table) = e'.filter
      rw [hsupplied, Filter.join?_bind_restrict? _ hnames]
  have hhas : ∀ k ∈ c.queryColumns schema,
      ((c.filledRequest e' schema).effectiveQuery (.of c.operation)).has k = true := fun k hk => by
    rw [Request.has_effectiveQuery]
    exact Entries.has_of_mem_keys (List.mem_of_mem_filter hk)
  have hquery : (c.filledRequest e' schema).effectiveQuery (.of c.operation) =
      (c.request e).effectiveQuery (.of c.operation) := by
    cases c.operation with
    | update | delete =>
      show c.query.mapValues (Value.restrict e'.table) = c.query.mapValues (Value.restrict e.table)
      rw [hfilled.table]
    | _ => rfl
  have htable : (c.filledRequest e' schema).effectiveTable (.of c.operation) =
      (c.request e).effectiveTable (.of c.operation) := by
    cases c.operation with
    | update | delete =>
      show TableRef.ofName e'.table.name = TableRef.ofName e.table.name
      rw [hfilled.table]
    | _ => exact hfilled.table
  rw [heffective, whereClause_equalities hnames hhas, hquery, htable]
  rfl

end

/-- A value that names no column is what its column is compared with. -/
theorem operandOf_eq {k : String} (h : (valueOf c.query k).columnRef? = none) :
    c.operandOf e k = .value (valueOf c.query k) := by
  have hvalue : valueOf ((c.request e).effectiveQuery (.of c.operation)) k = valueOf c.query k := by
    have hrestrict : valueOf (c.query.mapValues (Value.restrict e.table)) k = valueOf c.query k := by
      unfold valueOf at h ⊢
      rw [Entries.get?_mapValues]
      cases hv : c.query.get? k with
      | none => rfl
      | some v =>
        rw [hv, Option.getD_some] at h
        rw [Option.map_some, Option.getD_some, Option.getD_some, Value.restrict, h]
    cases c.operation with
    | update | delete => exact hrestrict
    | _ => rfl
  rw [operandOf, ownOperand, hvalue, h]

/-! ## The statement -/

/-- The statement of a command on an unjoined expression without columns. An insert or update is
refused when no key of the data is a column of the table, and only then if all those keys have plain
names; it writes the keys that are columns, in order and each with its own data, exactly when their
names are plain. Without a filter of its own a statement other than an insert is restricted by the
comparisons of the keys of the query that are columns, joined in order, each quoted as it is named and
with its own value, exactly when their names are plain; then only a value that names a column of
another table keeps a write from being composed. -/
theorem filledStatement_names (c : Command) {e : Expression} (schema : TableSchema) (d : Dialect)
    (withTotal : Bool) (hjoins : e.joins = []) (hcolumns : e.columns = [])
    (hdata : (c.data.getD []).keys.Nodup) :
    (c.operation = .insert ∨ c.operation = .update →
      (c.dataColumns schema = [] → c.filledStatement e schema d withTotal =
        .error (.noWritableColumns e.table.name c.operation.name)) ∧
      (c.dataColumns schema ≠ [] → (∀ k ∈ c.dataColumns schema, isName k.toList = true) →
        (∀ table operation, c.filledStatement e schema d withTotal ≠
          .error (.noWritableColumns table operation)) ∧
        (c.operation = .insert → ∃ s, c.filledStatement e schema d withTotal = .ok (some s))) ∧
      ∀ s, c.filledStatement e schema d withTotal = .ok (some s) → ∃ columns,
        Writes d.engine e.table (c.data.getD []) (some schema) columns c.operation s ∧
        (columns = c.dataColumns schema ↔ ∀ k ∈ c.dataColumns schema, isName k.toList = true)) ∧
    (c.operation ≠ .insert → e.filter = none →
      (∀ s, c.filledStatement e schema d withTotal = .ok (some s) → ∃ condition,
        s.HasCondition condition ∧
        (condition = c.ownCondition e schema ∧
          (∀ k ∈ c.queryColumns schema, d.columnText k = d.identifier k) ↔
            ∀ k ∈ c.queryColumns schema, isName k.toList = true)) ∧
      (∀ k, (valueOf c.query k).columnRef? = none → c.operandOf e k = .value (valueOf c.query k)) ∧
      ((∀ k ∈ c.dataColumns schema ++ c.queryColumns schema, isName k.toList = true) →
        c.operation = .update ∧ c.dataColumns schema ≠ [] ∨ c.operation = .delete →
        (∃ s, c.filledStatement e schema d withTotal = .ok (some s)) ∨
          ∃ k v ref, k ∈ c.queryColumns schema ∧ (k, v) ∈ c.query ∧ v.columnRef? = some ref ∧
            ¬ e.table.owns (splitQualifier ref).1 ∧ c.filledStatement e schema d withTotal =
              .error (.malformed (.foreignColumn ref e.table.name k)))) := by
  constructor
  · intro hop
    refine ⟨fun hnone => ?_, fun hsome hnames => ?_, fun s hs => ?_⟩
    · rw [filledStatement, autoFill_eq_error hop hcolumns hnone]
      rfl
    · obtain ⟨e', hfill, hfilled⟩ := exists_filledFrom (c := c) (e := e) fun _ _ => hsome
      have hwritten := (hfilled.written_eq_iff hjoins hcolumns hdata hop).mpr hnames
      rw [filledStatement_eq hfill]
      rw [← hwritten] at hsome
      refine ⟨Request.compose_ne_noWritable hop hsome, fun hinsert => ?_⟩
      rw [hinsert] at hsome ⊢
      rw [compose, insert_eq d hsome]
      exact ⟨_, rfl⟩
    · obtain ⟨e', hfill, hcompose⟩ := ok_of_bind hs
      have hfilled := filledFrom_of_autoFill hfill
      refine ⟨_, ?_, hfilled.written_eq_iff hjoins hcolumns hdata hop⟩
      have hwrites := (composed_of_compose hcompose).writes hop
      rw [← hfilled.table]
      exact hwrites
  · intro hop hfilter
    refine ⟨fun s hs => ?_, fun k hk => operandOf_eq hk, fun hnames hwrite => ?_⟩
    · obtain ⟨e', hfill, hcompose⟩ := ok_of_bind hs
      have hcomposed := composed_of_compose hcompose
      by_cases hnames : ∀ k ∈ c.queryColumns schema, isName k.toList = true
      · have hclause := (filledFrom_of_autoFill hfill).whereClause_eq hop hfilter hnames
        obtain ⟨before, clause, behind, hs, hbefore, hbehind, hwhere⟩ := hcomposed.clause
        obtain rfl : clause = opened (c.ownCondition e schema) :=
          Except.ok.inj (hwhere.symm.trans hclause)
        refine ⟨_, ⟨before, behind, hs, hbefore, hbehind⟩, ?_⟩
        exact iff_of_true ⟨rfl, fun k hk => d.columnText_of_isName (hnames k hk)⟩ hnames
      · -- a name that is not plain is quoted otherwise, wherever it stands
        refine ⟨_, hcomposed.hasCondition, iff_of_false (fun h => hnames fun k hk => ?_) hnames⟩
        exact d.columnText_eq_identifier_iff.mp (h.2 k hk)
    · obtain ⟨hdatanames, hquerynames⟩ := List.forall_mem_append.mp hnames
      obtain ⟨e', hfill, hfilled⟩ : ∃ e', autoFill c e schema = .ok e' ∧
          c.FilledFrom e e' schema :=
        exists_filledFrom fun hop' _ =>
          (hwrite.resolve_right (by rcases hop' with h | h <;> simp [h])).2
      rw [filledStatement_eq hfill, ← hfilled.table]
      apply Request.compose_restricted (r := c.filledRequest e' schema)
      · refine hwrite.imp_left fun ⟨hupdate, hsome⟩ => ⟨hupdate, ?_⟩
        rwa [← hupdate, (hfilled.written_eq_iff hjoins hcolumns hdata (.inr hupdate)).mpr hdatanames]
      · show e'.filter = _
        rw [hfilled.filter, hfilter]
        rfl
      · exact hquerynames
      · exact fun k hk => Entries.has_of_mem_keys (List.mem_of_mem_filter hk)

/-- The columns of a table. -/
def peopleSchema : TableSchema where
  title := "Person"
  columns := [("id", .ofKind "integer"), ("name", .ofKind "string"), ("age", .ofKind "integer"),
    ("home.city", .ofKind "string")]
  primaryKey := ["id"]
  options := []

/-- The rows of that table, under an alias. -/
def people : Expression where
  source := ⟨"Person psn", ⟨none, "Person", some "psn"⟩, TableRef.ofWords?_person⟩
  joins := []
  columns := []
  transformers := []
  filter := none
  extra := .null

/-- An update of two columns, with a key that is no column, of the rows with an id whose name is that
of another column. -/
def renamePeople : Command where
  operation := .update
  target := .given people
  data := some [("age", .int 7), ("nick", .text "J."), ("name", .text "Jane")]
  query := [("id", .int 1), ("nick", .text "Jan"), ("name", .text "@psn.age")]
  page := none
  fields := none
  connection := .null
  refresh := false
  schema := some peopleSchema
  debug := false

/-- Two of the keys are columns of the table in the data, and two in the query. -/
theorem filledStatement_names_plain :
    ∃ s, renamePeople.filledStatement people peopleSchema (Dialect.standard .mysql) true =
        .ok (some s) ∧
      (Dialect.standard .mysql).render s = "UPDATE `Person` SET `age` = %s, `name` = %s " ++
        "WHERE (`id` = %s AND `name` = `age`)" ∧
      (∃ columns, Writes .mysql people.table (renamePeople.data.getD []) (some peopleSchema) columns
          .update s ∧ columns = ["age", "name"]) ∧
      s.HasCondition (renamePeople.ownCondition people peopleSchema) ∧
      renamePeople.operandOf people "id" = .value (.int 1) := by
  have htext : (renamePeople.filledStatement people peopleSchema (Dialect.standard .mysql)
      true).toOption.join.map (Dialect.render (Dialect.standard .mysql)) =
      some ("UPDATE `Person` SET `age` = %s, `name` = %s WHERE (`id` = %s AND `name` = `age`)") := by
    decide +kernel
  obtain ⟨s, hs, hrender⟩ := Option.map_eq_some_iff.mp htext
  have hcompose := ok_of_toOption_join hs
  obtain ⟨hwrite, hrestrict⟩ := filledStatement_names renamePeople (e := people) peopleSchema
    (Dialect.standard .mysql) true rfl rfl (by decide +kernel)
  obtain ⟨-, -, hwrites⟩ := hwrite (.inr rfl)
  obtain ⟨hconditions, hoperands, -⟩ := hrestrict (by decide) rfl
  obtain ⟨columns, hcolumns, hplain⟩ := hwrites s hcompose
  obtain ⟨condition, hcondition, hown⟩ := hconditions s hcompose
  refine ⟨s, hcompose, hrender, ⟨columns, hcolumns, ?_⟩, ?_, ?_⟩
  · rw [hplain.mpr (by decide +kernel)]
    decide +kernel
  · rw [← (hown.mpr (by decide +kernel)).1]
    exact hcondition
  · rw [hoperands "id" rfl]
    rfl

/-- A deletion by a column whose name has a dot in it. -/
def deleteByCity : Command where
  operation := .delete
  target := .given people
  data := none
  query := [("home.city", .text "Oslo")]
  page := none
  fields := none
  connection := .null
  refresh := false
  schema := some peopleSchema
  debug := false

/-- A column whose name is not plain is not compared: here all rows are deleted. -/
theorem filledStatement_of_dotted :
    deleteByCity.queryColumns peopleSchema = ["home.city"] ∧
    ∃ s, deleteByCity.filledStatement people peopleSchema (Dialect.standard .mysql) true =
        .ok (some s) ∧
      (Dialect.standard .mysql).render s = "DELETE FROM `Person`" ∧ s.values = [] := by
  refine ⟨by decide +kernel, ?_⟩
  have htext : (deleteByCity.filledStatement people peopleSchema (Dialect.standard .mysql)
      true).toOption.join.map (fun s => ((Dialect.standard .mysql).render s, s.values.isEmpty)) =
      some ("DELETE FROM `Person`", true) := by
    decide +kernel
  obtain ⟨s, hs, hshown⟩ := Option.map_eq_some_iff.mp htext
  obtain ⟨hrender, hvalues⟩ := Prod.mk.inj hshown
  exact ⟨s, ok_of_toOption_join hs, hrender, List.isEmpty_iff.mp hvalues⟩

end Command

end TableOps
