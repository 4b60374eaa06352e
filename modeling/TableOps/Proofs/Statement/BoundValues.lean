import TableOps.Proofs.Statement.Composed
import TableOps.Proofs.Statement.Placeholders

/-!
# Bound values

The values that the statement of a request binds: those of the written columns in the order in which
the statement names them, then those that the leaves of the effective filter bind, from left to
right.

* `Leaf.bound` — the values that a leaf binds for a query.
* `Request.written`, `Request.effectiveFilter` — the columns that are written and the filter that
  restricts the statement.
* `Request.lead` — the text in which a write names its columns and their placeholders.

Main statement: `Statement.binds_of_compose`, the text and the values of every statement.
-/

namespace TableOps

namespace Statement

/-- A statement made of parts binds the values of its parts. -/
theorem MadeOf.values_eq {parts : List Statement} {s : Statement} (h : MadeOf parts s) :
    s.values = parts.flatMap values :=
  h.filterMap_eq fun _ => rfl

/-- A list of statements that bind one value each binds these values. -/
theorem values_commaSeparated_map {α : Type} {f : α → Statement} {g : α → Value}
    (h : ∀ a, (f a).values = [g a]) (items : List α) :
    (commaSeparated (items.map f)).values = items.map g := by
  rw [commaSeparated, (madeOf_separated _ _).values_eq, List.flatMap_map, List.map_eq_flatMap]
  congr 1
  funext a
  exact h a

/-- A list of statements that bind no value binds none. -/
theorem values_commaSeparated {ss : List Statement} (h : ∀ s ∈ ss, s.values = []) :
    (commaSeparated ss).values = [] := by
  rw [commaSeparated, (madeOf_separated _ _).values_eq, List.flatMap_eq_nil_iff]
  exact h

@[simp] theorem values_nameList (names : List String) : (nameList names).values = [] := by
  apply values_commaSeparated
  intro s hs
  obtain ⟨name, _, rfl⟩ := List.mem_map.mp hs
  rfl

end Statement

/-! ## Leaves -/

/-- The items of a list value. -/
def Value.listed : Value → List Value
  | .list items => items
  | _ => []

namespace Leaf

/-- The values that a leaf binds when the query has the value `v` for it. -/
def boundBy (l : Leaf) (v : Value) : List Value :=
  match Operator.ofWording l.op with
  | .unary => []
  | .membership => v.listed
  | .binary => if v.columnRef?.isSome || l.noArg then [] else [v]

/-- The values that a leaf binds; a leaf without a value in the query binds none. -/
def bound (query : Entries Value) (l : Leaf) : List Value :=
  match query.get? l.column with
  | none => []
  | some v => l.boundBy v

@[simp] theorem values_head (l : Leaf) : l.head.values = [] :=
  rfl

@[simp] theorem values_marks (items : List Value) : (marks items).values = items := by
  have hitems := Statement.values_commaSeparated_map (f := fun v => [Piece.value v]) (g := id)
    (fun _ => rfl) items
  simp [marks, hitems]

/-- The pieces of a leaf bind the values of the leaf. -/
theorem values_pieces {l : Leaf} {query : Entries Value} {table : Option TableRef} {s : Statement}
    (h : l.pieces query table = .ok s) : s.values = l.bound query := by
  rcases pieces_eq_ok h with ⟨hv, rfl⟩ | ⟨v, hv, hs⟩
  · rw [bound, hv]
    rfl
  · rw [bound, hv]
    simp only
    unfold boundBy
    -- what is bound depends on how the leaf is written
    cases hs with
    | unary hop =>
      rw [hop]
      rfl
    | membership hop items hitems =>
      rw [hop, hitems, Statement.values_append, values_head, values_marks]
      rfl
    | reference hop ref hc =>
      rw [hop, hc]
      rfl
    | alone hop hc hn =>
      rw [hop, hc, hn]
      rfl
    | value hop hc hn =>
      rw [hop, hc, hn]
      rfl

/-- A write binds the same values for a leaf as a read does. -/
theorem boundBy_restrict (l : Leaf) (table : TableRef) (v : Value) :
    l.boundBy (v.restrict table) = l.boundBy v := by
  cases hc : v.columnRef? with
  | none =>
    have hv : v.restrict table = v := by simp [Value.restrict, hc]
    rw [hv]
  | some ref =>
    -- a value that names a column is never a list, and neither is what it becomes
    have hlist : ∀ w : Value, w.columnRef?.isSome → l.boundBy w = [] := by
      intro w hw
      unfold boundBy
      cases Operator.ofWording l.op with
      | unary => rfl
      | membership =>
        cases w with
        | list items => cases hw
        | _ => rfl
      | binary => simp [hw]
    rw [hlist v (by rw [hc]; rfl), hlist _ (by rw [Value.columnRef?_restrict, hc]; rfl)]

theorem bound_restrict (table : TableRef) (query : Entries Value) :
    bound (query.mapValues (Value.restrict table)) = bound query := by
  funext l
  rw [bound, bound, Entries.get?_mapValues]
  cases query.get? l.column with
  | none => rfl
  | some v => simp only [Option.map_some, boundBy_restrict]

end Leaf

/-! ## Parts of a statement -/

/-- The parts of a filter bind what its leaves bind. -/
theorem Filter.LeafPieces.values_eq {query : Entries Value} {table : Option TableRef}
    {leaves : List Leaf} {parts : List Statement} (h : LeafPieces query table leaves parts) :
    parts.flatMap Statement.values = leaves.flatMap (Leaf.bound query) := by
  induction h with
  | nil => rfl
  | cons hl h ih => rw [List.flatMap_cons, List.flatMap_cons, Leaf.values_pieces hl, ih]

namespace Statement

/-- A clause binds what the leaves of its filter bind. -/
theorem values_whereClause {filter : Option Filter} {query : Entries Value} {table : TableRef}
    {s : Statement} (h : whereClause filter query table = .ok s) :
    s.values = (Filter.leavesOf? filter).flatMap (Leaf.bound query) := by
  obtain ⟨parts, hparts, hmade⟩ := madeOf_whereClause h
  rw [hmade.values_eq, hparts.values_eq]

/-- How a join matches does not depend on values. -/
theorem values_matching {d : Dialect} {j : Join} {primary : TableRef} {s : Statement}
    (h : matching d j primary = .ok s) : s.values = [] := by
  unfold matching at h
  split at h
  · cases h
    rfl
  · obtain ⟨equality, hequality, h⟩ := ok_of_bind h
    split at h
    · cases h
      rfl
    · split at h
      · cases h
        rfl
      · cases h
      · cases h
        rfl

theorem values_joinClause {d : Dialect} {primary : TableRef} {j : Join} {s : Statement}
    (h : joinClause d primary j = .ok s) : s.values = [] := by
  obtain ⟨table, htable, h⟩ := ok_of_bind h
  obtain ⟨match', hmatch, h⟩ := ok_of_bind h
  cases h
  simp [values_matching hmatch]

/-- The tables of a statement bind no value. -/
theorem values_fromClause {d : Dialect} {table : TableRef} {joins : List Join} {s : Statement}
    (h : fromClause d table joins = .ok s) : s.values = [] := by
  obtain ⟨clauses, hclauses, h⟩ := ok_of_bind h
  cases h
  have hflat : values clauses.flatten = [] := by
    rw [values, List.filterMap_flatten, List.flatten_eq_nil_iff]
    intro vs hvs
    obtain ⟨clause, hclause, rfl⟩ := List.mem_map.mp hvs
    obtain ⟨j, hj, hjoin⟩ := ok_of_mapM hclauses clause hclause
    exact values_joinClause hjoin
  simp [hflat]

theorem values_extraClause {d : Dialect} {e : Expression} {s : Statement}
    (h : extraClause d e = .ok s) : s.values = [] := by
  unfold extraClause at h
  split at h <;> cases h <;> rfl

/-- The items of a selection bind no value. -/
theorem values_items (engine : Engine) (columns : List String) (paged : Bool) :
    values (commaSeparated (items engine columns paged)) = [] := by
  apply values_commaSeparated
  intro s hs
  unfold items at hs
  rcases List.mem_append.mp hs with hs | hs
  · obtain ⟨c, hc, rfl⟩ := List.mem_map.mp hs
    rfl
  · split at hs
    · rw [List.mem_singleton.mp hs]
      rfl
    · cases hs

/-- A selection binds what its parts bind. -/
@[simp] theorem values_selection (engine : Engine) (columns : List String) (paged : Bool)
    (source restriction extra : Statement) :
    values (selection engine columns paged source restriction extra) =
      values source ++ values restriction ++ values extra := by
  simp [selection, values_items]

@[simp] theorem values_counting (first : Option String) (source restriction : Statement) :
    values (counting (countTarget first) source restriction) =
      values source ++ values restriction := by
  have htarget : (countTarget first).value? = none := by
    rcases countTarget_cases first with hrows | ⟨ref, hcolumn⟩
    · rw [hrows]
      rfl
    · rw [hcolumn]
      rfl
  unfold counting
  rw [values_append, values_append]
  congr 2
  rw [values, List.filterMap_cons_none rfl, List.filterMap_cons_none htarget]
  rfl

@[simp] theorem values_returning (engine : Engine) (schema : Option TableSchema) :
    (returning engine schema).values = [] := by
  unfold returning
  split
  · exact values_nameList _
  · rfl

/-- An insert binds the data of its columns, in their order. -/
@[simp] theorem values_inserting (engine : Engine) (table : TableRef) (columns : List String)
    (data : Entries Value) (schema : Option TableSchema) :
    (inserting engine table columns data schema).values = columns.map (valueOf data) := by
  have hdata := values_commaSeparated_map (f := fun c => [.value (valueOf data c)]) (fun _ => rfl)
    columns
  simp [inserting, hdata]

/-- An update binds the data of its columns, in their order, before what restricts it. -/
@[simp] theorem values_updating (table : TableRef) (columns : List String) (data : Entries Value)
    (restriction : Statement) :
    (updating table columns data restriction).values =
      columns.map (valueOf data) ++ restriction.values := by
  have hdata := values_commaSeparated_map (f := assignment data) (fun _ => rfl) columns
  simp [updating, hdata]

@[simp] theorem values_deleting (table : TableRef) (restriction : Statement) :
    (deleting table restriction).values = restriction.values :=
  values_append _ _

/-! ## The text of a write -/

/-- An assignment is written as the quoted column and the placeholder of its value. -/
theorem writeFrom_assignments (w : Writer) (n : Nat) (columns : List String)
    (data : Entries Value) :
    writeFrom w n (commaSeparated (columns.map (assignment data))) =
      ", ".intercalate (List.zipWith (fun c mark => w.name c ++ " = " ++ mark) columns
        (marksFrom w n columns.length)) := by
  have h : ∀ n, writeEach w n (columns.map (assignment data)) =
      List.zipWith (fun c mark => w.name c ++ " = " ++ mark) columns
        (marksFrom w n columns.length) := by
    -- each assignment binds one value, so that counting goes on by one
    induction columns with
    | nil => intro n; rfl
    | cons c columns ih =>
      intro n
      have hv : (assignment data c).values.length = 1 := rfl
      have hc : writeFrom w n (assignment data c) = w.name c ++ " = " ++ w.placeholder n := by
        simp [writeFrom, assignment, String.append_assoc]
      rw [List.map_cons, writeEach, hv, ih, hc, List.length_cons, marksFrom_succ]
      rfl
  rw [writeFrom_commaSeparated, h]

end Statement

open Statement

namespace Request

/-- The text in which a write names its columns and the placeholders of their values. -/
def lead (d : Dialect) (r : Request) (kind : StatementKind) : String :=
  let columns := r.written kind
  let marks := marksFrom d.writer 1 columns.length
  match kind with
  | .of .insert =>
    "INSERT INTO " ++ d.identifier r.expression.table.name ++ " (" ++
      ", ".intercalate (columns.map d.identifier) ++ ") VALUES (" ++ ", ".intercalate marks ++ ")"
  | .of .update =>
    "UPDATE " ++ d.identifier r.expression.table.name ++ " SET " ++
      ", ".intercalate (List.zipWith (fun c mark => d.identifier c ++ " = " ++ mark) columns marks)
  | _ => ""

/-- The text of an insert begins with the names and the placeholders of its columns. -/
theorem write_inserting (d : Dialect) (table : TableRef) (columns : List String)
    (data : Entries Value) (schema : Option TableSchema) :
    ∃ rest, (inserting d.engine table columns data schema).write d.writer =
      "INSERT INTO " ++ d.identifier table.name ++ " (" ++
        ", ".intercalate (columns.map d.identifier) ++ ") VALUES (" ++
        ", ".intercalate (marksFrom d.writer 1 columns.length) ++ ")" ++ rest := by
  let head : Statement := [.text "INSERT INTO ", .name table.name, .text " ("]
  have hhead : ∀ n, writeFrom d.writer n head = "INSERT INTO " ++ d.identifier table.name ++ " (" := by
    intro n
    simp [head, writeFrom, Dialect.writer, String.append_assoc]
  have htext : ∀ n s, writeFrom d.writer n [.text s] = s := by
    intro n s
    simp [writeFrom]
  have hmarks := writeFrom_valueList d.writer 1 (columns.map (valueOf data))
  rw [List.map_map, List.length_map] at hmarks
  unfold write inserting
  rw [writeFrom_append]
  refine ⟨_, congrArg (· ++ _) ?_⟩
  -- no value stands before the list of values, so that counting starts there with 1
  have hbefore : values (head ++ nameList columns ++ [.text ") VALUES ("]) = [] := by
    simp [head]
  rw [writeFrom_append, writeFrom_append, hbefore, writeFrom_append, writeFrom_append]
  rw [hhead, htext, htext, writeFrom_nameList]
  exact congrArg (_ ++ · ++ _) hmarks

/-- The text of an update begins with the names and the placeholders of its columns. -/
theorem write_updating (d : Dialect) (table : TableRef) (columns : List String)
    (data : Entries Value) (restriction : Statement) :
    ∃ rest, (updating table columns data restriction).write d.writer =
      "UPDATE " ++ d.identifier table.name ++ " SET " ++
        ", ".intercalate (List.zipWith (fun c mark => d.identifier c ++ " = " ++ mark) columns
          (marksFrom d.writer 1 columns.length)) ++ rest := by
  have hhead : writeFrom d.writer 1 [.text "UPDATE ", .name table.name, .text " SET "] =
      "UPDATE " ++ d.identifier table.name ++ " SET " := by
    simp [writeFrom, Dialect.writer, String.append_assoc]
  unfold write updating
  rw [writeFrom_append]
  refine ⟨_, congrArg (· ++ _) ?_⟩
  rw [writeFrom_append, hhead]
  exact congrArg (_ ++ ·) (writeFrom_assignments d.writer 1 columns data)

/-- A write names its columns and their placeholders at its beginning. -/
theorem Composed.lead_eq {d : Dialect} {r : Request} {kind : StatementKind} {s : Statement}
    (h : r.Composed d kind s) : ∃ rest, d.render s = r.lead d kind ++ rest := by
  cases h with
  | selection hkind paged cut hlimit hcolumns hsource hwhere hextra =>
    rcases hkind with rfl | rfl
    · exact ⟨_, (String.empty_append).symm⟩
    · exact ⟨_, (String.empty_append).symm⟩
  | counting hsource hwhere => exact ⟨_, (String.empty_append).symm⟩
  | inserting hcolumns =>
    have hvalues := values_inserting d.engine r.expression.table
      (writable r.expression (r.data.getD [])) (r.data.getD []) r.schema
    -- there is a column, hence a value, so that the text is sent as it is written
    rw [d.render_of_values_ne_nil (by rw [hvalues]; simpa using hcolumns)]
    exact write_inserting d _ _ _ _
  | updating hquery hcolumns hwhere =>
    rename_i query restriction
    have hvalues := values_updating r.expression.table
      (writable r.expression (r.data.getD [])) (r.data.getD []) restriction
    rw [d.render_of_values_ne_nil (by rw [hvalues]; simp [hcolumns])]
    exact write_updating d _ _ _ _
  | deleting hquery hwhere => exact ⟨_, (String.empty_append).symm⟩

/-- A statement binds the data of the columns it writes, then what the leaves of its effective
filter bind. -/
theorem Composed.values_eq {d : Dialect} {r : Request} {kind : StatementKind} {s : Statement}
    (h : r.Composed d kind s) :
    s.values = (r.written kind).map (valueOf (r.data.getD [])) ++
      (Filter.leavesOf? (r.effectiveFilter kind)).flatMap (Leaf.bound r.query) := by
  have hrestriction : ∀ {query : Entries Value} {restriction : Statement},
      writeQuery r.expression.table r.expression.filter r.query = .ok query →
      Statement.restriction r.expression.table r.expression.filter query = .ok restriction →
      restriction.values =
        (Filter.leavesOf? (r.expression.filter.bind (Filter.restrict? r.expression.table))).flatMap
          (Leaf.bound r.query) := by
    intro query restriction hquery hwhere
    -- a write looks its leaves up in a restricted query, which binds the same
    rw [values_whereClause hwhere, restrictQuery_eq hquery, Leaf.bound_restrict]
  cases h with
  | selection hkind paged cut hlimit hcolumns hsource hwhere hextra =>
    have hcut : values (cut.toList.map Piece.text) = [] := by cases cut <;> rfl
    rw [values_append, hcut, values_selection, values_fromClause hsource,
      values_whereClause hwhere, values_extraClause hextra]
    rcases hkind with rfl | rfl <;> simp [written, effectiveFilter]
  | counting hsource hwhere =>
    rw [values_counting, values_fromClause hsource, values_whereClause hwhere]
    rfl
  | inserting hcolumns =>
    rw [values_inserting]
    simp [written, effectiveFilter, Filter.leavesOf?]
  | updating hquery hcolumns hwhere =>
    rw [values_updating, hrestriction hquery hwhere]
    rfl
  | deleting hquery hwhere =>
    rw [values_deleting, hrestriction hquery hwhere]
    rfl

/-- The columns of a statement are written once each. -/
theorem nodup_written (r : Request) (kind : StatementKind) : (r.written kind).Nodup := by
  unfold written
  split
  · exact nodup_writableFrom _ _ _
  · exact nodup_writableFrom _ _ _
  · exact List.nodup_nil

/-- A column that is written has a value in the data. -/
theorem has_of_mem_written {r : Request} {kind : StatementKind} {c : String}
    (h : c ∈ r.written kind) : Entries.has (r.data.getD []) c := by
  unfold written at h
  split at h
  · exact (mem_writable h).2
  · exact (mem_writable h).2
  · cases h

end Request

/-- The statement of a request is the stretches of its own text with the placeholders 1, 2, … between
them, one for each value that it binds. These are the data of the written columns, each column once
and in the order in which the statement names them, then the values that the leaves of the effective
filter bind, from left to right. -/
theorem Statement.binds_of_compose {d : Dialect} {kind : StatementKind} {withTotal : Bool}
    {r : Request} {s : Statement} (h : compose d kind withTotal r = .ok (some s)) :
    d.render s = alternate (d.gaps s) ((List.range' 1 s.values.length).map d.placeholder) ∧
      (d.gaps s).length = s.values.length + 1 ∧
      (∃ rest, d.render s = r.lead d kind ++ rest) ∧
      (r.written kind).Nodup ∧
      ∃ data : List Value,
        (r.written kind).map (Entries.get? (r.data.getD [])) = data.map some ∧
        s.values = data ++
          (Filter.leavesOf? (r.effectiveFilter kind)).flatMap (Leaf.bound r.query) := by
  have hs := composed_of_compose h
  refine ⟨d.render_eq_alternate s, d.length_gaps s, hs.lead_eq, r.nodup_written kind,
    (r.written kind).map (valueOf (r.data.getD [])), ?_, hs.values_eq⟩
  -- every written column has data, and that is what is bound for it
  rw [List.map_map]
  apply List.map_congr_left
  intro c hc
  obtain ⟨v, hv⟩ := Option.isSome_iff_exists.mp (Request.has_of_mem_written hc)
  simp [valueOf, hv]

/-- People under an alias. -/
theorem TableRef.ofWords?_person :
    ofWords? (Text.wordsOf "Person psn") = some ⟨none, "Person", some "psn"⟩ := by
  decide +kernel

/-- An update of two columns, restricted by a membership test and, in a group of their own, by a
null test, a comparison with another column and a comparison of another table. -/
def Request.renaming : Request where
  expression :=
    { source := ⟨"Person psn", ⟨none, "Person", some "psn"⟩, TableRef.ofWords?_person⟩
      joins := []
      columns := ["psn.name", "age", "name"]
      transformers := []
      filter := some (.group .and [.leaf ⟨"psn.age", "IN", false⟩,
        .group .or [.leaf ⟨"addr", "IS NULL", false⟩, .leaf (.equals "dpt.id"),
          .leaf ⟨"psn.name", "<>", false⟩]])
      extra := .null }
  data := some [("age", .int 7), ("name", .text "Jane")]
  query := [("age", .list [.int 1, .int 2]), ("name", .text "@psn.nick"), ("addr", .bool true)]
  fields := none
  page := none
  schema := none

/-- The update numbers its two columns before the items of the membership test. -/
theorem Statement.binds_of_compose_renaming :
    ∃ s, compose ⟨.postgres, .numeric, by decide⟩ (.of .update) true Request.renaming =
        .ok (some s) ∧
      Dialect.render ⟨.postgres, .numeric, by decide⟩ s =
        "UPDATE \"Person\" SET \"name\" = $1, \"age\" = $2 WHERE (\"age\" IN ($3, $4) AND " ++
          "(\"addr\" IS NULL OR \"name\" <> \"nick\"))" ∧
      ∃ data : List Value,
        (Request.renaming.written (.of .update)).map
          (Entries.get? (Request.renaming.data.getD [])) = data.map some ∧
        s.values = data ++ (Filter.leavesOf? (Request.renaming.effectiveFilter
          (.of .update))).flatMap (Leaf.bound Request.renaming.query) := by
  have htext : (compose ⟨.postgres, .numeric, by decide⟩ (.of .update) true
      Request.renaming).toOption.join.map (Dialect.render ⟨.postgres, .numeric, by decide⟩) =
      some ("UPDATE \"Person\" SET \"name\" = $1, \"age\" = $2 WHERE (\"age\" IN ($3, $4) AND " ++
        "(\"addr\" IS NULL OR \"name\" <> \"nick\"))") := by decide +kernel
  obtain ⟨s, hs, hrender⟩ := Option.map_eq_some_iff.mp htext
  have hcompose : compose ⟨.postgres, .numeric, by decide⟩ (.of .update) true Request.renaming =
      .ok (some s) := ok_of_toOption_join hs
  exact ⟨s, hcompose, hrender, (Statement.binds_of_compose hcompose).2.2.2.2⟩

end TableOps
