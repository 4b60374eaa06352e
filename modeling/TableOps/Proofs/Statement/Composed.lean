import TableOps.Proofs.Except
import TableOps.Proofs.Filter.Members
import TableOps.Proofs.Statement.WriteTarget
import TableOps.Statement.Compose

/-!
# The statements of a request

What a statement that was composed for a request looks like, once for all five shapes: a selection,
a total, an insert, an update and a deletion.

* `Request.Composed` — the shapes; `Statement.composed_of_compose`, there are no others.
* `Statement.whereWord` — the wording that opens a clause; `Statement.mem_whereClause`, what else a
  clause is written with.
* `Request.effectiveFilter`, `Request.effectiveQuery`, `Request.effectiveTable` — the filter, the
  query and the table that restrict a statement of some kind.
* `Request.Composed.clause` — the clause that restricts a statement, and where it stands.
-/

namespace TableOps

open Statement

namespace Request

/-- A statement composed for a request. -/
inductive Composed (d : Dialect) (r : Request) : StatementKind → Statement → Prop where
  /-- A selection, with a clause behind it that cuts rows out. -/
  | selection {kind : StatementKind} (hkind : kind = .of .query ∨ kind = .of .list) (paged : Bool)
      {source restriction extra : Statement} (cut : Option String)
      (hcut : ∀ c, cut = some c → ∃ rest, c = " LIMIT " ++ rest)
      (hcolumns : selected r.expression r.fields ≠ [])
      (hsource : fromClause d r.expression.table r.expression.joins = .ok source)
      (hwhere : whereClause r.expression.filter r.query r.expression.table = .ok restriction)
      (hextra : extraClause d r.expression = .ok extra) :
      Composed d r kind
        (Statement.selection d.engine (selected r.expression r.fields) paged source restriction
          extra ++ cut.toList.map Piece.text)
  /-- The total of a list. -/
  | counting {source restriction : Statement}
      (hsource : fromClause d r.expression.table r.expression.joins = .ok source)
      (hwhere : whereClause r.expression.filter r.query r.expression.table = .ok restriction) :
      Composed d r .total
        (Statement.counting (countTarget r.expression.columns.head?) source restriction)
  /-- The insert of a row. -/
  | inserting (hcolumns : writable r.expression (r.data.getD []) ≠ []) :
      Composed d r (.of .insert)
        (Statement.inserting d.engine r.expression.table (writable r.expression (r.data.getD []))
          (r.data.getD []) r.schema)
  /-- The update of the rows that match. -/
  | updating {query : Entries Value} {restriction : Statement}
      (hquery : writeQuery r.expression.table r.expression.filter r.query = .ok query)
      (hcolumns : writable r.expression (r.data.getD []) ≠ [])
      (hwhere : Statement.restriction r.expression.table r.expression.filter query =
        .ok restriction) :
      Composed d r (.of .update)
        (Statement.updating r.expression.table (writable r.expression (r.data.getD []))
          (r.data.getD []) restriction)
  /-- The deletion of the rows that match. -/
  | deleting {query : Entries Value} {restriction : Statement}
      (hquery : writeQuery r.expression.table r.expression.filter r.query = .ok query)
      (hwhere : Statement.restriction r.expression.table r.expression.filter query =
        .ok restriction) :
      Composed d r (.of .delete) (Statement.deleting r.expression.table restriction)

end Request

namespace Statement

/-! ## Every statement has one of the shapes -/

/-- A selection that is composed selects the columns asked for. -/
theorem selection_of_select? {d : Dialect} {r : Request} {paged : Bool} {s : Statement}
    (h : select? d r paged = .ok (some s)) :
    selected r.expression r.fields ≠ [] ∧
      ∃ source restriction extra,
        fromClause d r.expression.table r.expression.joins = .ok source ∧
        whereClause r.expression.filter r.query r.expression.table = .ok restriction ∧
        extraClause d r.expression = .ok extra ∧
        s = selection d.engine (selected r.expression r.fields) paged source restriction extra := by
  unfold select? at h
  split at h
  · cases h
  · rename_i hcolumns
    obtain ⟨source, hsource, h⟩ := ok_of_bind h
    obtain ⟨restriction, hwhere, h⟩ := ok_of_bind h
    obtain ⟨extra, hextra, h⟩ := ok_of_bind h
    cases h
    exact ⟨hcolumns, source, restriction, extra, hsource, hwhere, hextra, rfl⟩

/-- The columns of a write are the writable ones, of which there is one. -/
theorem requireWritable_eq {table : TableRef} {op : Operation} {columns required : List String}
    (h : requireWritable table op columns = .ok required) : required = columns ∧ columns ≠ [] := by
  cases columns with
  | nil => cases h
  | cons c columns =>
    cases h
    exact ⟨rfl, List.cons_ne_nil _ _⟩

/-- The clause that cuts a page out of a list, behind a blank. -/
theorem exists_eq_limit {engine : Engine} {p : Page} {cut : String}
    (h : limit engine p = .ok cut) : ∃ rest, " " ++ cut = " LIMIT " ++ rest := by
  have hword : " LIMIT " = " " ++ "LIMIT " := rfl
  obtain ⟨size, hsize, h⟩ := ok_of_bind h
  obtain ⟨offset, hoffset, h⟩ := ok_of_bind h
  rw [hword]
  cases engine with
  | mysql =>
    cases h
    exact ⟨offset ++ ", " ++ size, by simp only [String.append_assoc]⟩
  | postgres =>
    cases h
    exact ⟨size ++ " OFFSET " ++ offset, by simp only [String.append_assoc]⟩

/-- A selection that is composed, with what may stand behind it. -/
theorem composed_of_select? {d : Dialect} {kind : StatementKind} {r : Request} {paged : Bool}
    {s : Statement} (h : select? d r paged = .ok (some s)) (hkind : kind = .of .query ∨ kind = .of .list)
    (cut : Option String) (hcut : ∀ c, cut = some c → ∃ rest, c = " LIMIT " ++ rest) :
    r.Composed d kind (s ++ cut.toList.map Piece.text) := by
  obtain ⟨hcolumns, source, restriction, extra, hsource, hwhere, hextra, rfl⟩ :=
    selection_of_select? h
  exact .selection hkind paged cut hcut hcolumns hsource hwhere hextra

/-- A statement that was composed has the shape of its kind. -/
theorem composed_of_compose {d : Dialect} {kind : StatementKind} {withTotal : Bool} {r : Request}
    {s : Statement} (h : compose d kind withTotal r = .ok (some s)) : r.Composed d kind s := by
  unfold compose at h
  -- a selection of one row, of all rows or of a page; then the total and the writes
  split at h
  · obtain ⟨selection, hselection, h⟩ := ok_of_bind h
    cases selection with
    | none => cases h
    | some s' =>
      cases h
      refine composed_of_select? hselection (Or.inl rfl) (some " LIMIT 1") ?_
      rintro c ⟨⟩
      exact ⟨"1", rfl⟩
  · split at h
    · have hcomposed := composed_of_select? h (Or.inr rfl) none (by simp)
      rw [Option.toList_none, List.map_nil, List.append_nil] at hcomposed
      exact hcomposed
    · obtain ⟨selection, hselection, h⟩ := ok_of_bind h
      cases selection with
      | none => cases h
      | some s' =>
        obtain ⟨cut, hcut, h⟩ := ok_of_bind h
        cases h
        refine composed_of_select? hselection (Or.inr rfl) (some (" " ++ cut)) ?_
        rintro c ⟨⟩
        exact exists_eq_limit hcut
  · obtain ⟨s', hs', h⟩ := ok_of_map h
    cases h
    obtain ⟨source, hsource, hs'⟩ := ok_of_bind hs'
    obtain ⟨restriction, hwhere, hs'⟩ := ok_of_bind hs'
    cases hs'
    exact .counting hsource hwhere
  · obtain ⟨s', hs', h⟩ := ok_of_map h
    cases h
    obtain ⟨columns, hrequire, hs'⟩ := ok_of_bind hs'
    cases hs'
    obtain ⟨rfl, hcolumns⟩ := requireWritable_eq hrequire
    exact .inserting hcolumns
  · obtain ⟨s', hs', h⟩ := ok_of_map h
    cases h
    obtain ⟨query, hquery, hs'⟩ := ok_of_bind hs'
    obtain ⟨columns, hrequire, hs'⟩ := ok_of_bind hs'
    obtain ⟨restriction, hwhere, hs'⟩ := ok_of_bind hs'
    cases hs'
    obtain ⟨rfl, hcolumns⟩ := requireWritable_eq hrequire
    exact .updating hquery hcolumns hwhere
  · obtain ⟨s', hs', h⟩ := ok_of_map h
    cases h
    obtain ⟨query, hquery, hs'⟩ := ok_of_bind hs'
    obtain ⟨restriction, hwhere, hs'⟩ := ok_of_bind hs'
    cases hs'
    exact .deleting hquery hwhere

end Statement

/-! ## The word that opens a clause -/

namespace Statement

/-- The wording that opens the clause of a statement. -/
def whereWord : Piece :=
  .text " WHERE "

theorem whereWord_not_mem_commaSeparated {ss : List Statement} (h : ∀ s ∈ ss, whereWord ∉ s) :
    whereWord ∉ commaSeparated ss := by
  intro hmem
  rcases mem_commaSeparated hmem with hcomma | ⟨s, hs, hword⟩
  · simp [whereWord] at hcomma
  · exact h s hs hword

/-- Rows are counted as such or by a column. -/
theorem countTarget_cases (first : Option String) :
    countTarget first = .text "*" ∨ ∃ ref, countTarget first = .column ref := by
  unfold countTarget
  split
  · exact Or.inl rfl
  · dsimp only
    split
    · exact Or.inr ⟨_, rfl⟩
    · exact Or.inl rfl

theorem whereWord_ne_countTarget (first : Option String) : whereWord ≠ countTarget first := by
  rcases countTarget_cases first with hrows | ⟨ref, hcolumn⟩
  · rw [hrows]
    simp [whereWord]
  · rw [hcolumn]
    simp [whereWord]

theorem whereWord_not_mem_nameList (names : List String) : whereWord ∉ nameList names :=
  whereWord_not_mem_commaSeparated (by simp [whereWord])

/-- An insert has no clause. -/
theorem whereWord_not_mem_inserting (engine : Engine) (table : TableRef) (columns : List String)
    (data : Entries Value) (schema : Option TableSchema) :
    whereWord ∉ inserting engine table columns data schema := by
  have hnames := whereWord_not_mem_nameList columns
  have hvalues : whereWord ∉ commaSeparated (columns.map fun c => [Piece.value (valueOf data c)]) :=
    whereWord_not_mem_commaSeparated (by simp [whereWord])
  have hreturning : whereWord ∉ returning engine schema := by
    unfold returning
    split
    · simpa [whereWord] using whereWord_not_mem_nameList _
    · simp
  simp [inserting, whereWord] at hnames hvalues hreturning ⊢
  exact ⟨hnames, hvalues, hreturning⟩

theorem whereWord_not_mem_items (engine : Engine) (columns : List String) (paged : Bool) :
    whereWord ∉ commaSeparated (items engine columns paged) := by
  apply whereWord_not_mem_commaSeparated
  intro s hs
  unfold items at hs
  rcases List.mem_append.mp hs with hs | hs
  · obtain ⟨c, hc, rfl⟩ := List.mem_map.mp hs
    simp [whereWord]
  · split at hs
    · rw [List.mem_singleton.mp hs]
      simp [whereWord, totalItem]
    · cases hs

theorem whereWord_not_mem_matching {d : Dialect} {j : Join} {primary : TableRef} {s : Statement}
    (h : matching d j primary = .ok s) : whereWord ∉ s := by
  unfold matching at h
  split at h
  · cases h
    simp [whereWord]
  · obtain ⟨equality, hequality, h⟩ := ok_of_bind h
    split at h
    · cases h
      simp [whereWord]
    · split at h <;> cases h <;> simp [whereWord]

/-- Whatever kind a join has, its wording ends otherwise than that of a clause. -/
theorem whereWord_ne_join (kind : String) : whereWord ≠ .text (" " ++ kind ++ "JOIN ") := by
  intro h
  injection h with h
  have hlist := congrArg String.toList h
  rw [String.toList_append] at hlist
  have hsplit : " WHERE ".toList = [' ', 'W'] ++ "HERE ".toList := by decide
  rw [hsplit] at hlist
  -- what is behind the same number of characters would have to agree
  have hend := (List.append_inj' hlist (by decide)).2
  revert hend
  decide

theorem whereWord_not_mem_joinClause {d : Dialect} {primary : TableRef} {j : Join} {s : Statement}
    (h : joinClause d primary j = .ok s) : whereWord ∉ s := by
  obtain ⟨table, htable, h⟩ := ok_of_bind h
  obtain ⟨matched, hmatched, h⟩ := ok_of_bind h
  cases h
  have hkind := whereWord_ne_join (joinKind j)
  have hrest := whereWord_not_mem_matching hmatched
  simp only [List.mem_append, List.mem_cons, List.not_mem_nil, or_false, not_or]
  exact ⟨⟨hkind, by simp [whereWord]⟩, hrest⟩

theorem whereWord_not_mem_fromClause {d : Dialect} {table : TableRef} {joins : List Join}
    {s : Statement} (h : fromClause d table joins = .ok s) : whereWord ∉ s := by
  obtain ⟨clauses, hclauses, h⟩ := ok_of_bind h
  cases h
  simp only [List.mem_append, List.mem_cons, List.not_mem_nil, or_false, not_or]
  refine ⟨⟨by simp [whereWord], by simp [whereWord]⟩, ?_⟩
  intro hmem
  obtain ⟨clause, hclause, hword⟩ := List.mem_flatten.mp hmem
  obtain ⟨j, hj, hjoin⟩ := ok_of_mapM hclauses clause hclause
  exact whereWord_not_mem_joinClause hjoin hword

theorem whereWord_not_mem_extraClause {d : Dialect} {e : Expression} {s : Statement}
    (h : extraClause d e = .ok s) : whereWord ∉ s := by
  unfold extraClause at h
  split at h <;> cases h <;> simp [whereWord]

theorem whereWord_ne_limit (rest : String) : whereWord ≠ .text (" LIMIT " ++ rest) := by
  intro h
  injection h with h
  have hlist := congrArg String.toList h
  rw [String.toList_append] at hlist
  -- the letters behind the blank differ
  have hletter := congrArg (fun cs : List Char => cs[1]?) hlist
  revert hletter
  simp

/-- The clause that restricts a statement is written with the word that opens it and the pieces of its
filter. -/
theorem mem_whereClause {filter : Option Filter} {query : Entries Value} {table : TableRef}
    {s : Statement} {p : Piece} (h : whereClause filter query table = .ok s) (hp : p ∈ s) :
    p = whereWord ∨ Filter.OfLeaves query (some table) (Filter.leavesOf? filter) p := by
  obtain ⟨c, hc, rfl⟩ := ok_of_map h
  split at hp
  · cases hp
  · refine (List.mem_cons.mp hp).imp_right fun hp => ?_
    cases filter with
    | none =>
      cases hc
      cases hp
    | some f => exact Filter.mem_pieces f c (ok_of_mapError hc) hp

end Statement

/-! ## What restricts a statement -/

namespace Request

/-- The columns that a statement writes. -/
def written (r : Request) : StatementKind → List String
  | .of .insert | .of .update => writable r.expression (r.data.getD [])
  | _ => []

/-- The filter that restricts a statement: an insert has none, and the other writes keep the leaves
of their table. -/
def effectiveFilter (r : Request) : StatementKind → Option Filter
  | .of .insert => none
  | .of .update | .of .delete => r.expression.filter.bind (Filter.restrict? r.expression.table)
  | _ => r.expression.filter

/-- The query that a statement looks its leaves up in. -/
def effectiveQuery (r : Request) : StatementKind → Entries Value
  | .of .update | .of .delete => r.query.mapValues (Value.restrict r.expression.table)
  | _ => r.query

/-- The table that column references of a statement are resolved against; a write has no alias. -/
def effectiveTable (r : Request) : StatementKind → TableRef
  | .of .update | .of .delete => .ofName r.expression.table.name
  | _ => r.expression.table

section

variable (r : Request) {op : Operation} (hop : op = .update ∨ op = .delete)

include hop

theorem effectiveFilter_of_restricted : r.effectiveFilter (.of op) =
    r.expression.filter.bind (Filter.restrict? r.expression.table) := by
  rcases hop with rfl | rfl <;> rfl

theorem effectiveQuery_of_restricted : r.effectiveQuery (.of op) =
    r.query.mapValues (Value.restrict r.expression.table) := by
  rcases hop with rfl | rfl <;> rfl

theorem effectiveTable_of_restricted :
    r.effectiveTable (.of op) = .ofName r.expression.table.name := by
  rcases hop with rfl | rfl <;> rfl

/-- The clause of a write is that of its own filter and query. -/
theorem whereClause_of_restriction {query : Entries Value} {clause : Statement}
    (hquery : writeQuery r.expression.table r.expression.filter r.query = .ok query)
    (hwhere : Statement.restriction r.expression.table r.expression.filter query = .ok clause) :
    whereClause (r.effectiveFilter (.of op)) (r.effectiveQuery (.of op))
      (r.effectiveTable (.of op)) = .ok clause := by
  rw [effectiveFilter_of_restricted r hop, effectiveQuery_of_restricted r hop,
    effectiveTable_of_restricted r hop, ← restrictQuery_eq hquery]
  exact hwhere

end

/-- The clause that restricts a statement stands in it as it is, and the word that opens it stands
nowhere else; an insert has the empty clause. -/
theorem Composed.clause {d : Dialect} {r : Request} {kind : StatementKind} {s : Statement}
    (h : r.Composed d kind s) :
    ∃ before clause behind, s = before ++ clause ++ behind ∧
      whereWord ∉ before ∧ whereWord ∉ behind ∧
      whereClause (r.effectiveFilter kind) (r.effectiveQuery kind) (r.effectiveTable kind) =
        .ok clause := by
  cases h with
  | @selection kind hkind paged source restriction extra cut hcut hcolumns hsource hwhere hextra =>
    -- the clause stands between the tables and what may be added behind it
    refine ⟨[.text "SELECT "] ++
      commaSeparated (items d.engine (selected r.expression r.fields) paged) ++ [.text " "] ++
        source, restriction, extra ++ cut.toList.map Piece.text, ?_, ?_, ?_, ?_⟩
    · simp only [Statement.selection, List.append_assoc]
    · have hitems := whereWord_not_mem_items d.engine (selected r.expression r.fields) paged
      have hsource := whereWord_not_mem_fromClause hsource
      simp [whereWord] at hitems hsource ⊢
      exact ⟨hitems, hsource⟩
    · have hextra := whereWord_not_mem_extraClause hextra
      simp only [List.mem_append, not_or]
      refine ⟨hextra, ?_⟩
      cases cut with
      | none => simp
      | some c =>
        obtain ⟨rest, rfl⟩ := hcut c rfl
        simpa using whereWord_ne_limit rest
    · rcases hkind with rfl | rfl <;> exact hwhere
  | @counting source restriction hsource hwhere =>
    refine ⟨_, restriction, [], (List.append_nil _).symm, ?_, by simp, hwhere⟩
    have hsource := whereWord_not_mem_fromClause hsource
    have htarget := whereWord_ne_countTarget r.expression.columns.head?
    simp [whereWord] at hsource htarget ⊢
    exact ⟨htarget, hsource⟩
  | inserting hcolumns =>
    -- an insert has the empty clause, at its beginning
    exact ⟨[], [], _, rfl, by simp, whereWord_not_mem_inserting _ _ _ _ _, rfl⟩
  | @updating query restriction hquery hcolumns hwhere =>
    refine ⟨_, restriction, [], (List.append_nil _).symm, ?_, by simp, ?_⟩
    · have hassignments : whereWord ∉ commaSeparated ((writable r.expression
          (r.data.getD [])).map (assignment (r.data.getD []))) :=
        whereWord_not_mem_commaSeparated (by simp [whereWord, assignment])
      simp [whereWord] at hassignments ⊢
      exact hassignments
    · exact whereClause_of_restriction r (.inl rfl) hquery hwhere
  | @deleting query restriction hquery hwhere =>
    exact ⟨_, restriction, [], (List.append_nil _).symm, by simp [whereWord], by simp,
      whereClause_of_restriction r (.inr rfl) hquery hwhere⟩

end Request

end TableOps
