import TableOps.Proofs.Filter.Chosen
import TableOps.Statement.Write

/-!
# What a write keeps

A write touches one table. Of the filter it keeps the leaves of that table, without qualifiers; of
the query it keeps every value, and a column of that table loses its qualifier as well.

* `Leaf.restrict?`, `Filter.restrict?_eq_choose?` — the leaves that are kept.
* `Value.restrict`, `Statement.restrictQuery_eq` — the query values that are kept;
  `Statement.owns_of_writeQuery`, the columns among them that are compared;
  `Statement.exists_foreign_of_restrictQuery`, why a query is refused.
* `Statement.mem_writable` — the columns that are written: those with data, each once.
-/

namespace TableOps

/-! ## The leaves -/

/-- A leaf of the written table without its qualifier; other leaves are not kept. -/
def Leaf.restrict? (table : TableRef) (l : Leaf) : Option Leaf :=
  if table.owns (Reference.splitQualifier l.name).1 then some { l with name := l.column } else none

namespace Filter

mutual

/-- Restricting a filter chooses the leaves of the table. -/
theorem restrict?_eq_choose? (table : TableRef) :
    ∀ f : Filter, f.restrict? table = f.choose? (Leaf.restrict? table)
  | .leaf l => by
    rw [restrict?, choose?, Leaf.restrict?, Leaf.column]
    dsimp only
    split <;> rfl
  | .group connective members => by
    rw [restrict?, choose?, restrictAll_eq_chooseAll table members]

theorem restrictAll_eq_chooseAll (table : TableRef) :
    ∀ fs : List Filter, restrictAll table fs = chooseAll (Leaf.restrict? table) fs
  | [] => rfl
  | f :: fs => by
    rw [restrictAll, chooseAll, restrict?_eq_choose? table f, restrictAll_eq_chooseAll table fs]

end

/-- The leaves of a restricted filter are the restricted leaves. -/
theorem leaves_bind_restrict? (table : TableRef) (filter : Option Filter) :
    leavesOf? (filter.bind (restrict? table)) =
      (leavesOf? filter).filterMap (Leaf.restrict? table) := by
  have hchoose : restrict? table = choose? (Leaf.restrict? table) :=
    funext (restrict?_eq_choose? table)
  rw [hchoose, leaves_bind_choose?]

end Filter

/-- A leaf that is kept compares its column in the same way. -/
theorem Leaf.eq_of_restrict? {table : TableRef} {l l' : Leaf} (h : l.restrict? table = some l') :
    l' = { l with name := l.column } ∧ table.owns (Reference.splitQualifier l.name).1 := by
  unfold restrict? at h
  split at h
  · rename_i howns
    exact ⟨(Option.some.inj h).symm, howns⟩
  · cases h

/-! ## The query values -/

/-- A query value of a write: a column of the written table loses its qualifier. -/
def Value.restrict (table : TableRef) (v : Value) : Value :=
  match v.columnRef? with
  | none => v
  | some ref =>
    if table.owns (Reference.splitQualifier ref).1 then .column (Reference.splitQualifier ref).2
    else v

/-- A query value that names a column still does so in a write, and no other value does. -/
theorem Value.columnRef?_restrict (table : TableRef) (v : Value) :
    (v.restrict table).columnRef?.isSome = v.columnRef?.isSome := by
  unfold Value.restrict
  cases h : v.columnRef? with
  | none => simp [h]
  | some ref =>
    by_cases ho : table.owns (Reference.splitQualifier ref).1
    · simp [ho, Value.columnRef?]
    · simp [ho, h]

/-- A column of the written table is named without its qualifier. -/
theorem Value.columnRef?_restrict_of_owns {table : TableRef} {v : Value} {ref : String}
    (href : v.columnRef? = some ref) (howns : table.owns (Reference.splitQualifier ref).1) :
    (v.restrict table).columnRef? = some (Reference.splitQualifier ref).2 := by
  rw [restrict, href]
  simp only [howns, if_true, columnRef?]

namespace Statement

/-- The first entry of a query is either refused, as a column of another table that a leaf is
compared with, or kept with its restricted value. -/
theorem restrictQuery_cons (table : TableRef) (used : List String) (key : String) (v : Value)
    (rest : Entries Value) :
    (∃ ref, v.columnRef? = some ref ∧ key ∈ used ∧
      ¬ table.owns (Reference.splitQualifier ref).1 ∧
      restrictQuery table used ((key, v) :: rest) =
        .error (.malformed (.foreignColumn ref table.name key))) ∨
    ((∀ ref, v.columnRef? = some ref → key ∈ used →
        table.owns (Reference.splitQualifier ref).1) ∧
      restrictQuery table used ((key, v) :: rest) =
        (restrictQuery table used rest).map ((key, v.restrict table) :: ·)) := by
  rw [restrictQuery, Value.restrict]
  cases href : v.columnRef? with
  | none => exact Or.inr ⟨nofun, rfl⟩
  | some ref =>
    by_cases howns : table.owns (Reference.splitQualifier ref).1
    · refine Or.inr ⟨fun ref' href' _ => ?_, ?_⟩
      · obtain rfl := Option.some.inj href'
        exact howns
      · simp only [howns, if_true]
    · by_cases hused : key ∈ used
      · refine Or.inl ⟨ref, rfl, hused, howns, ?_⟩
        simp only [howns, hused, List.contains_eq_mem, decide_true, if_true]
        rfl
      · refine Or.inr ⟨fun _ _ hkey => absurd hkey hused, ?_⟩
        simp only [howns, hused, List.contains_eq_mem, decide_false]
        rfl

/-- The query of a write holds the same keys as before, with restricted values. -/
theorem restrictQuery_eq {table : TableRef} {used : List String} {query restricted : Entries Value}
    (h : restrictQuery table used query = .ok restricted) :
    restricted = query.mapValues (Value.restrict table) := by
  induction query generalizing restricted with
  | nil =>
    cases h
    rfl
  | cons entry rest ih =>
    obtain ⟨key, v⟩ := entry
    rcases restrictQuery_cons table used key v rest with ⟨ref, -, -, -, herror⟩ | ⟨-, heq⟩
    · rw [herror] at h
      cases h
    · rw [heq] at h
      obtain ⟨kept, hr, rfl⟩ := ok_of_map h
      rw [ih hr]
      rfl

/-- In a query that a write accepts, the columns that its leaves are compared with are those of the
written table. -/
theorem owns_of_restrictQuery {table : TableRef} {used : List String}
    {query restricted : Entries Value} (h : restrictQuery table used query = .ok restricted)
    {key ref : String} {v : Value} (hv : query.get? key = some v) (href : v.columnRef? = some ref)
    (hused : key ∈ used) : table.owns (Reference.splitQualifier ref).1 := by
  induction query generalizing restricted with
  | nil => cases hv
  | cons entry rest ih =>
    obtain ⟨k, w⟩ := entry
    rw [Entries.get?] at hv
    rcases restrictQuery_cons table used k w rest with ⟨ref', -, -, -, herror⟩ | ⟨howns, heq⟩
    · rw [herror] at h
      cases h
    · by_cases hk : k = key
      · rw [if_pos hk] at hv
        obtain rfl := Option.some.inj hv
        exact howns ref href (hk ▸ hused)
      · rw [if_neg hk] at hv
        rw [heq] at h
        obtain ⟨kept, hrest, -⟩ := ok_of_map h
        exact ih hrest hv

/-- The same for the leaves that a write keeps. -/
theorem owns_of_writeQuery {table : TableRef} {filter : Option Filter}
    {query restricted : Entries Value} (h : writeQuery table filter query = .ok restricted)
    {l : Leaf} (hl : l ∈ Filter.leavesOf? (filter.bind (Filter.restrict? table))) {v : Value}
    {ref : String} (hv : query.get? l.column = some v) (href : v.columnRef? = some ref) :
    table.owns (Reference.splitQualifier ref).1 := by
  refine owns_of_restrictQuery h hv href ?_
  cases hkept : filter.bind (Filter.restrict? table) with
  | none =>
    rw [hkept] at hl
    cases hl
  | some f =>
    rw [hkept] at hl
    exact List.mem_map_of_mem hl

/-- A query that a write refuses compares one of its leaves with a column of another table. -/
theorem exists_foreign_of_restrictQuery {table : TableRef} {used : List String}
    {query : Entries Value} {f : Failure} (h : restrictQuery table used query = .error f) :
    ∃ key v ref, (key, v) ∈ query ∧ v.columnRef? = some ref ∧ key ∈ used ∧
      ¬ table.owns (Reference.splitQualifier ref).1 ∧
      f = .malformed (.foreignColumn ref table.name key) := by
  induction query with
  | nil => cases h
  | cons entry rest ih =>
    obtain ⟨key, v⟩ := entry
    rcases restrictQuery_cons table used key v rest with
      ⟨ref, href, hused, howns, herror⟩ | ⟨-, heq⟩
    · rw [herror] at h
      cases h
      exact ⟨key, v, ref, List.mem_cons_self, href, hused, howns, rfl⟩
    · rw [heq] at h
      cases hrest : restrictQuery table used rest with
      | error f' =>
        rw [hrest] at h
        cases h
        obtain ⟨k, w, ref, hmem, hforeign⟩ := ih hrest
        exact ⟨k, w, ref, List.mem_cons_of_mem _ hmem, hforeign⟩
      | ok kept =>
        rw [hrest] at h
        cases h

/-! ## The columns -/

/-- A column that a write takes from a reference is the one behind the qualifier, and an
identifier. -/
theorem ownColumn?_eq_some {table : TableRef} {joined : Bool} {ref c : String}
    (h : ownColumn? table joined ref = some c) :
    c = (Reference.splitQualifier (Reference.splitAlias ref).1).2 ∧ Reference.isIdentifier c := by
  unfold ownColumn? at h
  dsimp only at h
  split at h
  · cases h
  · split at h
    · rename_i hidentifier
      obtain rfl := Option.some.inj h
      exact ⟨rfl, hidentifier⟩
    · cases h

theorem mem_writableFrom {data : Entries Value} {c : String} :
    ∀ (columns seen : List String), c ∈ writableFrom data seen columns →
      c ∈ columns ∧ data.has c ∧ c ∉ seen
  | [], seen, h => by simp [writableFrom] at h
  | c' :: rest, seen, h => by
    unfold writableFrom at h
    -- a column without data, or one that was seen already, is passed over
    by_cases hc : data.has c' && !seen.contains c'
    · rw [if_pos hc, List.mem_cons] at h
      rcases h with rfl | h
      · simp only [Bool.and_eq_true, Bool.not_eq_true', List.contains_eq_mem] at hc
        exact ⟨List.mem_cons_self, hc.1, by simpa using hc.2⟩
      · have ih := mem_writableFrom rest (c' :: seen) h
        exact ⟨List.mem_cons_of_mem _ ih.1, ih.2.1, fun hs => ih.2.2 (List.mem_cons_of_mem _ hs)⟩
    · rw [if_neg hc] at h
      have ih := mem_writableFrom rest seen h
      exact ⟨List.mem_cons_of_mem _ ih.1, ih.2⟩

/-- No column is written twice. -/
theorem nodup_writableFrom (data : Entries Value) (columns seen : List String) :
    (writableFrom data seen columns).Nodup := by
  induction columns generalizing seen with
  | nil => exact List.nodup_nil
  | cons c rest ih =>
    unfold writableFrom
    split
    · rw [List.nodup_cons]
      refine ⟨fun hc => ?_, ih (c :: seen)⟩
      exact (mem_writableFrom rest (c :: seen) hc).2.2 List.mem_cons_self
    · exact ih seen

/-- A column that is written belongs to the expression and has a value in the data. -/
theorem mem_writable {e : Expression} {data : Entries Value} {c : String}
    (h : c ∈ writable e data) : c ∈ ownColumns e ∧ data.has c :=
  have hc := mem_writableFrom (ownColumns e) [] h
  ⟨hc.1, hc.2.1⟩

end Statement

end TableOps
