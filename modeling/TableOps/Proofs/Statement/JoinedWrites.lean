import TableOps.Proofs.Statement.WriteRestriction

/-!
# Writes on joined tables

A write touches the primary table of an expression. Column entries and leaves that are qualified by
a joined table are left out of it, and a leaf that remains must not be compared with a column of a
joined table.

A qualifier is taken for that of the primary table when it is the alias or the name of that table.
So the results ask that no joined table goes by the name that the primary one has behind its alias.
Where a table is joined to itself, once under an alias and once under its name, the columns of the
joined one are written.

* `Expression.joinedQualifiers` — the qualifiers of the joined tables;
  `Expression.not_owns_of_isJoined`, the primary table does not answer to them.
* `Expression.withoutJoined` — an expression without what is qualified by a joined table;
  `Request.compose_withoutJoined`, its writes are the same.
* `Request.Composed.unqualified` — a write names columns without qualifiers.
* `Request.compose_eq_error_of_foreign` — a comparison with a column of a joined table is refused.

Main statement: `Statement.writes_primary_only`.
-/

namespace TableOps

open Statement

/-! ## Joined tables -/

namespace Expression

/-- The qualifiers of the joined tables. -/
def joinedQualifiers (e : Expression) : List String :=
  e.joins.filterMap fun j => j.tableRef.toOption.map TableRef.qualifier

/-- The qualifier is that of a joined table. -/
def isJoined (e : Expression) (qualifier : Option String) : Bool :=
  qualifier.any e.joinedQualifiers.contains

/-- The expression without the column entries and the leaves of joined tables. -/
def withoutJoined (e : Expression) : Expression :=
  { e with
    columns := e.columns.filter fun ref =>
      !e.isJoined (Reference.splitQualifier (Reference.splitAlias ref).1).1
    filter := e.filter.bind (Filter.choose? (Option.guard fun l =>
      !e.isJoined (Reference.splitQualifier l.name).1)) }

/-- No column entry and no leaf is qualified by a joined table. -/
def PrimaryOnly (e : Expression) : Prop :=
  (∀ ref ∈ e.columns, ¬ e.isJoined (Reference.splitQualifier (Reference.splitAlias ref).1).1) ∧
    ∀ l ∈ Filter.leavesOf? e.filter, ¬ e.isJoined (Reference.splitQualifier l.name).1

variable {e : Expression}

theorem primaryOnly_withoutJoined (e : Expression) : e.withoutJoined.PrimaryOnly := by
  have hjoined : e.withoutJoined.isJoined = e.isJoined := rfl
  refine ⟨fun ref href => ?_, fun l hl => ?_⟩
  · rw [hjoined]
    simpa using (List.mem_filter.mp href).2
  · rw [hjoined]
    have hleaves : l ∈ (Filter.leavesOf? e.filter).filterMap
        (Option.guard fun l => !e.isJoined (Reference.splitQualifier l.name).1) := by
      rw [← Filter.leaves_bind_choose?]
      exact hl
    obtain ⟨k, -, hk⟩ := List.mem_filterMap.mp hleaves
    obtain ⟨rfl, hkept⟩ := Option.guard_eq_some_iff.mp hk
    simpa using hkept

/-- An alias has characters, so that it is the qualifier of its table. -/
theorem qualifier_of_alias {q : String} (h : e.table.aliasName = some q) :
    e.table.qualifier = q := by
  have hne := ((TableRef.subset_of_ofWords? e.source.reads).2 q h).1
  have hempty : q.isEmpty = false := by
    rw [Bool.eq_false_iff]
    intro hempty
    rw [String.isEmpty_iff.mp hempty] at hne
    exact hne rfl
  rw [TableRef.qualifier, TableRef.aliasText?, h, Option.filter_some, hempty]
  rfl

/-- The primary table does not answer to the qualifier of a joined one. -/
theorem not_owns_of_isJoined (hdistinct : (e.table.qualifier :: e.joinedQualifiers).Nodup)
    (hname : e.table.name ∉ e.joinedQualifiers) {qualifier : Option String}
    (h : e.isJoined qualifier) : ¬ e.table.owns qualifier := by
  cases qualifier with
  | none => cases h
  | some q =>
    have hq : q ∈ e.joinedQualifiers := by simpa [isJoined] using h
    have halias : e.table.aliasName ≠ some q := by
      intro halias
      rw [List.nodup_cons, qualifier_of_alias halias] at hdistinct
      exact hdistinct.1 hq
    have hother : e.table.name ≠ q := by
      rintro rfl
      exact hname hq
    simp [TableRef.owns, halias, hother]

/-- Where a qualifier is that of a joined table, there are joins. -/
theorem joins_ne_nil_of_isJoined {qualifier : Option String} (h : e.isJoined qualifier) :
    e.joins ≠ [] := by
  intro hnone
  cases qualifier with
  | none => cases h
  | some q => simp [isJoined, joinedQualifiers, hnone] at h

/-- A write takes the same columns from an expression without what belongs to joined tables. -/
theorem ownColumns_withoutJoined (hdistinct : (e.table.qualifier :: e.joinedQualifiers).Nodup)
    (hname : e.table.name ∉ e.joinedQualifiers) : ownColumns e.withoutJoined = ownColumns e := by
  show (e.columns.filter _).filterMap (ownColumn? e.table (!e.joins.isEmpty)) =
    e.columns.filterMap (ownColumn? e.table (!e.joins.isEmpty))
  rw [List.filterMap_filter]
  refine List.filterMap_congr fun ref _ => ?_
  by_cases hjoined : e.isJoined (Reference.splitQualifier (Reference.splitAlias ref).1).1
  · have howns := not_owns_of_isJoined hdistinct hname hjoined
    have hjoins := joins_ne_nil_of_isJoined hjoined
    rw [hjoined, ownColumn?]
    simp [howns, hjoins]
  · simp [hjoined]

/-- It keeps the same leaves. -/
theorem restrict?_withoutJoined (hdistinct : (e.table.qualifier :: e.joinedQualifiers).Nodup)
    (hname : e.table.name ∉ e.joinedQualifiers) :
    e.withoutJoined.filter.bind (Filter.restrict? e.table) =
      e.filter.bind (Filter.restrict? e.table) := by
  have hchoose : Filter.restrict? e.table = Filter.choose? (Leaf.restrict? e.table) :=
    funext (Filter.restrict?_eq_choose? e.table)
  show (e.filter.bind _).bind _ = _
  rw [Option.bind_assoc, hchoose]
  refine Option.bind_congr fun f _ => ?_
  rw [Filter.choose?_bind]
  -- a leaf of a joined table is not kept by a write either
  refine Filter.choose?_congr f fun l _ => ?_
  by_cases hjoined : e.isJoined (Reference.splitQualifier l.name).1
  · have howns := not_owns_of_isJoined hdistinct hname hjoined
    simp [Option.guard, hjoined, Leaf.restrict?, howns]
  · simp [Option.guard, hjoined]

end Expression

/-! ## Statements that write -/

/-- The piece names no column with a qualifier, and it is no text of the caller. A name is quoted as
one. -/
def Piece.Unqualified : Piece → Prop
  | .column ref => '.' ∉ ref.toList
  | .raw _ | .table _ => False
  | .text _ | .name _ | .value _ => True

namespace Statement

/-- The columns of a write have no qualifier. -/
theorem dot_not_mem_writable {e : Expression} {data : Entries Value} {c : String}
    (h : c ∈ writable e data) : '.' ∉ c.toList := by
  obtain ⟨ref, -, hown⟩ := List.mem_filterMap.mp (mem_writable h).1
  rw [(ownColumn?_eq_some hown).1]
  exact Reference.dot_not_mem_column _

theorem unqualified_nameList (names : List String) : ∀ p ∈ nameList names, p.Unqualified :=
  forall_mem_commaSeparated trivial
    (List.forall_mem_map.mpr fun _ _ => List.forall_mem_singleton.mpr trivial)

theorem unqualified_inserting (engine : Engine) (table : TableRef) (columns : List String)
    (data : Entries Value) (schema : Option TableSchema) :
    ∀ p ∈ inserting engine table columns data schema, p.Unqualified := by
  have hvalues : ∀ p ∈ commaSeparated (columns.map fun c => [.value (valueOf data c)]),
      p.Unqualified :=
    forall_mem_commaSeparated trivial
      (List.forall_mem_map.mpr fun _ _ => List.forall_mem_singleton.mpr trivial)
  have hreturning : ∀ p ∈ returning engine schema, p.Unqualified := by
    unfold returning
    split
    · exact List.forall_mem_cons.mpr ⟨trivial, unqualified_nameList _⟩
    · exact List.forall_mem_nil _
  simp only [inserting, List.forall_mem_append, List.forall_mem_cons, List.not_mem_nil,
    IsEmpty.forall_iff, implies_true, Piece.Unqualified, and_true, true_and]
  exact ⟨⟨unqualified_nameList columns, hvalues⟩, hreturning⟩

theorem unqualified_updating (table : TableRef) (columns : List String) (data : Entries Value)
    {clause : Statement} (h : ∀ p ∈ clause, p.Unqualified) :
    ∀ p ∈ updating table columns data clause, p.Unqualified := by
  have hassignments : ∀ p ∈ commaSeparated (columns.map (assignment data)), p.Unqualified := by
    refine forall_mem_commaSeparated trivial (List.forall_mem_map.mpr fun c _ => ?_)
    simp [assignment, Piece.Unqualified]
  simp only [updating, List.forall_mem_append, List.forall_mem_cons, List.not_mem_nil,
    IsEmpty.forall_iff, implies_true, Piece.Unqualified, and_true, true_and]
  exact ⟨hassignments, h⟩

theorem unqualified_deleting (table : TableRef) {clause : Statement}
    (h : ∀ p ∈ clause, p.Unqualified) : ∀ p ∈ deleting table clause, p.Unqualified := by
  simp only [deleting, List.forall_mem_append, List.forall_mem_cons, List.not_mem_nil,
    IsEmpty.forall_iff, implies_true, Piece.Unqualified, and_true, true_and]
  exact h

/-- The clause of a write compares columns without qualifiers, with each other and with values. -/
theorem unqualified_restriction {table : TableRef} {filter : Option Filter}
    {given query : Entries Value} {clause : Statement}
    (hquery : writeQuery table filter given = .ok query)
    (h : restriction table filter query = .ok clause) : ∀ p ∈ clause, p.Unqualified := by
  intro p hp
  rw [restrictQuery_eq hquery] at h
  rcases mem_whereClause h hp with rfl | ⟨w, -, rfl⟩ | ⟨l, hl, part, hpart, hp⟩
  · trivial
  · trivial
  · have hname : '.' ∉ l.name.toList := by
      rw [Filter.leaves_bind_restrict?] at hl
      obtain ⟨whole, -, hkept⟩ := List.mem_filterMap.mp hl
      rw [Leaf.eq_unqualified hkept, Leaf.unqualified_name]
      exact Reference.dot_not_mem_column whole.name
    rcases Leaf.mem_pieces hpart hp with rfl | ⟨w, -, rfl⟩ | ⟨v, rfl⟩ | ⟨v, ref, hv, href, rfl⟩
    · exact hname
    · trivial
    · trivial
    · rw [Entries.get?_mapValues] at hv
      obtain ⟨whole, hwhole, rfl⟩ := Option.map_eq_some_iff.mp hv
      have hnamed : whole.columnRef?.isSome := by
        rw [← Value.columnRef?_restrict table whole, href]
        rfl
      obtain ⟨ref', href'⟩ := Option.isSome_iff_exists.mp hnamed
      -- the column has been accepted, so that it has lost its qualifier
      have howns := owns_of_writeQuery hquery hl hwhole href'
      rw [Value.columnRef?_restrict_of_owns href' howns] at href
      obtain rfl := Option.some.inj href
      have hdot := Reference.dot_not_mem_column ref'
      show '.' ∉ (l.resolve _ _).toList
      rw [Leaf.resolve_of_not_mem _ hname hdot]
      exact Text.not_mem_trimmed hdot

end Statement

namespace Request

variable {d : Dialect} {r : Request} {op : Operation} {s : Statement}

/-- The request without the column entries and the leaves of joined tables. -/
def withoutJoined (r : Request) : Request :=
  { r with expression := r.expression.withoutJoined }

/-- What belongs to joined tables does not matter to a write: without it the outcome is the same. -/
theorem compose_withoutJoined (hop : op = .insert ∨ op = .update ∨ op = .delete)
    (hdistinct : (r.expression.table.qualifier :: r.expression.joinedQualifiers).Nodup)
    (hname : r.expression.table.name ∉ r.expression.joinedQualifiers) (withTotal : Bool) :
    compose d (.of op) withTotal r.withoutJoined = compose d (.of op) withTotal r := by
  have hcolumns : ∀ data,
      writable r.expression.withoutJoined data = writable r.expression data := by
    intro data
    rw [writable, writable, Expression.ownColumns_withoutJoined hdistinct hname]
  have hfilter := Expression.restrict?_withoutJoined hdistinct hname
  have htable : r.expression.withoutJoined.table = r.expression.table := rfl
  have hquery : ∀ query, writeQuery r.expression.table r.expression.withoutJoined.filter query =
      writeQuery r.expression.table r.expression.filter query := by
    intro query
    rw [writeQuery, writeQuery, hfilter]
  have hrestriction : ∀ query,
      restriction r.expression.table r.expression.withoutJoined.filter query =
        restriction r.expression.table r.expression.filter query := by
    intro query
    rw [restriction, restriction, hfilter]
  rcases hop with rfl | rfl | rfl
  · simp only [compose, Statement.insert, withoutJoined, htable, hcolumns]
  · simp only [compose, update, withoutJoined, htable, hcolumns, hquery, hrestriction]
  · simp only [compose, delete, withoutJoined, htable, hquery, hrestriction]

/-- A write names columns without qualifiers. -/
theorem Composed.unqualified (h : r.Composed d (.of op) s)
    (hop : op = .insert ∨ op = .update ∨ op = .delete) : ∀ p ∈ s, p.Unqualified := by
  rcases hop with rfl | rfl | rfl
  · cases h with
    | selection hkind => simp at hkind
    | inserting hcolumns => exact unqualified_inserting _ _ _ _ _
  · cases h with
    | selection hkind => simp at hkind
    | updating hquery hcolumns hwhere =>
      exact unqualified_updating _ _ _ (unqualified_restriction hquery hwhere)
  · cases h with
    | selection hkind => simp at hkind
    | deleting hquery hwhere =>
      exact unqualified_deleting _ (unqualified_restriction hquery hwhere)

/-- A query that is refused is the failure of the write. -/
theorem compose_eq_error {f : Failure} (hop : op = .update ∨ op = .delete) (withTotal : Bool)
    (h : writeQuery r.expression.table r.expression.filter r.query = .error f) :
    compose d (.of op) withTotal r = .error f := by
  rcases hop with rfl | rfl
  · simp only [compose, update, h]
    rfl
  · simp only [compose, delete, h]
    rfl

/-- A write that compares a remaining leaf with a column of another table is refused. -/
theorem compose_eq_error_of_foreign (hop : op = .update ∨ op = .delete) (withTotal : Bool)
    {l : Leaf} (hl : l ∈ Filter.leavesOf? (r.effectiveFilter (.of op))) {v : Value} {ref : String}
    (hv : r.query.get? l.column = some v) (href : v.columnRef? = some ref)
    (hforeign : ¬ r.expression.table.owns (Reference.splitQualifier ref).1) :
    ∃ ref' key, compose d (.of op) withTotal r =
      .error (.malformed (.foreignColumn ref' r.expression.table.name key)) := by
  rw [r.effectiveFilter_of_restricted hop] at hl
  cases hquery : writeQuery r.expression.table r.expression.filter r.query with
  | ok query => exact absurd (owns_of_writeQuery hquery hl hv href) hforeign
  | error f =>
    obtain ⟨key, w, ref', -, -, -, -, rfl⟩ := exists_foreign_of_restrictQuery hquery
    exact ⟨ref', key, compose_eq_error hop withTotal hquery⟩

end Request

/-- Where the tables of an expression have different qualifiers, and none of the joined ones goes by
the name of the primary table, a write takes nothing from a column entry or a leaf that is qualified
by a joined table: it is the same without these. It names columns without qualifiers. An update or a
deletion with a leaf that is compared with a column of a joined table is refused. -/
theorem Statement.writes_primary_only {d : Dialect} {r : Request} {op : Operation}
    {withTotal : Bool} (hop : op = .insert ∨ op = .update ∨ op = .delete)
    (hdistinct : (r.expression.table.qualifier :: r.expression.joinedQualifiers).Nodup)
    (hname : r.expression.table.name ∉ r.expression.joinedQualifiers) :
    (r.withoutJoined.expression.PrimaryOnly ∧
      compose d (.of op) withTotal r.withoutJoined = compose d (.of op) withTotal r) ∧
      (∀ s, compose d (.of op) withTotal r = .ok (some s) →
        (∀ p ∈ s, p.Unqualified) ∧ ∀ c ∈ r.written (.of op), '.' ∉ c.toList) ∧
      (op ≠ .insert → ∀ l ∈ Filter.leavesOf? (r.effectiveFilter (.of op)), ∀ v ref,
        r.query.get? l.column = some v → v.columnRef? = some ref →
        r.expression.isJoined (Reference.splitQualifier ref).1 →
        ∃ ref' key, compose d (.of op) withTotal r =
          .error (.malformed (.foreignColumn ref' r.expression.table.name key))) := by
  refine ⟨⟨Expression.primaryOnly_withoutJoined r.expression,
    Request.compose_withoutJoined hop hdistinct hname withTotal⟩, fun s hs => ⟨?_, ?_⟩, ?_⟩
  · exact (composed_of_compose hs).unqualified hop
  · intro c hc
    unfold Request.written at hc
    split at hc
    · exact dot_not_mem_writable hc
    · exact dot_not_mem_writable hc
    · cases hc
  · intro hrestricted l hl v ref hv href hjoined
    exact Request.compose_eq_error_of_foreign (hop.resolve_left hrestricted) withTotal hl hv href
      (Expression.not_owns_of_isJoined hdistinct hname hjoined)

/-- Persons with a department, and with other persons as their bosses. -/
def Expression.ofTeam : Expression where
  source := ⟨"Person psn", ⟨none, "Person", some "psn"⟩, TableRef.ofWords?_person⟩
  joins := [⟨"Department", some "left", some "dptID", none⟩,
    ⟨"Person AS boss", none, none, some "psn.bossID = boss.psnID"⟩]
  columns := ["psn.name", "Department.title", "boss.name AS bossName", "Person.age", "addr"]
  transformers := []
  filter := some (.group .and [.leaf (.equals "psn.psnID"), .leaf (.equals "Department.title"),
    .group .or [.leaf ⟨"boss.age", ">", false⟩, .leaf ⟨"age", "<", false⟩]])
  extra := .null

/-- The change of persons. -/
def Request.ofTeam (query : Entries Value) : Request where
  expression := .ofTeam
  data := some [("name", .text "Jane"), ("title", .text "Sales"), ("addr", .text "Basel")]
  query := query
  fields := none
  page := none
  schema := none

/-- An update leaves the department and the boss out, and a deletion that compares with the age of
the boss is refused. -/
theorem Statement.writes_primary_only_ofTeam :
    (∃ s, compose ⟨.mysql, .format, by decide⟩ (.of .update) true
        (Request.ofTeam [("psnID", .int 3), ("title", .text "IT"), ("age", .text "@psn.max")]) =
          .ok (some s) ∧
      Dialect.render ⟨.mysql, .format, by decide⟩ s =
        "UPDATE `Person` SET `name` = %s, `addr` = %s WHERE (`psnID` = %s AND `age` < `max`)" ∧
      (∀ p ∈ s, p.Unqualified) ∧
      compose ⟨.mysql, .format, by decide⟩ (.of .update) true
        (Request.ofTeam [("psnID", .int 3), ("title", .text "IT"),
          ("age", .text "@psn.max")]).withoutJoined = .ok (some s)) ∧
    ∃ ref key, compose ⟨.mysql, .format, by decide⟩ (.of .delete) true
      (Request.ofTeam [("age", .text "@boss.age")]) =
        .error (.malformed (.foreignColumn ref "Person" key)) := by
  have hdistinct : (Expression.ofTeam.table.qualifier ::
      Expression.ofTeam.joinedQualifiers).Nodup := by decide +kernel
  have hname : Expression.ofTeam.table.name ∉ Expression.ofTeam.joinedQualifiers := by
    decide +kernel
  refine ⟨?_, ?_⟩
  · have htext : (compose ⟨.mysql, .format, by decide⟩ (.of .update) true (Request.ofTeam
        [("psnID", .int 3), ("title", .text "IT"), ("age", .text "@psn.max")])).toOption.join.map
          (Dialect.render ⟨.mysql, .format, by decide⟩) = some
        "UPDATE `Person` SET `name` = %s, `addr` = %s WHERE (`psnID` = %s AND `age` < `max`)" := by
      decide +kernel
    obtain ⟨s, hs, hrender⟩ := Option.map_eq_some_iff.mp htext
    have hs := ok_of_toOption_join hs
    obtain ⟨⟨-, hsame⟩, hunqualified, -⟩ := writes_primary_only (r := Request.ofTeam
      [("psnID", .int 3), ("title", .text "IT"), ("age", .text "@psn.max")])
      (.inr (.inl rfl)) hdistinct hname
    exact ⟨s, hs, hrender, (hunqualified s hs).1, hsame.trans hs⟩
  · have hcolumn : Leaf.column ⟨"age", "<", false⟩ = "age" := by decide +kernel
    have hl : ⟨"age", "<", false⟩ ∈ Filter.leavesOf?
        ((Request.ofTeam [("age", .text "@boss.age")]).effectiveFilter (.of .delete)) := by
      decide +kernel
    obtain ⟨-, -, hrefused⟩ := writes_primary_only (d := ⟨.mysql, .format, by decide⟩)
      (r := Request.ofTeam [("age", .text "@boss.age")]) (.inr (.inr rfl)) hdistinct hname
    refine hrefused (by decide) _ hl (.text "@boss.age") "boss.age" ?_ (by decide +kernel)
      (by decide +kernel)
    rw [hcolumn]
    rfl

/-- Persons with other persons as their bosses, who go by the name of the table. -/
def Request.ofBoss : Request where
  expression :=
    { source := ⟨"Person AS emp", ⟨none, "Person", some "emp"⟩, by decide +kernel⟩
      joins := [⟨"Person", none, none, some "emp.bossID = Person.psnID"⟩]
      columns := ["emp.name", "Person.addr"]
      transformers := []
      filter := some (.leaf (.equals "emp.psnID"))
      extra := .null }
  data := some [("name", .text "x"), ("addr", .text "y")]
  query := [("psnID", .int 1)]
  fields := none
  page := none
  schema := none

/-- The qualifiers differ, and still the column of the boss is written, to the employee. -/
theorem Statement.writes_joined_ofBoss :
    (Request.ofBoss.expression.table.qualifier ::
        Request.ofBoss.expression.joinedQualifiers).Nodup ∧
      Request.ofBoss.expression.isJoined (Reference.splitQualifier "Person.addr").1 ∧
      ∃ s s', compose ⟨.mysql, .format, by decide⟩ (.of .update) true Request.ofBoss =
          .ok (some s) ∧
        compose ⟨.mysql, .format, by decide⟩ (.of .update) true Request.ofBoss.withoutJoined =
          .ok (some s') ∧
        Dialect.render ⟨.mysql, .format, by decide⟩ s =
          "UPDATE `Person` SET `name` = %s, `addr` = %s WHERE `psnID` = %s" ∧
        Dialect.render ⟨.mysql, .format, by decide⟩ s' =
          "UPDATE `Person` SET `name` = %s WHERE `psnID` = %s" := by
  have htext : (compose ⟨.mysql, .format, by decide⟩ (.of .update) true
      Request.ofBoss).toOption.join.map (Dialect.render ⟨.mysql, .format, by decide⟩) =
      some "UPDATE `Person` SET `name` = %s, `addr` = %s WHERE `psnID` = %s" := by
    decide +kernel
  have htext' : (compose ⟨.mysql, .format, by decide⟩ (.of .update) true
      Request.ofBoss.withoutJoined).toOption.join.map
        (Dialect.render ⟨.mysql, .format, by decide⟩) =
      some "UPDATE `Person` SET `name` = %s WHERE `psnID` = %s" := by
    decide +kernel
  obtain ⟨s, hs, hrender⟩ := Option.map_eq_some_iff.mp htext
  obtain ⟨s', hs', hrender'⟩ := Option.map_eq_some_iff.mp htext'
  exact ⟨by decide +kernel, by decide +kernel, s, s', ok_of_toOption_join hs,
    ok_of_toOption_join hs', hrender, hrender'⟩

end TableOps
