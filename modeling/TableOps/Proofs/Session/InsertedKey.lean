import TableOps.Proofs.Session.Exchanges
import TableOps.Proofs.Session.Plans
import TableOps.Proofs.Statement.BoundValues

/-!
# The key of an inserted row

An insert writes the columns that the data has values for and that its expression names, and yields
the primary key of the row. The key is read off the data, whether or not its columns were written.

* `Result.generated` — what the driver reports for a column that was not supplied.
* `Plan.inserting_of_statement` — the statement of an insert, from a command read or unread.
* `Prepared.view_insert` — running it.

Main statement: `Plan.key_of_insert`, what an insert yields, and when this is what was written.
-/

namespace TableOps

open Session Statement

/-! ## The key that is reported -/

namespace Result

/-- What the driver reports for a column: the value in the row that it returned, else the key that it
generated. -/
def generated (r : Result) (column : String) : Value :=
  ((r.rows.head?.getD []).get? column).getD r.lastInsertId

/-- The key column of an inserted row is taken from the data if that has a value for it. -/
theorem insertedKey_eq (r : Result) (data : Entries Value) (column : String) :
    r.insertedKey data column =
      if data.has column then valueOf data column else r.generated column := by
  rw [insertedKey, Entries.has, valueOf, generated]
  cases data.get? column with
  | some v => rfl
  | none => cases (r.rows.head?.getD []).get? column <;> rfl

/-- Every column of the primary key is reported. -/
theorem get?_insertedKeys (r : Result) (data : Entries Value) {primaryKey : List String}
    {column : String} (h : column ∈ primaryKey) :
    (r.insertedKeys data primaryKey).get? column = some (r.insertedKey data column) := by
  have honly : Entries.Only (primaryKey.map fun column => (column, r.insertedKey data column)) column
      (r.insertedKey data column) := by
    refine ⟨⟨_, List.mem_map.mpr ⟨column, h, rfl⟩⟩, fun w hw => ?_⟩
    obtain ⟨column', -, heq⟩ := List.mem_map.mp hw
    obtain ⟨rfl, rfl⟩ := Prod.mk.inj heq
    rfl
  exact honly.get?_update []

/-- A key column is reported with the value that was written for it, or else with the generated one,
exactly when no other value was supplied for it. -/
theorem get?_insertedKeys_eq_iff (r : Result) {data : Entries Value}
    {primaryKey columns : List String} (hcolumns : ∀ c ∈ columns, data.has c) {column : String}
    (h : column ∈ primaryKey) :
    (r.insertedKeys data primaryKey).get? column =
        some (if column ∈ columns then valueOf data column else r.generated column) ↔
      (data.has column → column ∈ columns ∨ valueOf data column = r.generated column) := by
  rw [get?_insertedKeys r data h, insertedKey_eq, Option.some.injEq]
  by_cases hcolumn : column ∈ columns
  · rw [if_pos hcolumn, if_pos (hcolumns column hcolumn)]
    exact ⟨fun _ _ => .inl hcolumn, fun _ => rfl⟩
  · rw [if_neg hcolumn]
    by_cases hhas : data.has column
    · rw [if_pos hhas]
      exact ⟨fun heq _ => .inr heq, fun hcase => (hcase hhas).resolve_left hcolumn⟩
    · rw [if_neg hhas]
      exact ⟨fun _ hin => absurd hin hhas, fun _ => rfl⟩

end Result

/-! ## The statement of an insert -/

/-- The columns that are taken from unread parts are those that the data holds. -/
theorem Sketch.has_of_ownColumnsIn {table : TableRef} {joined : Bool} {data : Entries Value}
    {items : List Value} {columns : List String}
    (h : Sketch.ownColumnsIn table joined (.map data) items = .ok columns) :
    ∀ c ∈ columns, data.has c := by
  induction items generalizing columns with
  | nil =>
    cases h
    simp
  | cons item rest ih =>
    rw [ownColumnsIn] at h
    obtain ⟨text, -, h⟩ := ok_of_bind h
    obtain ⟨held, hheld, h⟩ := ok_of_bind h
    obtain ⟨others, hothers, h⟩ := ok_of_bind h
    cases h
    intro c hc
    rcases List.mem_append.mp hc with hc | hc
    · cases hown : ownColumn? table joined text with
      | none =>
        rw [hown] at hheld
        cases hheld
        cases hc
      | some own =>
        have hkept : (some own).toList.filterM (fun c => (Value.map data).holds (.text c)) =
            (.ok (if data.has own then [own] else []) : Except Failure (List String)) := by
          simp only [Option.toList_some, List.filterM, List.filterAuxM, Value.holds]
          cases data.has own <;> rfl
        rw [hown, hkept] at hheld
        cases hheld
        split at hc
        · rename_i hhas
          rw [List.mem_singleton.mp hc]
          exact hhas
        · cases hc
    · exact ih hothers c hc

/-- What is written from unread parts are columns that the data holds. -/
theorem Sketch.data_of_written {s : Sketch} {table : TableRef} {op : Operation}
    {columns : List String} {data : Entries Value} (h : s.written table op = .ok (columns, data)) :
    s.command.member "data" = .map data ∧ columns ≠ [] ∧ ∀ c ∈ columns, data.has c := by
  unfold written at h
  obtain ⟨items, -, h⟩ := ok_of_bind h
  obtain ⟨own, hown, h⟩ := ok_of_bind h
  obtain ⟨required, hrequired, h⟩ := ok_of_bind h
  obtain ⟨rfl, hsome⟩ := requireWritable_eq hrequired
  split at h
  · rename_i members hmembers
    cases h
    rw [hmembers] at hown
    have hhas : ∀ c ∈ own.eraseDups, data.has c := fun c hc =>
      has_of_ownColumnsIn hown c (List.mem_eraseDups.mp hc)
    refine ⟨?_, hsome, hhas⟩
    -- data that does not count as present holds no column
    split at hmembers
    · exact hmembers
    · cases hmembers
      obtain ⟨c, hc⟩ := List.exists_mem_of_ne_nil _ hsome
      cases hhas c hc
  · cases h

namespace Plan

/-- The statement of an insert writes columns that the data has values for, of which there is one. -/
theorem inserting_of_statement {x : Plan} {stmt : Statement}
    (h : x.prepared.statement (.of .insert) true = .ok (some stmt)) :
    ∃ (table : TableRef) (columns : List String),
      stmt = inserting x.dialect.engine table columns (x.prepared.data.getD []) x.prepared.schema ∧
      columns ≠ [] ∧ (∀ c ∈ columns, (x.prepared.data.getD []).has c) ∧ x.prepared.hasData := by
  obtain ⟨filled, cache, dialect, route⟩ := x
  cases filled with
  | expression c e schema =>
    have hcomposed : compose dialect (.of .insert) true { c.request e with schema := schema } =
        .ok (some stmt) := h
    cases composed_of_compose hcomposed with
    | selection hkind => rcases hkind with hkind | hkind <;> cases hkind
    | inserting hcolumns =>
      refine ⟨_, _, rfl, hcolumns, fun column hcolumn => (mem_writable hcolumn).2, ?_⟩
      -- a column that is written has a value, so that there is data
      obtain ⟨column, hcolumn⟩ := List.exists_mem_of_ne_nil _ hcolumns
      have hhas : (c.data.getD []).has column := (mem_writable hcolumn).2
      show c.data.isSome
      cases hdata : c.data with
      | none =>
        rw [hdata] at hhas
        cases hhas
      | some data => rfl
  | sketch sketch =>
    have hcomposed : sketch.compose dialect (.of .insert) true = .ok (some stmt) := h
    obtain ⟨stmt', hstmt, hsome⟩ := ok_of_map hcomposed
    cases hsome
    obtain ⟨table, -, hstmt⟩ := ok_of_bind hstmt
    obtain ⟨⟨columns, data⟩, hwritten, hstmt⟩ := ok_of_bind hstmt
    cases hstmt
    obtain ⟨hdata, hcolumns, hhas⟩ := Sketch.data_of_written hwritten
    have hprepared : (sketch.command.member "data").map? = some data := by
      rw [hdata]
      rfl
    refine ⟨table, columns, ?_, hcolumns, ?_, ?_⟩
    · show _ = inserting _ _ _ ((sketch.command.member "data").map?.getD []) _
      rw [hprepared]
      rfl
    · show ∀ c ∈ columns, (((sketch.command.member "data").map?).getD []).has c
      rw [hprepared]
      exact hhas
    · show !(sketch.command.member "data").isNull
      rw [hdata]
      rfl

end Plan

/-! ## Running it -/

namespace Prepared

variable {p : Prepared} {c : ConnectionId} {y : Connection} {events : List Event}
  {replies : List Reply}

/-- Composing a statement asks the driver for nothing. -/
theorem view_compose {kind : StatementKind} {withTotal : Bool} {stmt : Statement}
    (h : p.statement kind withTotal = .ok (some stmt)) :
    Leads (View c y events replies) (p.compose kind withTotal).run fun r s =>
      r = .ok (p.dialect.render stmt, stmt.values) ∧ View c y events replies s := by
  unfold compose
  refine .run_bind_ok (a := some stmt) (M := View c y events replies) (fun s hs => ⟨h, hs⟩) ?_
  dsimp only
  cases p.debug with
  | false => exact .run_pure fun s hs => ⟨rfl, hs⟩
  | true => exact .run_liftM_bind (View.leads_note _ _ _) fun _ => .run_pure fun s hs => ⟨rfl, hs⟩

/-- A statement of a command on a connection that is held is exchanged for its answer. -/
theorem view_run (hreleased : y.released = false) (hroute : p.connection = .own c)
    {kind : StatementKind} {withTotal : Bool} {stmt : Statement}
    (h : p.statement kind withTotal = .ok (some stmt)) :
    Leads (View c y events replies) (p.run kind withTotal).run fun r s =>
      r = (replies.headD .nothing).result ∧ ∃ added,
        exchanges added replies =
          [⟨y.raw, .text (p.dialect.render stmt), stmt.values, replies.headD .nothing⟩] ∧
        View c y (events ++ added) (remaining added replies) s := by
  unfold run
  rw [hroute]
  refine .run_bind_ok (view_compose h) ?_
  dsimp only
  refine .run_liftM_bind (M := fun _ => View c y events replies)
    (fun s hs => ⟨hs.connection, hs.events, hs.replies⟩) fun _ => ?_
  exact ConnectionId.view_exchange hreleased _ _

/-- An insert yields the key that its result and its data give. -/
theorem view_insert (hreleased : y.released = false) (hroute : p.connection = .own c)
    (hkind : p.kind = some (.of .insert)) (hdata : p.hasData) {stmt : Statement}
    (h : p.statement (.of .insert) true = .ok (some stmt)) :
    Leads (View c y events replies) p.outcome.run fun r s =>
      r = (replies.headD .nothing).result.map (fun result => .key (result.insertedKeys
        (p.data.getD []) ((p.schema.map TableSchema.primaryKey).getD []))) ∧ ∃ added,
        exchanges added replies =
          [⟨y.raw, .text (p.dialect.render stmt), stmt.values, replies.headD .nothing⟩] ∧
        View c y (events ++ added) (remaining added replies) s := by
  unfold outcome
  rw [hkind]
  show Leads _ (p.runOperation .insert).run _
  unfold runOperation requireData
  rw [if_pos hdata]
  refine .run_bind_ok (a := ()) (.run_pure fun s hs => ⟨rfl, hs⟩) ?_
  refine .run_bind_result (view_run hreleased hroute h) (fun f hf s hs => ⟨by rw [hf]; rfl, hs⟩)
    fun a ha => ?_
  exact .run_pure fun s hs => ⟨by rw [ha]; rfl, hs⟩

end Prepared

namespace Session

/-- A command yields what its plan does. -/
theorem result_of_plan {p : Patched} {s t : Session} {x : Plan}
    (h : (plan p).run.run s = (.ok x, t)) :
    ((executePatched p).run.run s).1 = (x.prepared.outcome.run.run t).1 := by
  have hfollows := (follows_executePatched p s).1
  rw [run_bind, h] at hfollows
  exact hfollows

end Session

namespace Plan

/-- An insert sends one statement, which binds the values of some columns that the data has, and
yields the primary key by the result that the driver reports for it. A column of the key comes with
the value in the data if there is one, else with the generated one. So it comes with what was written
for it, or else with the generated value, exactly when its value in the data, if it has one, was
written or is the generated one. -/
theorem key_of_insert {p : Patched} {s t : Session} {x : Plan} {c : ConnectionId} {stmt : Statement}
    (hplan : (plan p).run.run s = (.ok x, t)) (hkind : x.prepared.kind = some (.of .insert))
    (hroute : x.prepared.connection = .own c) (hheld : (t.connection c).released = false)
    (hstmt : x.prepared.statement (.of .insert) true = .ok (some stmt)) :
    let data := x.prepared.data.getD []
    let primaryKey := (x.prepared.schema.map TableSchema.primaryKey).getD []
    let reply := t.server.replies.headD .nothing
    t.exchanges (x.prepared.outcome.run.run t).2 =
      [⟨(t.connection c).raw, .text (x.prepared.dialect.render stmt), stmt.values, reply⟩] ∧
    ((executePatched p).run.run s).1 =
      reply.result.map (fun result => .key (result.insertedKeys data primaryKey)) ∧
    ∃ (table : TableRef) (columns : List String),
      stmt = inserting x.dialect.engine table columns data x.prepared.schema ∧
      stmt.values = columns.map (valueOf data) ∧ (∀ column ∈ columns, data.has column) ∧
      ∀ (result : Result), ∀ column ∈ primaryKey,
        (result.insertedKeys data primaryKey).get? column =
          some (if data.has column then valueOf data column else result.generated column) ∧
        ((result.insertedKeys data primaryKey).get? column =
            some (if column ∈ columns then valueOf data column else result.generated column) ↔
          (data.has column → column ∈ columns ∨ valueOf data column = result.generated column)) := by
  obtain ⟨table, columns, hinserting, -, hhas, hdata⟩ := inserting_of_statement hstmt
  obtain ⟨hresult, added, hadded, hview⟩ :=
    Prepared.view_insert hheld hroute hkind hdata hstmt t (View.self c t)
  refine ⟨?_, ?_, table, columns, hinserting, ?_, hhas, fun result column hcolumn => ⟨?_, ?_⟩⟩
  · rw [(View.self c t).exchanges_eq hview, hadded]
  · rw [result_of_plan hplan, hresult]
  · rw [hinserting, values_inserting]
  · rw [Result.get?_insertedKeys _ _ hcolumn, Result.insertedKey_eq]
  · exact Result.get?_insertedKeys_eq_iff result hhas hcolumn

end Plan

/-! ## A name that is written, and a number that is not -/

/-- A person has a number, which is the key, and a name. -/
def TableSchema.people : TableSchema :=
  ⟨"Person", [("id", .ofKind "integer"), ("name", .ofKind "string")], ["id"], []⟩

/-- A person is inserted with a number and a name, of which some columns are written. -/
def Patched.insertPerson (columns : List String) : Patched :=
  .ofCommand
    { operation := .insert
      target := .given
        { Expression.ofSource
            ⟨"Person psn", ⟨none, "Person", some "psn"⟩, TableRef.ofWords?_person⟩ with
          columns := columns }
      data := some [("id", .int 5), ("name", .text "Jane")]
      query := []
      page := none
      fields := none
      connection := .null
      refresh := false
      schema := some .people
      debug := false }

namespace Session

/-- A database that generates a key. -/
def generatingKeys : Session :=
  { empty .empty with
    databases := [.fresh (some "shop") (.standard .mysql) .factory ⟨none, none, 1, .null, none⟩]
    registry := ⟨[("shop", ⟨0⟩)], some "shop"⟩
    server := ⟨0, [], [.done [] [] (.int 1) (.int 7)]⟩ }

end Session

namespace Plan

/-- A number that is written is reported, and not the one that was generated. -/
theorem key_of_insert_written :
    ∃ x t stmt, (plan (.insertPerson [])).run.run generatingKeys = (.ok x, t) ∧
      x.prepared.statement (.of .insert) true = .ok (some stmt) ∧
      t.exchanges (x.prepared.outcome.run.run t).2 =
        [⟨1, .text "INSERT INTO `Person` (`id`, `name`) VALUES (%s, %s)", [.int 5, .text "Jane"],
          .done [] [] (.int 1) (.int 7)⟩] ∧
      ((executePatched (.insertPerson [])).run.run generatingKeys).1 =
        .ok (.key [("id", .int 5)]) := by
  obtain ⟨x, t, stmt, hplan, hkind, hroute, hheld, hstmt, hdata, hschema, hraw, hreplies, htext,
      hvalues⟩ : ∃ x t stmt, (plan (.insertPerson [])).run.run generatingKeys = (.ok x, t) ∧
        x.prepared.kind = some (.of .insert) ∧ x.prepared.connection = .own ⟨0⟩ ∧
        (t.connection ⟨0⟩).released = false ∧
        x.prepared.statement (.of .insert) true = .ok (some stmt) ∧
        x.prepared.data = some [("id", .int 5), ("name", .text "Jane")] ∧
        x.prepared.schema = some .people ∧ (t.connection ⟨0⟩).raw = 1 ∧
        t.server.replies = [.done [] [] (.int 1) (.int 7)] ∧
        x.prepared.dialect.render stmt =
          "INSERT INTO `Person` (`id`, `name`) VALUES (%s, %s)" ∧
        stmt.values = [.int 5, .text "Jane"] :=
    ⟨_, _, _, rfl, rfl, rfl, rfl, rfl, rfl, rfl, rfl, rfl, rfl, rfl⟩
  obtain ⟨hexchanged, hkey, -⟩ := key_of_insert hplan hkind hroute hheld hstmt
  rw [hraw, htext, hvalues, hreplies] at hexchanged
  rw [hdata, hschema, hreplies] at hkey
  exact ⟨x, t, stmt, hplan, hstmt, hexchanged, hkey⟩

/-- The number of a person is reported although only the name was written, and the driver reported
another one that it had generated. -/
theorem key_of_unwritten :
    generatingKeys.server.replies = [.done [] [] (.int 1) (.int 7)] ∧
    ∃ s', (executePatched (.insertPerson ["name"])).run.run generatingKeys =
        (.ok (.key [("id", .int 5)]), s') ∧
      s'.server.events = [.opened 1 none,
        .executed 1 (.text "INSERT INTO `Person` (`name`) VALUES (%s)") [.text "Jane"],
        .committed 1] :=
  ⟨rfl, _, rfl, rfl⟩

end Plan

end TableOps
