import TableOps.Proofs.Result.Reported
import TableOps.Proofs.Result.Transformed
import TableOps.Proofs.Session.InsertedKey
import TableOps.Proofs.Session.PageExchanges

/-!
# The shape of results

What a read command yields, by the rows that the driver reports for its statement: a query its first
row, a list all rows in their order, and a page also the number of rows in all. The rows are
transformed once, and those of a page whose total was read off them have lost the column of the total.

* `Exchanged` — what a call exchanges with the driver on a connection that it leaves as it is.
* `Prepared.pageRows` — the rows of a page without the column of the total.
* `Prepared.CountedAs` — where the total of a page comes from.
* `Prepared.exchanged_query`, `Prepared.exchanged_list`, `Prepared.exchanged_page` — the operations.
* `Filled.HasTransformers` — the transformers of a command; `Plan.transformers_eq_ok_iff`, it is run
  with them.

Main statement: `Prepared.shape_of_read`.
-/

namespace TableOps

open Session

/-! ## Calls that exchange statements -/

theorem remaining_eq_drop (events : List Event) (replies : List Reply) :
    remaining events replies = replies.drop (exchanges events replies).length := by
  induction events generalizing replies with
  | nil => rfl
  | cons e events ih =>
    cases e with
    | executed raw statement values =>
      rw [remaining, ih, exchanges, List.length_cons, ← List.drop_one, List.drop_drop, Nat.add_comm]
    | _ => exact ih replies

/-- Some statements were exchanged with the driver since a connection was seen, which stands as
before. -/
def Exchanged (c : ConnectionId) (x : Connection) (events : List Event) (replies : List Reply)
    (xs : List Exchange) (s : Session) : Prop :=
  ∃ added, exchanges added replies = xs ∧ View c x (events ++ added) (replies.drop xs.length) s

namespace Exchanged

variable {α β : Type} {c : ConnectionId} {x : Connection} {events : List Event}
  {replies : List Reply} {xs ys : List Exchange}

/-- A call that succeeds and then another one exchange what each of them does. -/
theorem bind {call : SessionM α} {f : α → SessionM β} {a : α} {result : Except Failure β}
    (hcall : Leads (View c x events replies) call.run fun r s =>
      r = .ok a ∧ Exchanged c x events replies xs s)
    (hf : ∀ events', Leads (View c x events' (replies.drop xs.length)) (f a).run fun r s =>
      r = result ∧ Exchanged c x events' (replies.drop xs.length) ys s) :
    Leads (View c x events replies) (call >>= f).run fun r s =>
      r = result ∧ Exchanged c x events replies (xs ++ ys) s := by
  refine .run_bind_ok hcall ?_
  rintro s ⟨added, hadded, hview⟩
  obtain ⟨hr, added', hadded', hview'⟩ := hf _ s hview
  have hleft : remaining added replies = replies.drop xs.length := by
    rw [remaining_eq_drop, hadded]
  refine ⟨hr, added ++ added', ?_, ?_⟩
  · rw [exchanges_append, hadded, hleft, hadded']
  · rw [List.length_append, ← List.drop_drop, ← List.append_assoc]
    exact hview'

theorem exchanges_eq {t s : Session}
    (h : Exchanged c (t.connection c) t.server.events t.server.replies xs s) :
    t.exchanges s = xs := by
  obtain ⟨added, hadded, hview⟩ := h
  rw [Session.exchanges_eq hview.events, hadded]

/-- A call that succeeds and then a step without effects. -/
theorem map {call : SessionM α} {f : α → SessionM β} {a : α} {b : β}
    (hcall : Leads (View c x events replies) call.run fun r s =>
      r = .ok a ∧ Exchanged c x events replies xs s)
    (hf : f a = pure b) :
    Leads (View c x events replies) (call >>= f).run fun r s =>
      r = .ok b ∧ Exchanged c x events replies xs s := by
  refine .run_bind_ok hcall ?_
  rw [hf]
  exact fun s hs => ⟨rfl, hs⟩

end Exchanged

/-! ## The statements of a command -/

namespace Prepared

variable {p : Prepared} {c : ConnectionId} {x : Connection} {events : List Event}
  {replies : List Reply}

/-- A statement of the command with its answer. -/
def exchange (p : Prepared) (raw : RawId) (stmt : Statement) (reply : Reply) : Exchange :=
  ⟨raw, .text (p.dialect.render stmt), stmt.values, reply⟩

theorem exchanged_run (hreleased : x.released = false) (hroute : p.connection = .own c)
    {kind : StatementKind} {withTotal : Bool} {stmt : Statement}
    (h : p.statement kind withTotal = .ok (some stmt)) {result : Result}
    (hreply : (replies.headD .nothing).result = .ok result) :
    Leads (View c x events replies) (p.run kind withTotal).run fun r s =>
      r = .ok result ∧
        Exchanged c x events replies [p.exchange x.raw stmt (replies.headD .nothing)] s := by
  intro s hs
  obtain ⟨hr, added, hadded, hview⟩ := view_run hreleased hroute h s hs
  rw [remaining_eq_drop, hadded] at hview
  exact ⟨hr.trans hreply, added, hadded, hview⟩

/-- The statement of the total is answered with it. -/
theorem exchanged_countRows (hreleased : x.released = false) (hroute : p.connection = .own c)
    {stmt : Statement} (h : p.statement .total true = .ok (some stmt)) {counted : Result} {n : Int}
    (hreply : (replies.headD .nothing).result = .ok counted) (hn : counted.Counts n) :
    Leads (View c x events replies) p.countRows.run fun r s =>
      r = .ok n ∧
        Exchanged c x events replies [p.exchange x.raw stmt (replies.headD .nothing)] s := by
  obtain ⟨name, v, row, rows, hrows, hwhole⟩ := hn
  unfold countRows
  rw [hroute]
  refine .run_bind_ok (view_compose h) ?_
  refine .run_bind_ok (a := counted) (M := Exchanged c x events replies
    [p.exchange x.raw stmt (replies.headD .nothing)]) ?_ ?_
  · intro s hs
    obtain ⟨hr, added, hadded, hview⟩ := ConnectionId.view_exchange hreleased _ _ s hs
    rw [remaining_eq_drop, hadded] at hview
    exact ⟨hr.trans hreply, added, hadded, hview⟩
  · intro s hs
    rw [hrows]
    exact ⟨hwhole, hs⟩

/-! ## The operations -/

/-- A query yields its first row, transformed. -/
theorem exchanged_query (hreleased : x.released = false) (hroute : p.connection = .own c)
    (hkind : p.kind = some (.of .query)) {stmt : Statement}
    (h : p.statement (.of .query) true = .ok (some stmt)) {result : Result} {rows : List Row}
    (hreply : (replies.headD .nothing).result = .ok result)
    (hrows : p.transform (result.rows.take 1) = .ok rows) :
    Leads (View c x events replies) p.outcome.run fun r s =>
      r = .ok (.row rows.head?) ∧
        Exchanged c x events replies [p.exchange x.raw stmt (replies.headD .nothing)] s := by
  unfold outcome
  rw [hkind]
  refine Exchanged.map (exchanged_run hreleased hroute h hreply) ?_
  rw [transformed, hrows]
  rfl

/-- A list yields all its rows, transformed. -/
theorem exchanged_list (hreleased : x.released = false) (hroute : p.connection = .own c)
    (hkind : p.kind = some (.of .list)) (hpaged : p.isPaged = false) {stmt : Statement}
    (h : p.statement (.of .list) true = .ok (some stmt)) {result : Result} {rows : List Row}
    (hreply : (replies.headD .nothing).result = .ok result)
    (hrows : p.transform result.rows = .ok rows) :
    Leads (View c x events replies) p.outcome.run fun r s =>
      r = .ok (.rows rows) ∧
        Exchanged c x events replies [p.exchange x.raw stmt (replies.headD .nothing)] s := by
  unfold outcome
  rw [hkind]
  show Leads _ (p.runOperation .list).run _
  rw [runOperation, hpaged]
  refine Exchanged.map (exchanged_run hreleased hroute h hreply) ?_
  rw [transformed, hrows]
  rfl

/-! ## Pages -/

/-- The rows of a page that are returned: without the column of the total, where that is read off
them. -/
def pageRows (p : Prepared) (remembered : Option Int) (rows : List Row) : List Row :=
  if p.dialect.engine = .postgres ∧ remembered = none then
    rows.map (Entries.erase · Statement.totalColumn)
  else rows

/-- Where the total of a page comes from, with the statements that are run for it: it is remembered,
or it stands in the first row, or else it is the first value that its own statement is answered
with. -/
inductive CountedAs (p : Prepared) (remembered : Option Int) (rows : List Row) (reply : Reply)
    (n : Int) : List Statement → Prop where
  | remembered (h : remembered = some n) : CountedAs p remembered rows reply n []
  | embedded (hnone : remembered = none) (hengine : p.dialect.engine = .postgres) {row : Row}
      {v : Value} (hrow : rows.head? = some row) (hv : row.get? Statement.totalColumn = some v)
      (hn : v.toWhole = .ok n) : CountedAs p remembered rows reply n []
  | asked (hnone : remembered = none)
      (habsent : p.dialect.engine = .postgres → ∀ row, rows.head? = some row →
        row.get? Statement.totalColumn = none)
      {stmt : Statement} (hstmt : p.statement .total true = .ok (some stmt)) {counted : Result}
      (hreply : reply.result = .ok counted) (hn : counted.Counts n) :
      CountedAs p remembered rows reply n [stmt]

/-- Reported rows of which the first has no column of the total are returned as they are. -/
theorem absent_of_head {r : Report}
    (h : ∀ row, r.entries.head? = some row → row.get? Statement.totalColumn = none) :
    ∀ row ∈ r.entries, ¬ row.has Statement.totalColumn := by
  intro row hrow
  obtain ⟨first, hfirst⟩ : ∃ first, r.entries.head? = some first :=
    Option.isSome_iff_exists.mp (List.isSome_head?.mpr (List.ne_nil_of_mem hrow))
  have hnone : ¬ first.has Statement.totalColumn := by
    rw [Entries.has, h first hfirst]
    decide
  -- all rows have the columns that the driver names
  rw [r.has_entries (List.mem_of_mem_head? hfirst)] at hnone
  rwa [r.has_entries hrow]

theorem pageRows_of_absent {remembered : Option Int} {rows : List Row}
    (h : p.dialect.engine = .postgres → ∀ row ∈ rows, ¬ row.has Statement.totalColumn) :
    p.pageRows remembered rows = rows := by
  unfold pageRows
  split
  · rename_i hstripped
    exact (List.map_congr_left fun row hrow =>
      Entries.erase_eq_self (h hstripped.1 row hrow)).trans (List.map_id rows)
  · rfl

/-- The rows of a page and their total, where the total is not remembered. -/
theorem exchanged_tally (hreleased : x.released = false) (hroute : p.connection = .own c)
    {stmt : Statement} (h : p.statement (.of .list) true = .ok (some stmt)) {r : Report}
    (hreply : replies.headD .nothing = r.reply) {n : Int} {asked : List Statement}
    (hn : p.CountedAs none r.entries (replies.tail.headD .nothing) n asked) :
    Leads (View c x events replies) p.tally.run fun result s =>
      result = .ok (p.pageRows none r.entries, n) ∧
        Exchanged c x events replies (p.exchange x.raw stmt r.reply ::
          asked.map fun total => p.exchange x.raw total (replies.tail.headD .nothing)) s := by
  have hrun : Leads (View c x events replies) (p.run (.of .list) true).run fun result s =>
      result = .ok r.result ∧ Exchanged c x events replies [p.exchange x.raw stmt r.reply] s := by
    have hresult : (replies.headD .nothing).result = .ok r.result := by
      rw [hreply, r.result_reply]
    rw [← hreply]
    exact exchanged_run hreleased hroute h hresult
  unfold tally
  cases hn with
  | remembered hsome => cases hsome
  | embedded hnone hengine hrow hv hn =>
    refine Exchanged.map hrun ?_
    rw [hengine, show r.result.rows = r.entries from rfl, Engine.stripTotal_of_embedded hrow hv hn,
      pageRows, if_pos ⟨hengine, rfl⟩]
    rfl
  | asked hnone habsent hstmt hcounted hn =>
    have hall : p.dialect.engine = .postgres →
        ∀ row ∈ r.entries, ¬ row.has Statement.totalColumn := fun hengine =>
      absent_of_head (habsent hengine)
    rw [pageRows_of_absent hall]
    refine Exchanged.bind hrun fun events' => ?_
    rw [show r.result.rows = r.entries from rfl, Engine.stripTotal_of_not_embedded hall]
    show Leads _ (p.countRows >>= fun total => pure (r.entries, total)).run _
    refine Exchanged.map (f := fun total => pure (r.entries, total)) ?_ rfl
    rw [List.length_singleton, List.drop_one]
    exact exchanged_countRows hreleased hroute hstmt hcounted hn

/-- A page yields its rows, transformed, and their total. -/
theorem exchanged_page {t : Session} (hheld : (t.connection c).released = false)
    (hroute : p.connection = .own c) {remembered : Option Int}
    (hremembered : (t.cache p.cache).countFor p.query = remembered) {stmt : Statement}
    (h : p.statement (.of .list) remembered.isNone = .ok (some stmt)) {r : Report}
    (hreply : t.server.replies.headD .nothing = r.reply) {n : Int} {asked : List Statement}
    (hn : p.CountedAs remembered r.entries (t.server.replies.tail.headD .nothing) n asked)
    {rows : List Row} (hrows : p.transform (p.pageRows remembered r.entries) = .ok rows) :
    (p.page.run.run t).1 = .ok (.page rows n) ∧
      Exchanged c (t.connection c) t.server.events t.server.replies
        (p.exchange (t.connection c).raw stmt r.reply :: asked.map fun total =>
          p.exchange (t.connection c).raw total (t.server.replies.tail.headD .nothing))
        (p.page.run.run t).2 := by
  cases remembered with
  | some m =>
    cases hn with
    | remembered hm =>
      obtain rfl := Option.some.inj hm
      rw [page_of_remembered hremembered]
      have hresult : (t.server.replies.headD .nothing).result = .ok r.result := by
        rw [hreply, r.result_reply]
      have hkept : p.pageRows (some m) r.entries = r.entries := if_neg fun h => nomatch h.2
      rw [hkept] at hrows
      rw [← hreply]
      refine Exchanged.map (exchanged_run hheld hroute h hresult) ?_ t (View.self c t)
      rw [show r.result.rows = r.entries from rfl, transformed, hrows]
      rfl
    | embedded hnone => cases hnone
    | asked hnone => cases hnone
  | none =>
    rw [page_of_not_remembered hremembered]
    have hkept : ∀ xs, Leads (Exchanged c (t.connection c) t.server.events t.server.replies xs)
        (do
          updateCache p.cache (·.store p.query n)
          return .page (← p.transformed (p.pageRows none r.entries)) n : SessionM Outcome).run
        fun result s => result = .ok (.page rows n) ∧
          Exchanged c (t.connection c) t.server.events t.server.replies xs s := by
      intro xs
      refine .run_liftM_bind (M := fun _ =>
        Exchanged c (t.connection c) t.server.events t.server.replies xs) ?_ fun _ => ?_
      · exact fun s ⟨added, hadded, hview⟩ =>
          ⟨added, hadded, hview.connection, hview.events, hview.replies⟩
      · rw [transformed, hrows]
        exact fun s hs => ⟨rfl, hs⟩
    refine Leads.run_bind_ok (Q := fun result s => result = .ok (Outcome.page rows n) ∧
      Exchanged c (t.connection c) t.server.events t.server.replies _ s)
      (exchanged_tally hheld hroute h hreply hn) ?_ t (View.self c t)
    exact hkept _

/-! ## The transformers of a command -/

end Prepared

/-- The table of transformers that a filled command has: that of its expression, or none where an
unread value that does not count as present stands in its place. -/
def Filled.HasTransformers (filled : Filled) (table : Entries Value) : Prop :=
  match filled with
  | .expression _ e _ => e.transformers = table
  | .sketch s =>
    match s.draft.unread.get? "transformers" with
    | none => s.draft.expression.transformers = table
    | some v => v.truthy = false ∧ table = []

theorem Sketch.transformers_eq_ok_iff (s : Sketch) (table : Entries Value) :
    s.transformers = .ok table ↔ (Filled.sketch s).HasTransformers table := by
  cases hunread : Entries.get? s.draft.unread "transformers" with
  | none =>
    simp [Filled.HasTransformers, transformers, Unread.shows, Draft.transformers, Unread.readAs,
      Unread.read, hunread]
  | some v =>
    cases hv : v.truthy with
    | true =>
      simp [Filled.HasTransformers, transformers, Unread.shows, Draft.transformers, Unread.readAs,
        Unread.read, hunread, hv]
    | false =>
      simp [Filled.HasTransformers, transformers, Unread.shows, hunread, hv, eq_comm (b := table)]

namespace Plan

/-- A command is run with its own table. -/
theorem transformers_eq_ok_iff (x : Plan) (table : Entries Value) :
    x.prepared.transformers = .ok table ↔ x.filled.HasTransformers table := by
  obtain ⟨filled, cache, dialect, route, functions⟩ := x
  cases filled with
  | expression c e schema =>
    exact ⟨fun h => Except.ok.inj h, fun h => congrArg Except.ok h⟩
  | sketch s => exact s.transformers_eq_ok_iff table

theorem prepared_functions (x : Plan) : x.prepared.functions = x.functions := by
  obtain ⟨filled, cache, dialect, route, functions⟩ := x
  cases filled <;> rfl

end Plan

/-- A schema leaves the transformers of an expression. -/
theorem transformers_of_autoFill {c : Command} {e e' : Expression} {schema : TableSchema}
    (h : autoFill c e schema = .ok e') : e'.transformers = e.transformers := by
  obtain ⟨columns, -, h⟩ := ok_of_bind h
  cases h
  rfl

namespace Session

variable {command : Patched} {shared : SharedExpression} {d : DatabaseId} {s t : Session} {x : Plan}

/-- The transformers of a command refer to the functions of the session in which it is run. -/
theorem functions_of_planned (h : (planned command shared d).run.run s = (.ok x, t)) :
    x.functions = t.functions := by
  obtain ⟨r, u, -, h⟩ := ok_of_run_bind h
  unfold planFor at h
  split at h
  · obtain ⟨schema, u, -, h⟩ := ok_of_run_bind h
    obtain ⟨e, u, -, h⟩ := ok_of_run_bind h
    obtain ⟨here, u, hget, h⟩ := ok_of_run_bind h
    cases hget
    cases h
    rfl
  · obtain ⟨given, u, -, h⟩ := ok_of_run_bind h
    obtain ⟨schema, u, -, h⟩ := ok_of_run_bind h
    obtain ⟨draft, u, -, h⟩ := ok_of_run_bind h
    obtain ⟨here, u, hget, h⟩ := ok_of_run_bind h
    cases hget
    cases h
    rfl

/-- A command without unread parts is run with the transformers of its expression. -/
theorem transformers_of_planned (h : (planned command shared d).run.run s = (.ok x, t))
    (hcommand : command.unread = []) (hshared : shared.unread = []) :
    x.filled.HasTransformers shared.expression.transformers := by
  obtain ⟨r, u, -, h⟩ := ok_of_run_bind h
  have hread : (command.unread.isEmpty && shared.unread.isEmpty) = true := by
    rw [hcommand, hshared]
    rfl
  rw [planFor, if_pos hread] at h
  obtain ⟨schema, u, -, h⟩ := ok_of_run_bind h
  obtain ⟨e, u, he, h⟩ := ok_of_run_bind h
  obtain ⟨here, u, -, h⟩ := ok_of_run_bind h
  cases h
  cases schema with
  | none =>
    cases congrArg Prod.fst he
    rfl
  | some given => exact transformers_of_autoFill (congrArg Prod.fst he)

end Session

namespace Prepared

variable {p : Prepared} {c : ConnectionId}

/-- Rows are transformed by the table of the command. -/
theorem transform_eq {table : Entries Value} (h : p.transformers = .ok table) (rows : List Row) :
    p.transform rows = rows.mapM (Transformers.ofValues p.functions table).applyTo := by
  rw [← Transformers.transformRows_eq, transform, h]
  cases rows with
  | nil => rfl
  | cons row rows => rfl

/-! ## What a read command yields -/

/-- What a read command yields, for every report of the driver and every table of transformers of
which none fails on the rows that are returned. A query yields nothing when there is no row, and else
the first one. A list yields all rows in their order. A page yields them with a total, which is
remembered, or stands in the first row, or is the answer to a statement of its own; the column of the
total is removed when the total is not remembered and the engine is PostgreSQL. All rows are returned
with their columns in order, and each value transformed once where its column has a transformer. This
is what the command yields that was planned to be run so; the table is its own, which is that of its
expression, and the functions are those of the session. -/
theorem shape_of_read {t : Session} {table : Entries Value} {r : Report}
    (hroute : p.connection = .own c) (hheld : (t.connection c).released = false)
    (htable : p.transformers = .ok table) (hnames : table.keys.Nodup)
    (hreply : t.server.replies.headD .nothing = r.reply) :
    let ts := Transformers.ofValues p.functions table
    (∀ stmt, p.kind = some (.of .query) → p.statement (.of .query) true = .ok (some stmt) →
      (∀ row, r.entries.head? = some row → ts.Accepts row) →
      (r.entries = [] → (p.outcome.run.run t).1 = .ok (.row none)) ∧
      ∀ row, r.entries.head? = some row →
        ∃ row', (p.outcome.run.run t).1 = .ok (.row (some row')) ∧ ts.Shapes row row') ∧
    (∀ stmt, p.kind = some (.of .list) → p.isPaged = false →
      p.statement (.of .list) true = .ok (some stmt) → (∀ row ∈ r.entries, ts.Accepts row) →
      ∃ rows, (p.outcome.run.run t).1 = .ok (.rows rows) ∧
        List.Forall₂ ts.Shapes r.entries rows) ∧
    (∀ remembered stmt n asked, p.kind = some (.of .list) → p.isPaged = true →
      (t.cache p.cache).countFor p.query = remembered →
      p.statement (.of .list) remembered.isNone = .ok (some stmt) →
      p.CountedAs remembered r.entries (t.server.replies.tail.headD .nothing) n asked →
      (∀ row ∈ p.pageRows remembered r.entries, ts.Accepts row) →
      ∃ rows, (p.outcome.run.run t).1 = .ok (.page rows n) ∧
        List.Forall₂ ts.Shapes (p.pageRows remembered r.entries) rows ∧
        t.exchanges (p.outcome.run.run t).2 =
          p.exchange (t.connection c).raw stmt r.reply :: asked.map fun total =>
            p.exchange (t.connection c).raw total (t.server.replies.tail.headD .nothing)) ∧
    ∀ (command : Patched) (s : Session) (x : Plan), (plan command).run.run s = (.ok x, t) →
      p = x.prepared → ((executePatched command).run.run s).1 = (p.outcome.run.run t).1 ∧
        p.functions = t.functions ∧ x.filled.HasTransformers table ∧
        ∀ shared d u, (announced command).run.run s = (.ok (shared, d), u) →
          command.unread = [] → shared.unread = [] → table = shared.expression.transformers := by
  intro ts
  have hts : ts.keys.Nodup := by
    rw [show ts.keys = table.keys from Entries.keys_mapValues _ _]
    exact hnames
  have hresult : (t.server.replies.headD .nothing).result = .ok r.result := by
    rw [hreply, r.result_reply]
  refine ⟨fun stmt hkind hstmt haccepts => ?_, fun stmt hkind hpaged hstmt haccepts => ?_,
    fun remembered stmt n asked hkind hpaged hremembered hstmt hn haccepts => ?_,
    fun command s x hplan hprepared => ?_⟩
  · have hfirst : ∀ row ∈ r.entries.take 1, ts.Accepts row := fun row hrow =>
      haccepts row (by rwa [List.take_one, Option.mem_toList] at hrow)
    obtain ⟨rows, hrows, hshapes⟩ := Transformers.mapM_of_accepts hts hfirst
    rw [← transform_eq htable] at hrows
    obtain ⟨houtcome, -⟩ := exchanged_query hheld hroute hkind hstmt hresult hrows t (View.self c t)
    refine ⟨fun hempty => ?_, fun row hrow => ?_⟩
    · rw [hempty] at hshapes
      obtain rfl := List.forall₂_nil_left_iff.mp hshapes
      exact houtcome
    · rw [List.take_one, hrow] at hshapes
      obtain ⟨row', rest, hrow', -, rfl⟩ := List.forall₂_cons_left_iff.mp hshapes
      exact ⟨row', houtcome, hrow'⟩
  · obtain ⟨rows, hrows, hshapes⟩ := Transformers.mapM_of_accepts hts haccepts
    rw [← transform_eq htable] at hrows
    obtain ⟨houtcome, -⟩ := exchanged_list hheld hroute hkind hpaged hstmt hresult hrows t
      (View.self c t)
    exact ⟨rows, houtcome, hshapes⟩
  · obtain ⟨rows, hrows, hshapes⟩ := Transformers.mapM_of_accepts hts haccepts
    rw [← transform_eq htable] at hrows
    have hpage : p.outcome = p.page := by
      unfold outcome
      rw [hkind]
      exact if_pos hpaged
    rw [hpage]
    obtain ⟨houtcome, hexchanged⟩ := exchanged_page hheld hroute hremembered hstmt hreply hn hrows
    exact ⟨rows, houtcome, hshapes, hexchanged.exchanges_eq⟩
  · obtain ⟨⟨shared, d⟩, u, hannounced, hplanned⟩ := ok_of_run_bind hplan
    rw [hprepared, x.transformers_eq_ok_iff] at htable
    rw [hprepared, x.prepared_functions]
    refine ⟨result_of_plan hplan, functions_of_planned hplanned, htable, ?_⟩
    intro shared' d' u' hannounced' hcommand hshared
    cases hannounced.symm.trans hannounced'
    exact Except.ok.inj (((x.transformers_eq_ok_iff _).mpr htable).symm.trans
      ((x.transformers_eq_ok_iff _).mpr (transformers_of_planned hplanned hcommand hshared)))

end Prepared

/-! ## People in capitals -/

/-- The first page of the people, whose names are written in capitals. -/
def Patched.capitalPeople : Patched :=
  .ofCommand
    { operation := .list
      target := .given
        { Expression.ofSource
            ⟨"Person psn", ⟨none, "Person", some "psn"⟩, TableRef.ofWords?_person⟩ with
          transformers := [("name", .transformer ⟨"upper"⟩)] }
      data := none
      query := []
      page := some ⟨1, Page.defaultSize, Nat.one_pos, Page.defaultSize_pos⟩
      fields := none
      connection := .null
      refresh := false
      schema := some .people
      debug := false }

/-- Two people with their total, as the driver reports them. -/
def Report.people : Report where
  columns := ["id", "name", Statement.totalColumn]
  rows := [[.int 1, .text "Ann", .int 2], [.int 2, .text "Bob", .int 2]]
  fits := by decide
  rowCount := some 2
  lastInsertId := .null

/-- A text in capitals. -/
def upperText : Value → Except Failure Value
  | .text s => .ok (.text (Text.upper s))
  | v => .ok v

/-- A database that reports the two people, and a function that writes in capitals. -/
def Session.embeddingTotals : Session :=
  { empty .empty with
    functions := [("upper", upperText)]
    databases := [.fresh (some "shop") (.standard .postgres) .factory ⟨none, none, 1, .null, none⟩]
    registry := ⟨[("shop", ⟨0⟩)], some "shop"⟩
    server := ⟨0, [], [Report.people.reply]⟩ }

namespace Prepared

/-- The names come in capitals, and the total has left the rows. -/
theorem shape_of_read_capitals :
    ∃ x t rows ann bob, (plan .capitalPeople).run.run embeddingTotals = (.ok x, t) ∧
      (x.prepared.outcome.run.run t).1 = .ok (.page rows 2) ∧ rows = [ann, bob] ∧
      ann.keys = ["id", "name"] ∧ ann.get? "name" = some (.text "ANN") ∧
      bob.keys = ["id", "name"] ∧ bob.get? "name" = some (.text "BOB") ∧
      (t.exchanges (x.prepared.outcome.run.run t).2).length = 1 := by
  let table : Entries Value := [("name", .transformer ⟨"upper"⟩)]
  obtain ⟨x, t, stmt, hplan, hkind, hroute, hheld, hstmt, htable, hfunctions, hpaged, hcached,
      hreply, hshown, hengine⟩ :
      ∃ x t stmt, (plan .capitalPeople).run.run embeddingTotals = (.ok x, t) ∧
        x.prepared.kind = some (.of .list) ∧ x.prepared.connection = .own ⟨0⟩ ∧
        (t.connection ⟨0⟩).released = false ∧
        x.prepared.statement (.of .list) true = .ok (some stmt) ∧
        x.prepared.transformers = .ok table ∧ x.prepared.functions = [("upper", upperText)] ∧
        x.prepared.isPaged = true ∧
        (t.cache x.prepared.cache).countFor x.prepared.query = none ∧
        t.server.replies.headD .nothing = Report.people.reply ∧
        x.prepared.pageRows none Report.people.entries =
          [[("id", .int 1), ("name", .text "Ann")], [("id", .int 2), ("name", .text "Bob")]] ∧
        x.prepared.dialect.engine = .postgres :=
    ⟨_, _, _, rfl, rfl, rfl, rfl, rfl, rfl, rfl, rfl, rfl, rfl, rfl, rfl⟩
  have hnames : table.keys.Nodup := List.pairwise_singleton _ "name"
  let ts : Transformers := Transformers.ofValues [("upper", upperText)] table
  have hfirst : Report.people.entries.head? =
      some [("id", .int 1), ("name", .text "Ann"), (Statement.totalColumn, .int 2)] := rfl
  have hcounted : x.prepared.CountedAs none Report.people.entries
      (t.server.replies.tail.headD .nothing) 2 [] :=
    .embedded rfl hengine hfirst (v := .int 2) rfl rfl
  -- a name is put in capitals; the table has no other transformer
  have haccepts : ∀ (i : Int) (name : String),
      ts.Accepts [("id", .int i), ("name", .text name)] := by
    intro i name column f v hf hv
    obtain rfl : column = "name" := by
      by_contra hne
      cases hf.symm.trans (if_neg (Ne.symm hne))
    cases hf
    cases hv
    exact ⟨_, rfl⟩
  obtain ⟨-, -, hpage, -⟩ := shape_of_read hroute hheld htable hnames hreply
  rw [hfunctions] at hpage
  obtain ⟨rows, houtcome, hshapes, hexchanges⟩ := hpage none stmt 2 [] hkind hpaged hcached hstmt
    hcounted (by
      rw [hshown]
      exact List.forall_mem_cons.mpr ⟨haccepts 1 "Ann", List.forall_mem_singleton.mpr
        (haccepts 2 "Bob")⟩)
  rw [hshown] at hshapes
  obtain ⟨ann, rest, hann, hrest, rfl⟩ := List.forall₂_cons_left_iff.mp hshapes
  obtain ⟨bob, rest, hbob, hnone, rfl⟩ := List.forall₂_cons_left_iff.mp hrest
  obtain rfl := List.forall₂_nil_left_iff.mp hnone
  obtain ⟨v, hv, hname⟩ := hann.transformed "name" _ (.text "Ann") rfl rfl
  obtain ⟨w, hw, hname'⟩ := hbob.transformed "name" _ (.text "Bob") rfl rfl
  cases hv
  cases hw
  refine ⟨x, t, _, ann, bob, hplan, houtcome, rfl, hann.keys, hname, hbob.keys, hname', ?_⟩
  rw [hexchanges]
  rfl

end Prepared

end TableOps
