import TableOps.Proofs.Session.InsertedKey

/-!
# What a page asks for

A page is listed by one statement, which carries the total in a column where the engine counts over
a window and the total is wanted. A total that is wanted and not found there is asked for by a
statement of its own.

* `ConnectionId.held_of_queryRaw` — a statement that succeeds is run on a connection that is held.
* `Prepared.Asked` — a statement of a command is exchanged for a result.
* `Prepared.exchange_of_run`, `Prepared.exchange_of_countRows` — what is exchanged by its runs.
* `Plan.Listed` — a page is asked for, with the total in a column or without.
* `Plan.Tallied` — the ways in which a total is computed; `Plan.tallied_of_tally`, there are no
  others.
-/

namespace TableOps

open Session Statement

/-! ## Statements that succeed -/

namespace ConnectionId

variable {c : ConnectionId} {x : Connection} {events : List Event} {replies : List Reply}

/-- A released connection refuses statements, whether or not there is a connection of its number. -/
theorem view_queryRaw_released (hreleased : x.released = true) (statement : Value)
    (values : List Value) :
    Leads (View c x events replies) (c.queryRaw statement values).run fun r _ =>
      ∃ f, r = .error f := by
  have hexecute : Leads (View c x events replies) (c.execute statement values).run fun r _ =>
      ∃ f, r = .error f := by
    unfold execute
    refine View.run_read_bind ?_
    rw [hreleased]
    exact fun _ _ => ⟨_, rfl⟩
  rw [queryRaw_eq_onFailure]
  refine View.run_inTransaction_bind ?_
  split
  · exact hexecute
  · refine .run_bind (M := fun _ _ => False) ?_ fun _ _ hfalse => hfalse.elim
    refine .run_onFailure hexecute (fun _ _ h => ?_) fun f => fun s _ => ?_
    · obtain ⟨f, hf⟩ := h
      cases hf
    · exact ⟨fun _ hok => (by cases hok), fun e _ => ⟨e, rfl⟩⟩

theorem held_of_queryRaw {statement : Value} {values : List Value} {s s' : Session}
    {result : Result} (h : (c.queryRaw statement values).run.run s = (.ok result, s')) :
    (s.connection c).released = false := by
  by_contra hreleased
  have hrefused := view_queryRaw_released (Bool.of_not_eq_false hreleased) statement values s
    (View.self c s)
  obtain ⟨f, hf⟩ : ∃ f, ((c.queryRaw statement values).run.run s).1 = .error f := hrefused
  rw [h] at hf
  cases hf

end ConnectionId

/-! ## One statement of a command -/

/-- The first value of the first row is the total. -/
def Result.Counts (r : Result) (n : Int) : Prop :=
  ∃ name v row rows, r.rows = ((name, v) :: row) :: rows ∧ v.toWhole = .ok n

namespace Prepared

variable {p : Prepared} {s s' : Session}

/-- A statement of the command is exchanged for a result. -/
def Asked (p : Prepared) (kind : StatementKind) (withTotal : Bool) (result : Result)
    (e : Exchange) : Prop :=
  ∃ stmt, p.statement kind withTotal = .ok (some stmt) ∧
    e.statement = .text (p.dialect.render stmt) ∧ e.values = stmt.values ∧
    e.reply.result = .ok result

/-- A statement that is composed is the one of its kind. -/
theorem statement_of_compose {kind : StatementKind} {withTotal : Bool}
    {composed : String × List Value}
    (h : (p.compose kind withTotal).run.run s = (.ok composed, s')) :
    ∃ stmt, p.statement kind withTotal = .ok (some stmt) ∧
      composed = (p.dialect.render stmt, stmt.values) ∧ s.Proceeds s' ∧ s.exchanges s' = [] := by
  cases hstmt : p.statement kind withTotal with
  | error f =>
    simp only [compose, hstmt] at h
    cases h
  | ok stmt? =>
    cases stmt? with
    | none =>
      simp only [compose, hstmt] at h
      cases h
    | some stmt =>
      obtain ⟨hcomposed, hview⟩ := view_compose hstmt s (View.self ⟨0⟩ s)
      change ((p.compose kind withTotal).run.run s).1 = _ at hcomposed
      change View _ _ _ _ ((p.compose kind withTotal).run.run s).2 at hview
      rw [h] at hcomposed hview
      exact ⟨stmt, rfl, Except.ok.inj hcomposed, proceeds_of_eq hview.events hview.replies,
        exchanges_of_eq hview.events⟩

/-- A statement that succeeds on a route is exchanged for its result. -/
theorem exchange_of_query {r : Route} {text : String} {values : List Value} {result : Result}
    (h : (r.query text values).run.run s = (.ok result, s')) :
    s.Proceeds s' ∧ ∃ e, s.exchanges s' = [e] ∧ e.statement = .text text ∧ e.values = values ∧
      e.reply.result = .ok result := by
  unfold Route.query at h
  split at h
  · rename_i c
    have hheld := ConnectionId.held_of_queryRaw h
    obtain ⟨hresult, added, hadded, hview⟩ :=
      ConnectionId.view_exchange hheld (.text text) values s (View.self c s)
    have hrun : (c.queryRaw (.text text) values).run.run s = (.ok result, s') := h
    change ((c.queryRaw (.text text) values).run.run s).1 = _ at hresult
    change View c _ _ _ ((c.queryRaw (.text text) values).run.run s).2 at hview
    rw [hrun] at hresult hview
    refine ⟨(View.self c s).proceeds hview,
      ⟨(s.connection c).raw, .text text, values, s.server.replies.headD .nothing⟩, ?_, rfl, rfl,
      hresult.symm⟩
    rw [(View.self c s).exchanges_eq hview, hadded]
  · cases h

/-- A statement of the command that succeeds is exchanged for its result. -/
theorem exchange_of_run {kind : StatementKind} {withTotal : Bool} {result : Result}
    (h : (p.run kind withTotal).run.run s = (.ok result, s')) :
    s.Proceeds s' ∧ ∃ e, s.exchanges s' = [e] ∧ p.Asked kind withTotal result e := by
  obtain ⟨composed, t, hcompose, h⟩ := ok_of_run_bind h
  obtain ⟨stmt, hstmt, rfl, hproceeds, hnone⟩ := statement_of_compose hcompose
  obtain ⟨_, u, hupdate, h⟩ := ok_of_run_bind h
  -- remembering the text asks for nothing
  have hserver : u.server = t.server := (congrArg (fun r => r.2.server) hupdate).symm
  have hquiet : t.Proceeds u := proceeds_of_eq (by rw [hserver]) (by rw [hserver])
  have hnone' : t.exchanges u = [] := exchanges_of_eq (by rw [hserver])
  obtain ⟨hproceeds', e, hexchange, hstatement, hvalues, hreply⟩ := exchange_of_query h
  have hrest := chained_proceeds.trans hquiet hproceeds'
  refine ⟨chained_proceeds.trans hproceeds hrest, e, ?_, stmt, hstmt, hstatement, hvalues, hreply⟩
  rw [hproceeds.exchanges_trans hrest, hnone, hquiet.exchanges_trans hproceeds', hnone', hexchange]
  rfl

/-- The rows that are counted by a statement of their own are the answer to it. -/
theorem exchange_of_countRows {n : Int} (h : p.countRows.run.run s = (.ok n, s')) :
    s.Proceeds s' ∧ ∃ e result, s.exchanges s' = [e] ∧ p.Asked .total true result e ∧
      result.Counts n := by
  obtain ⟨composed, t, hcompose, h⟩ := ok_of_run_bind h
  obtain ⟨stmt, hstmt, rfl, hproceeds, hnone⟩ := statement_of_compose hcompose
  obtain ⟨result, u, hquery, h⟩ := ok_of_run_bind h
  obtain ⟨hproceeds', e, hexchange, hstatement, hvalues, hreply⟩ := exchange_of_query hquery
  have hexchanges : s.exchanges u = [e] := by
    rw [hproceeds.exchanges_trans hproceeds', hnone, hexchange]
    rfl
  split at h
  · cases h
  · cases h
  · rename_i name v row rows hrows
    have hwhole : v.toWhole = .ok n := congrArg Prod.fst h
    cases (congrArg Prod.snd h : u = s')
    exact ⟨chained_proceeds.trans hproceeds hproceeds', e, result, hexchanges,
      ⟨stmt, hstmt, hstatement, hvalues, hreply⟩, name, v, row, rows, hrows, hwhole⟩

end Prepared

/-! ## The statement of a page -/

namespace Plan

variable {x : Plan} {s s' : Session}

theorem prepared_dialect (x : Plan) : x.prepared.dialect = x.dialect := by
  obtain ⟨filled, cache, dialect, route⟩ := x
  cases filled <;> rfl

/-- The statement selects the columns of a list, and the column of its total only when that is
wanted. -/
def Selects (x : Plan) (withTotal : Bool) (stmt : Statement) : Prop :=
  ∃ columns rest, stmt =
    [.text "SELECT "] ++ commaSeparated (items x.dialect.engine columns withTotal) ++ rest

theorem selects_selection (columns : List String) (withTotal : Bool)
    (source restriction extra cut : Statement) :
    x.Selects withTotal
      (selection x.dialect.engine columns withTotal source restriction extra ++ cut) :=
  ⟨columns, [.text " "] ++ source ++ restriction ++ extra ++ cut, by
    simp only [selection, List.append_assoc]⟩

theorem selects_of_statement (hpage : x.IsPage) {withTotal : Bool} {stmt : Statement}
    (h : x.prepared.statement (.of .list) withTotal = .ok (some stmt)) :
    x.Selects withTotal stmt := by
  obtain ⟨filled, cache, dialect, route⟩ := x
  cases filled with
  | expression c e schema =>
    obtain ⟨p, hp⟩ : ∃ p, c.page = some p := Option.isSome_iff_exists.mp hpage.2
    have hcompose : compose dialect (.of .list) withTotal { c.request e with schema := schema } =
        .ok (some stmt) := h
    unfold compose Command.request at hcompose
    rw [hp] at hcompose
    obtain ⟨selected?, hselected, hcompose⟩ := ok_of_bind hcompose
    cases selected? with
    | none => cases hcompose
    | some selected =>
      obtain ⟨cut, -, hcompose⟩ := ok_of_bind hcompose
      cases hcompose
      obtain ⟨-, source, restriction, extra, -, -, -, rfl⟩ := selection_of_select? hselected
      exact selects_selection _ _ _ _ _ _
  | sketch sketch =>
    have hpaged : sketch.command.isPaged = true := hpage.2
    have hcompose : sketch.compose dialect (.of .list) withTotal = .ok (some stmt) := h
    unfold Sketch.compose at hcompose
    rw [hpaged, Bool.true_and] at hcompose
    obtain ⟨selected?, hselected, hcompose⟩ := ok_of_bind hcompose
    cases selected? with
    | none => cases hcompose
    | some selected =>
      obtain ⟨cut, -, hcompose⟩ := ok_of_bind hcompose
      cases hcompose
      unfold Sketch.select? at hselected
      obtain ⟨columns, -, hselected⟩ := ok_of_bind hselected
      split at hselected
      · cases hselected
      · obtain ⟨source, -, hselected⟩ := ok_of_bind hselected
        obtain ⟨restriction, -, hselected⟩ := ok_of_bind hselected
        obtain ⟨extra, -, hselected⟩ := ok_of_bind hselected
        cases hselected
        exact selects_selection _ _ _ _ _ _

/-- A page is asked for, with its total in a column or without. -/
def Listed (x : Plan) (withTotal : Bool) (result : Result) (e : Exchange) : Prop :=
  ∃ stmt, x.Selects withTotal stmt ∧ e.statement = .text (x.dialect.render stmt) ∧
    e.values = stmt.values ∧ e.reply.result = .ok result

theorem listed_of_asked (hpage : x.IsPage) {withTotal : Bool} {result : Result} {e : Exchange}
    (h : x.prepared.Asked (.of .list) withTotal result e) : x.Listed withTotal result e := by
  obtain ⟨stmt, hstmt, hstatement, hvalues, hreply⟩ := h
  rw [prepared_dialect] at hstatement
  exact ⟨stmt, selects_of_statement hpage hstmt, hstatement, hvalues, hreply⟩

/-- The total of a page is computed: it stands in a column of the rows, or is asked for by a
statement of its own. -/
inductive Tallied (x : Plan) (n : Int) : List Exchange → Prop where
  | column {e : Exchange} {result : Result} {rows : List Row} (hlisted : x.Listed true result e)
      (htotal : x.dialect.engine.stripTotal result.rows = .ok (rows, some n)) : Tallied x n [e]
  | statement {e e' : Exchange} {result counted : Result} {rows : List Row} {total : Statement}
      (hlisted : x.Listed true result e)
      (hnone : x.dialect.engine.stripTotal result.rows = .ok (rows, none))
      (htotal : x.total = .ok (some total))
      (hstatement : e'.statement = .text (x.dialect.render total))
      (hvalues : e'.values = total.values) (hreply : e'.reply.result = .ok counted)
      (hcounts : counted.Counts n) : Tallied x n [e, e']

/-- A total that is found out is computed in one of the two ways. -/
theorem tallied_of_tally (hpage : x.IsPage) {rows : List Row} {n : Int}
    (h : x.prepared.tally.run.run s = (.ok (rows, n), s')) :
    s.Proceeds s' ∧ x.Tallied n (s.exchanges s') := by
  obtain ⟨result, t, hrun, h⟩ := ok_of_run_bind h
  obtain ⟨hproceeds, e, hexchange, hasked⟩ := Prepared.exchange_of_run hrun
  have hlisted := listed_of_asked hpage hasked
  obtain ⟨⟨shown, embedded⟩, u, hstrip, h⟩ := ok_of_run_bind h
  have hstrip' : x.dialect.engine.stripTotal result.rows = .ok (shown, embedded) := by
    rw [← prepared_dialect]
    exact congrArg Prod.fst hstrip
  cases (congrArg Prod.snd hstrip : t = u)
  cases embedded with
  | some m =>
    cases h
    rw [hexchange]
    exact ⟨hproceeds, .column hlisted hstrip'⟩
  | none =>
    obtain ⟨m, u, hcount, h⟩ := ok_of_run_bind h
    cases h
    obtain ⟨hproceeds', e', counted, hexchange', ⟨total, htotal, hstatement, hvalues, hreply⟩,
      hcounts⟩ := Prepared.exchange_of_countRows hcount
    rw [prepared_dialect] at hstatement
    refine ⟨chained_proceeds.trans hproceeds hproceeds', ?_⟩
    rw [hproceeds.exchanges_trans hproceeds', hexchange, hexchange']
    exact .statement hlisted hstrip' htotal hstatement hvalues hreply hcounts

end Plan

end TableOps
