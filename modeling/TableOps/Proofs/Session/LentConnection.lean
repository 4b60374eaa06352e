import TableOps.Proofs.Session.KeptSchemas
import TableOps.Proofs.Session.Released

/-!
# Connections that are lent

A command takes a connection from a pool for as long as it runs, unless it comes with one. It is
followed here which driver connection that is, what is asked of it, and where it is afterwards.

* `Session.Untouched` — no connection, no pool and nothing at the driver has changed.
* `ConnectionId.Serves` — a connection was asked for statements, and nothing else has changed.
* `DatabaseId.Supplies`, `DatabaseId.TakesBack` — a driver connection leaves a pool, and comes back.
* `DatabaseId.Lends` — one connection is taken, serves, and is given back;
  `DatabaseId.lends_of_use`, a call on such a connection lends it.
* `DatabaseId.Loses` — one connection is taken, serves, and is not given back.
-/

namespace TableOps

open Session

variable {s t u : Session}

/-! ## Nothing happens -/

/-- No connection and no pool has changed, and nothing was asked of the driver. -/
structure Session.Untouched (s s' : Session) : Prop where
  connections : s'.connections = s.connections
  pools : ∀ d : DatabaseId, (s'.database d).pool = (s.database d).pool
  events : s'.server.events = s.server.events

namespace Session

theorem untouched_of_eq (hconnections : t.connections = s.connections)
    (hdatabases : t.databases = s.databases) (hevents : t.server.events = s.server.events) :
    s.Untouched t :=
  ⟨hconnections, fun d => by rw [database, database, hdatabases], hevents⟩

theorem chained_untouched : Chained Untouched where
  refl _ := untouched_of_eq rfl rfl rfl
  trans hst htu := ⟨htu.connections.trans hst.connections,
    fun d => (htu.pools d).trans (hst.pools d), htu.events.trans hst.events⟩

theorem untouched_note (level : LogLevel) (source : LogSource) (text : String) :
    Within Untouched (note level source text) :=
  .note chained_untouched (fun _ _ => untouched_of_eq rfl rfl rfl) level source text

theorem untouched_updateCache (id : CacheId) (f : CountCache Int → CountCache Int) :
    Within Untouched (updateCache id f) :=
  fun _ => untouched_of_eq rfl rfl rfl

theorem untouched_schemas (d : DatabaseId) (f : Entries TableSchema → Entries TableSchema) :
    Within Untouched (updateDatabase d fun x => { x with schemas := f x.schemas }) := by
  refine fun s => ⟨rfl, fun d' => ?_, rfl⟩
  rw [database_updateDatabase]
  split <;> rfl

/-- Finding the expression and the database of a command out touches nothing. -/
theorem untouched_announced (p : Patched) : Within Untouched (announced p).run := by
  have hC := chained_untouched
  unfold announced
  refine .run_bind hC (.run_ofExcept hC _) fun target => ?_
  refine .run_bind hC (.run_resolve hC (fun _ => untouched_of_eq rfl rfl rfl) target) fun found => ?_
  refine .run_bind hC ?_ fun _ => .run_pure hC _
  exact .run_announce hC untouched_note (untouched_updateCache _) p _ _

/-- A value that is no connection runs no statement. -/
theorem untouched_unusable (present : Bool) (cache : CacheId) :
    PreparedEffects Untouched (fun _ => True) (.unusable present) cache where
  toChained := chained_untouched
  note := untouched_note
  query _ _ := .run_throw chained_untouched _
  updateCache := untouched_updateCache cache

end Session

/-! ## Statements are served -/

/-- A connection is asked for statements, and outside a transaction to end them. -/
def Event.Serves (x : Connection) (e : Event) : Prop :=
  (∃ statement values, e = .executed x.raw statement values) ∨ x.level = 0 ∧ e.Ends x.raw

/-- A connection was asked for statements and, outside a transaction, to end them. Nothing else was
asked of the driver, and all connections and pools are as before. -/
structure ConnectionId.Serves (c : ConnectionId) (s s' : Session) : Prop where
  connections : s'.connections = s.connections
  pools : ∀ d : DatabaseId, (s'.database d).pool = (s.database d).pool
  events : ∃ asked, s'.server.events = s.server.events ++ asked ∧
    ∀ e ∈ asked, e.Serves (s.connection c)

namespace ConnectionId

variable {c : ConnectionId}

theorem serves_of_untouched (h : s.Untouched t) : c.Serves s t :=
  ⟨h.connections, h.pools, [], by rw [h.events, List.append_nil], fun _ he => nomatch he⟩

theorem Serves.connection_eq (h : c.Serves s t) : t.connection c = s.connection c := by
  rw [connection, connection, h.connections]

theorem chained_serves : Chained c.Serves where
  refl s := serves_of_untouched (chained_untouched.refl s)
  trans := by
    intro s t u hst htu
    obtain ⟨asked, ht, hasked⟩ := hst.events
    obtain ⟨more, hu, hmore⟩ := htu.events
    rw [hst.connection_eq] at hmore
    refine ⟨htu.connections.trans hst.connections,
      fun d => (htu.pools d).trans (hst.pools d), asked ++ more, ?_, ?_⟩
    · rw [hu, ht, List.append_assoc]
    · exact List.forall_mem_append.mpr ⟨hasked, hmore⟩

/-- Inside a transaction only statements are asked for. -/
theorem Serves.executed (h : c.Serves s t) (hlevel : 0 < (s.connection c).level) :
    ∃ asked, t.server.events = s.server.events ++ asked ∧ ∀ e ∈ asked,
      ∃ statement values, e = .executed (s.connection c).raw statement values := by
  obtain ⟨asked, hevents, hasked⟩ := h.events
  refine ⟨asked, hevents, fun e he => (hasked e he).resolve_right fun hends => ?_⟩
  rw [hends.1] at hlevel
  exact Nat.lt_irrefl 0 hlevel

/-- What touches nothing can be done while statements are served. -/
theorem leads_serves {α : Type} {x : StateM Session α} (h : Within Untouched x) :
    Leads (c.Serves s) x fun _ => c.Serves s :=
  fun t ht => chained_serves.trans ht (serves_of_untouched (h t))

theorem leads_serves_emit {e : Event} (he : e.Serves (s.connection c)) :
    Leads (c.Serves s) (emit e) fun _ => c.Serves s := by
  intro t ht
  refine chained_serves.trans ht ⟨rfl, fun _ => rfl, [e], rfl, ?_⟩
  rw [ht.connection_eq]
  exact List.forall_mem_singleton.mpr he

theorem leads_serves_execute (statement : Value) (values : List Value) :
    Leads (c.Serves s) (c.execute statement values).run fun _ => c.Serves s := by
  unfold execute
  refine run_read_bind_at (fun _ ht => ht.connection_eq) ?_
  dsimp only
  cases (s.connection c).released with
  | true => exact fun _ ht => ht
  | false =>
    refine .run_liftM_bind (leads_serves (untouched_note _ _ _)) fun _ => ?_
    refine .run_liftM_bind (leads_serves_emit (.inl ⟨statement, values, rfl⟩)) fun _ => ?_
    have hreply : Within Untouched nextReply :=
      .nextReply chained_untouched fun _ _ => untouched_of_eq rfl rfl rfl
    refine .run_liftM_bind (leads_serves hreply) fun reply => ?_
    cases reply with
    | refused reason => exact fun _ ht => ht
    | done columns rows rowCount lastInsertId => exact fun _ ht => ht

/-- A statement is served, whether it fails or not. -/
theorem serves_query (statement : String) (values : List Value) :
    Within c.Serves (c.query statement values).run := by
  intro s
  have hexecute : Leads (c.Serves s) (c.execute (.text statement) values).run fun _ => c.Serves s :=
    leads_serves_execute _ _
  have hquery : Leads (c.Serves s) (c.query statement values).run fun _ => c.Serves s := by
    rw [query, queryRaw_eq_onFailure]
    refine run_inTransaction_bind_at (fun _ ht => ht.connection_eq) ?_
    split
    · exact hexecute
    · rename_i houter
      have hlevel : (s.connection c).level = 0 := by simpa using houter
      -- it is rolled back when it fails, and else committed
      have hrollback : Leads (c.Serves s) c.rollbackHeld fun _ => c.Serves s := by
        unfold rollbackHeld
        refine read_bind_at (fun _ ht => ht.connection_eq) ?_
        cases (s.connection c).released with
        | true => exact fun _ ht => ht
        | false => exact leads_serves_emit (.inr ⟨hlevel, .inr rfl⟩)
      refine .run_bind (M := fun _ => c.Serves s) ?_ fun r => ?_
      · refine .run_onFailure hexecute ?_ fun f => ?_
        · exact fun _ _ ht => ⟨fun _ _ => ht, fun _ _ => ht⟩
        · exact fun t ht => ⟨fun _ _ => hrollback t ht, fun _ _ => hrollback t ht⟩
      · refine run_read_bind_at (fun _ ht => ht.connection_eq) ?_
        exact .run_liftM_bind (leads_serves_emit (.inr ⟨hlevel, .inl rfl⟩)) fun _ _ ht => ht
  exact hquery s (chained_serves.refl s)

theorem serves_describe (c : ConnectionId) (d : Dialect) (table : Value) :
    Within c.Serves (d.describe c table).run :=
  .run_describe chained_serves (fun values _ => serves_query _ values) d table

/-- The schema of a command may be looked up on its connection. -/
theorem serves_schemaEffects (c : ConnectionId) : SchemaEffects c.Serves c.Serves (.own c) where
  toAbsorbs := chained_serves.absorbs
  describe _ table := .run_bind chained_serves (.run_liftM fun s => chained_serves.refl s)
    fun d => c.serves_describe d.dialect table
  schemas id f := fun s => serves_of_untouched (untouched_schemas id f s)

/-- A command runs its statements on its connection. -/
theorem serves_preparedEffects (c : ConnectionId) (cache : CacheId) :
    PreparedEffects c.Serves (fun _ => True) (.own c) cache where
  toChained := chained_serves
  note level source text := fun s => serves_of_untouched (untouched_note level source text s)
  query values _ := serves_query _ values
  updateCache f := fun s => serves_of_untouched (untouched_updateCache cache f s)

end ConnectionId

/-! ## A driver connection leaves its pool -/

/-- A change of a database that is there is found there, and nowhere else. -/
theorem Session.database_update {d : DatabaseId} (h : s.database d ≠ noDatabase)
    (f : Database → Database) (d' : DatabaseId) :
    ((updateDatabase d f).run s).2.database d' =
      if d' = d then f (s.database d') else s.database d' := by
  have hthere : d.index < s.databases.length :=
    (List.getElem?_eq_some_iff.mp ((database_cases s d).resolve_right h)).1
  rw [database_updateDatabase]
  simp only [hthere, and_true]

/-- A driver connection comes from a database: the next idle one, or a new one where none is idle.
The connections are those before and some that are added. -/
structure DatabaseId.Supplies (d : DatabaseId) (raw : RawId) (added : List Connection)
    (s s' : Session) : Prop where
  connections : s'.connections = s.connections ++ added
  others : ∀ d', d' ≠ d → (s'.database d').pool = (s.database d').pool
  source : (s.database d).idle = raw :: (s'.database d).idle ∧
      s'.server.events = s.server.events ∨
    (s.database d).idle = [] ∧ (s'.database d).idle = [] ∧
      ∃ arguments, s'.server.events = s.server.events ++ [.opened raw arguments]

namespace DatabaseId

variable {d : DatabaseId} {raw : RawId} {added : List Connection}

/-- It does not matter what happened before, when that has touched nothing. -/
theorem Supplies.of_untouched (hst : s.Untouched t) (h : d.Supplies raw added t u) :
    d.Supplies raw added s u := by
  have hidle : (t.database d).idle = (s.database d).idle :=
    congrArg (fun pool => pool.2.1) (hst.pools d)
  refine ⟨by rw [h.connections, hst.connections],
    fun d' hd' => (h.others d' hd').trans (hst.pools d'), ?_⟩
  rw [← hidle, ← hst.events]
  exact h.source

/-- The driver connection that a call yields was supplied; a call that fails has touched nothing. -/
def Supplied (d : DatabaseId) (s : Session) (r : Except Failure RawId) (t : Session) : Prop :=
  (∀ raw, r = .ok raw → d.Supplies raw [] s t) ∧ ∀ f, r = .error f → s.Untouched t

theorem supplied_openRaw (h : (s.database d).idle = []) :
    Leads s.Untouched d.openRaw.run (d.Supplied s) := by
  have hopen : ∀ arguments,
      Leads s.Untouched (SessionM.lift (Session.openRaw arguments)).run (d.Supplied s) := by
    intro arguments t ht
    refine ⟨fun raw hraw => ?_, fun f hf => nomatch hf⟩
    cases hraw
    have hidle : (t.database d).idle = [] :=
      (congrArg (fun pool => pool.2.1) (ht.pools d)).trans h
    exact .of_untouched ht ⟨(List.append_nil _).symm, fun _ _ => rfl, .inr ⟨hidle, hidle, _, rfl⟩⟩
  have hfailed : ∀ f, ∀ t, s.Untouched t → d.Supplied s (.error f) t :=
    fun f t ht => ⟨fun _ hraw => (nomatch hraw), fun _ _ => ht⟩
  unfold openRaw
  refine leads_read_bind fun t ht => ?_
  refine Leads.run_liftM_bind (M := fun _ => s.Untouched) (Q := d.Supplied s) ?_ (fun _ => ?_) t ht
  · exact fun u hu => chained_untouched.trans hu (untouched_note _ _ _ u)
  · cases (t.database d).origin with
    | factory => exact hopen none
    | url text =>
      refine .run_bind (M := fun _ => s.Untouched) ?_ fun l => hopen _
      exact fun u hu => ⟨fun _ _ => hu, fun f _ => hfailed f u hu⟩

theorem supplied_takeRaw (d : DatabaseId) (s : Session) :
    d.Supplied s (d.takeRaw.run.run s).1 (d.takeRaw.run.run s).2 := by
  have htake : Leads (· = s) d.takeRaw.run (d.Supplied s) := by
    unfold takeRaw
    refine leads_read_bind ?_
    rintro t rfl
    cases hidle : (t.database d).idle with
    | nil => exact supplied_openRaw hidle t (chained_untouched.refl t)
    | cons raw rest =>
      refine ⟨fun raw' hraw => ?_, fun f hf => nomatch hf⟩
      cases hraw
      have hdatabase := database_update (s := t) (d := d)
        (fun hnone => by rw [hnone] at hidle; cases hidle) fun x => { x with idle := rest }
      refine ⟨(List.append_nil _).symm, fun d' hd' => ?_, .inl ⟨?_, rfl⟩⟩
      · exact congrArg Database.pool ((hdatabase d').trans (if_neg hd'))
      · have hself := (hdatabase d).trans (if_pos rfl)
        exact hidle.trans (congrArg (fun x => raw :: x.idle) hself).symm
  exact htake s rfl

/-- A connection that is handed out is a new one, with a driver connection that was supplied; if
none is handed out, nothing is touched. -/
theorem supplies_connect (d : DatabaseId) (s : Session) :
    (∀ c, (d.connect.run.run s).1 = .ok c → c = ⟨s.connections.length⟩ ∧
        ∃ raw, d.Supplies raw [⟨raw, some d, 0, false⟩] s (d.connect.run.run s).2) ∧
      ∀ f, (d.connect.run.run s).1 = .error f → s.Untouched (d.connect.run.run s).2 := by
  have htaken := supplied_takeRaw d s
  have hrun : d.connect.run.run s = (if (s.database d).closed then
      throw (.configuration (.closedDown (s.database d).name))
      else do SessionM.lift (addConnection ⟨← d.takeRaw, some d, 0, false⟩) :
        SessionM ConnectionId).run.run s := by
    show (if (s.database d).closed then _ else _ : SessionM ConnectionId).run.run s = _
    split <;> rfl
  rw [hrun]
  split
  · exact ⟨fun _ hc => (nomatch hc), fun _ _ => chained_untouched.refl s⟩
  · rw [run_bind]
    cases htake : d.takeRaw.run.run s with
    | mk r t =>
      rw [htake] at htaken
      cases r with
      | error f => exact ⟨fun _ hc => (nomatch hc), fun _ _ => htaken.2 f rfl⟩
      | ok raw =>
        have hraw := htaken.1 raw rfl
        have hconnections : t.connections = s.connections :=
          hraw.connections.trans (List.append_nil _)
        refine ⟨fun c hc => ⟨?_, raw, ?_, hraw.others, hraw.source⟩, fun _ hf => nomatch hf⟩
        · rw [← hconnections]
          exact (Except.ok.inj hc).symm
        · exact congrArg (· ++ _) hconnections

end DatabaseId

/-! ## It comes back -/

/-- A driver connection comes back to a database once: it is idle there, or it was closed. -/
structure DatabaseId.TakesBack (d : DatabaseId) (raw : RawId) (s s' : Session) : Prop where
  others : ∀ d', d' ≠ d → (s'.database d').pool = (s.database d').pool
  once : (s'.database d).idle = raw :: (s.database d).idle ∧
      s'.server.events = s.server.events ∨
    (s'.database d).idle = (s.database d).idle ∧
      s'.server.events = s.server.events ++ [.closed raw]

namespace DatabaseId

variable {d : DatabaseId} {raw : RawId}

theorem takesBack_takeBack (d : DatabaseId) (raw : RawId) :
    Within (d.TakesBack raw) (d.takeBack raw) := by
  intro s
  unfold takeBack
  show d.TakesBack raw s ((if !(s.database d).closed ∧
    ((s.database d).idle.length : Int) < (s.database d).poolSize then _ else _ :
      StateM Session Unit).run s).2
  split
  · rename_i hroom
    have hdatabase := database_update (s := s) (d := d)
      (fun hnone => by rw [hnone] at hroom; cases hroom.1) fun x => { x with idle := raw :: x.idle }
    refine ⟨fun d' hd' => ?_, .inl ⟨?_, rfl⟩⟩
    · exact congrArg Database.pool ((hdatabase d').trans (if_neg hd'))
    · exact congrArg Database.idle ((hdatabase d).trans (if_pos rfl))
  · exact ⟨fun _ _ => rfl, .inr ⟨rfl, rfl⟩⟩

theorem connections_takeBack (d : DatabaseId) (raw : RawId) (s : Session) :
    ((d.takeBack raw).run s).2.connections = s.connections := by
  unfold takeBack
  show ((if !(s.database d).closed ∧
    ((s.database d).idle.length : Int) < (s.database d).poolSize then _ else _ :
      StateM Session Unit).run s).2.connections = s.connections
  split <;> rfl

end DatabaseId

namespace ConnectionId

variable {c : ConnectionId} {d : DatabaseId} {raw : RawId}

/-- Giving back a connection that is outside of a transaction. -/
theorem run_release_outside (h : c.Is ⟨raw, some d, 0, false⟩ s) :
    c.release.run s =
      (d.takeBack raw).run ((updateConnection c fun x => { x with released := true }).run s).2 := by
  have hrelease : Leads (· = s) c.release fun _ t => t = ((d.takeBack raw).run
      ((updateConnection c fun x => { x with released := true }).run s).2).2 := by
    have hupdated : c.Is ⟨raw, some d, 0, true⟩
        ((updateConnection c fun x => { x with released := true }).run s).2 :=
      leads_is_update (fun x => { x with released := true }) s h
    unfold release
    refine read_bind_at (x := ⟨raw, some d, 0, false⟩) ?_ ?_
    · rintro _ rfl
      exact h.connection_eq
    · refine .bind (M := fun _ => (· = s)) ?_ fun _ => ?_
      · unfold abandon
        refine inTransaction_bind_at (x := ⟨raw, some d, 0, false⟩) ?_ fun _ ht => ht
        rintro _ rfl
        exact h.connection_eq
      · refine .bind (M := fun _ =>
          (· = ((updateConnection c fun x => { x with released := true }).run s).2)) ?_ fun _ => ?_
        · rintro _ rfl
          rfl
        · refine read_bind_at (x := ⟨raw, some d, 0, true⟩) ?_ ?_
          · rintro _ rfl
            exact hupdated.connection_eq
          · rintro _ rfl
            rfl
  exact Prod.ext rfl (hrelease s rfl)

end ConnectionId

/-! ## For one call -/

namespace DatabaseId

variable {d : DatabaseId} {c : ConnectionId}

/-- One connection is taken from a database, serves, and is given back. -/
def Lends (d : DatabaseId) (s s' : Session) : Prop :=
  ∃ raw t u, d.Supplies raw [⟨raw, some d, 0, false⟩] s t ∧
    ConnectionId.Serves ⟨s.connections.length⟩ t u ∧ d.TakesBack raw u s' ∧
    s'.connections = s.connections ++ [⟨raw, some d, 0, true⟩]

/-- One connection is taken from a database and serves, and is never given back. -/
def Loses (d : DatabaseId) (s s' : Session) : Prop :=
  ∃ raw t, d.Supplies raw [⟨raw, some d, 0, false⟩] s t ∧
    ConnectionId.Serves ⟨s.connections.length⟩ t s'

theorem Lends.of_untouched (hst : s.Untouched t) (h : d.Lends t u) : d.Lends s u := by
  obtain ⟨raw, v, w, hsupplies, hserves, hback, hconnections⟩ := h
  rw [hst.connections] at hserves hconnections
  exact ⟨raw, v, w, hsupplies.of_untouched hst, hserves, hback, hconnections⟩

theorem Loses.of_untouched (hst : s.Untouched t) (h : d.Loses t u) : d.Loses s u := by
  obtain ⟨raw, v, hsupplies, hserves⟩ := h
  rw [hst.connections] at hserves
  exact ⟨raw, v, hsupplies.of_untouched hst, hserves⟩

theorem Loses.untouched (h : d.Loses s t) (htu : t.Untouched u) : d.Loses s u := by
  obtain ⟨raw, v, hsupplies, hserves⟩ := h
  exact ⟨raw, v, hsupplies,
    ConnectionId.chained_serves.trans hserves (ConnectionId.serves_of_untouched htu)⟩

/-- A call that serves on a connection which is taken for it lends that connection. -/
theorem lends_of_use {α : Type} {call : ConnectionId → SessionM α}
    (hcall : ∀ c, Within c.Serves (call c).run) (hconnect : d.connect.run.run s = (.ok c, t)) :
    d.Lends s ((c.use call).run.run t).2 := by
  obtain ⟨rfl, raw, hsupplies⟩ : c = ⟨s.connections.length⟩ ∧
      ∃ raw, d.Supplies raw [⟨raw, some d, 0, false⟩] s t := by
    have htaken := (supplies_connect d s).1 c
    rw [hconnect] at htaken
    exact htaken rfl
  have hserves := hcall ⟨s.connections.length⟩ t
  generalize hu : ((call ⟨s.connections.length⟩).run.run t).2 = u at hserves
  have hrun : ((ConnectionId.use ⟨s.connections.length⟩ call).run.run t).2 =
      ((ConnectionId.release ⟨s.connections.length⟩).run u).2 := by
    rw [← hu]
    rfl
  have hconnections : u.connections = s.connections ++ [⟨raw, some d, 0, false⟩] :=
    hserves.connections.trans hsupplies.connections
  have hthere : ConnectionId.Is ⟨s.connections.length⟩ ⟨raw, some d, 0, false⟩ u := by
    unfold ConnectionId.Is
    rw [hconnections]
    exact List.getElem?_concat_length
  rw [hrun, ConnectionId.run_release_outside hthere]
  have hback := takesBack_takeBack d raw
    ((updateConnection ⟨s.connections.length⟩ fun x => { x with released := true }).run u).2
  refine ⟨raw, t, u, hsupplies, hserves, ⟨hback.others, hback.once⟩, ?_⟩
  rw [connections_takeBack]
  show u.connections.modify s.connections.length _ = _
  rw [hconnections, List.modify_eq_set_getElem?]
  simp

end DatabaseId

end TableOps
