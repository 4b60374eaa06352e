import TableOps.Proofs.Session.LentConnection
import TableOps.Proofs.Session.RememberedTotals

/-!
# What commands leave alone

A command leaves all expressions as they are, and all remembered totals but that of its own
expression. On the connection of a caller it leaves that connection as it is; without one it takes one
connection at most, and gives it back.

* `Session.KeepsExpressions` — the expressions stay, and some remembered totals.
* `Patched.route` — the connection that a command comes with.
* `Session.Leaks` — nothing was touched, or a connection was taken and not given back.
* `Patched.keepsExpressions`, `Patched.serves_of_own`, `Patched.lends_of_pool`,
  `Patched.leaks_of_unusable` — the expressions, and the kinds of connections.

Main statement: `Patched.frame`, what a command leaves alone in any case.
-/

namespace TableOps

open Session

/-! ## Expressions and totals -/

/-- All expressions stay, each also under the path that it is stored under, and so do the remembered
totals of the numbers with a property. -/
structure Session.KeepsExpressions (kept : CacheId → Prop) (s s' : Session) : Prop where
  expressions : s'.expressions = s.expressions
  stored : ∀ d : DatabaseId, (s'.database d).stored = (s.database d).stored
  cache : ∀ id, kept id → s'.cache id = s.cache id

namespace Session

variable {kept : CacheId → Prop} {s t : Session}

theorem keepsExpressions_of_eq (hexpressions : t.expressions = s.expressions)
    (hdatabases : t.databases = s.databases) (hcaches : t.caches = s.caches) :
    s.KeepsExpressions kept t :=
  ⟨hexpressions, fun d => by rw [database, database, hdatabases],
    fun id _ => by rw [cache, cache, hcaches]⟩

theorem KeepsExpressions.mono {kept' : CacheId → Prop} (h : s.KeepsExpressions kept t)
    (hle : ∀ id, kept' id → kept id) : s.KeepsExpressions kept' t :=
  ⟨h.expressions, h.stored, fun id hid => h.cache id (hle id hid)⟩

theorem chained_keepsExpressions (kept : CacheId → Prop) : Chained (KeepsExpressions kept) where
  refl _ := keepsExpressions_of_eq rfl rfl rfl
  trans hst htu := ⟨htu.expressions.trans hst.expressions,
    fun d => (htu.stored d).trans (hst.stored d),
    fun id hid => (htu.cache id hid).trans (hst.cache id hid)⟩

/-- A change of a database that is not about what is stored. -/
theorem keepsExpressions_updateDatabase (d : DatabaseId) {f : Database → Database}
    (hf : ∀ x, (f x).stored = x.stored) : Within (KeepsExpressions kept) (updateDatabase d f) := by
  refine fun s => ⟨rfl, fun d' => ?_, fun _ _ => rfl⟩
  rw [database_updateDatabase]
  split
  · exact hf _
  · rfl

theorem keepsExpressions_steadySteps (kept : CacheId → Prop) :
    SteadySteps (KeepsExpressions kept) fun _ => True where
  toChained := chained_keepsExpressions kept
  executed _ _ _ _ _ := keepsExpressions_of_eq rfl rfl rfl
  quiet _ _ _ := keepsExpressions_of_eq rfl rfl rfl
  openRaw _ := .openRaw (chained_keepsExpressions kept) (fun _ _ => keepsExpressions_of_eq rfl rfl rfl)
    fun _ _ => keepsExpressions_of_eq rfl rfl rfl
  nextReply := .nextReply (chained_keepsExpressions kept) fun _ _ => keepsExpressions_of_eq rfl rfl rfl
  note := .note (chained_keepsExpressions kept) fun _ _ => keepsExpressions_of_eq rfl rfl rfl
  updateConnection _ _ _ := keepsExpressions_of_eq rfl rfl rfl
  addConnection _ _ := keepsExpressions_of_eq rfl rfl rfl
  idle d _ := keepsExpressions_updateDatabase d fun _ => rfl
  schemas d _ := keepsExpressions_updateDatabase d fun _ => rfl
  addCache s := ⟨rfl, fun _ => rfl, fun id _ => cache_addCache s id⟩

theorem keepsExpressions_effects (kept : CacheId → Prop) :
    SteadyEffects (KeepsExpressions kept) fun _ => True :=
  (keepsExpressions_steadySteps kept).steadyEffects

/-- The total of another number may change. -/
theorem keepsExpressions_updateCache {id : CacheId} (hid : ¬ kept id)
    (f : CountCache Int → CountCache Int) : Within (KeepsExpressions kept) (updateCache id f) := by
  refine fun s => ⟨rfl, fun _ => rfl, fun id' hid' => ?_⟩
  rw [cache_updateCache, if_neg]
  rintro ⟨rfl, -⟩
  exact hid hid'

theorem keepsExpressions_preparedEffects (r : Route) (cache : CacheId) :
    PreparedEffects (KeepsExpressions (· ≠ cache)) (fun _ => True) r cache where
  toChained := chained_keepsExpressions _
  note := (keepsExpressions_effects _).note
  query := (keepsExpressions_effects _).routeQuery r
  updateCache := keepsExpressions_updateCache (not_not_intro rfl)

end Session

namespace Patched

variable (p : Patched) (s : Session)

/-- The connection that the command is to run on. -/
def route : Route :=
  .ofValue (p.member "connection")

/-- The expressions stay, and so do the remembered totals but that of the expression that the command
is resolved to. -/
theorem keepsExpressions : s.KeepsExpressions
    (fun id => ∀ target shared d t, p.target = .ok target →
      (resolve target).run.run s = (.ok (shared, d), t) → id ≠ shared.cache)
    ((executePatched p).run.run s).2 := by
  have hrun : executePatched p = SessionM.ofExcept p.target >>= fun target =>
      resolve target >>= fun found =>
        announce p found.1.toDraft found.1.cache found.2 >>= fun _ => onRoute found.2 p.route
          fun r => planFor p found.1 found.2 r >>= fun x => x.prepared.outcome := by
    rw [executePatched_eq]
    unfold announced route
    simp only [bind_assoc, pure_bind]
  rw [hrun, run_bind]
  cases htarget : p.target with
  | error f => exact (chained_keepsExpressions _).refl s
  | ok target =>
    have hresolve := (keepsExpressions_effects fun _ => True).resolve target s
    show s.KeepsExpressions _ ((resolve target >>= _).run.run s).2
    rw [run_bind]
    cases hresolved : (resolve target).run.run s with
    | mk r t =>
      rw [hresolved] at hresolve
      cases r with
      | error f => exact hresolve.mono fun _ _ => trivial
      | ok found =>
        obtain ⟨shared, d⟩ := found
        have H := keepsExpressions_effects (· ≠ shared.cache)
        have hafter : Within (KeepsExpressions (· ≠ shared.cache))
            (announce p shared.toDraft shared.cache d >>= fun _ => onRoute d p.route fun r =>
              planFor p shared d r >>= fun x => x.prepared.outcome).run := by
          refine .run_bind H.toChained ?_ fun _ => ?_
          · exact .run_announce H.toChained H.note
              (keepsExpressions_updateCache (not_not_intro rfl)) p _ d
          · refine H.onRoute d _ fun r => within_onRoute (H.schemaEffects (fun _ _ => trivial) r) ?_ d
            exact keepsExpressions_preparedEffects r shared.cache
        refine (chained_keepsExpressions _).trans (hresolve.mono fun _ _ => trivial)
          ((hafter t).mono fun id hid => ?_)
        exact hid target shared d t rfl hresolved

end Patched

/-! ## Connections -/

namespace Patched

variable {p : Patched} {s : Session}

/-- What a command does behind its announcement, by the session that this leads to. -/
theorem run_announced {shared : SharedExpression} {d : DatabaseId} {t : Session}
    (h : (announced p).run.run s = (.ok (shared, d), t)) :
    (executePatched p).run.run s = (onRoute d p.route fun r =>
      planFor p shared d r >>= fun x => x.prepared.outcome).run.run t := by
  rw [executePatched_eq, run_bind, h]
  rfl

/-- A command that cannot be announced touches nothing. -/
theorem untouched_of_unannounced {f : Failure} {t : Session}
    (h : (announced p).run.run s = (.error f, t)) : s.Untouched ((executePatched p).run.run s).2 := by
  have hannounced := untouched_announced p s
  rw [h] at hannounced
  rw [executePatched_eq, run_bind, h]
  exact hannounced

/-- A command serves on the connection of its caller. -/
theorem serves_of_own {c : ConnectionId} (hroute : p.route = .own c) :
    c.Serves s ((executePatched p).run.run s).2 := by
  cases hrun : (announced p).run.run s with
  | mk r t =>
    cases r with
    | error f => exact ConnectionId.serves_of_untouched (untouched_of_unannounced hrun)
    | ok found =>
      obtain ⟨shared, d⟩ := found
      have hannounced := untouched_announced p s
      rw [hrun] at hannounced
      rw [run_announced hrun, hroute]
      refine ConnectionId.chained_serves.trans (ConnectionId.serves_of_untouched hannounced) ?_
      exact within_onRoute c.serves_schemaEffects (c.serves_preparedEffects _) d t

/-- Without a connection, a command is lent one by its database; it touches nothing where it gets
none. -/
theorem lends_of_pool (hroute : p.route = .pool) {shared : SharedExpression} {d : DatabaseId}
    {t : Session} (hannounced : (announced p).run.run s = (.ok (shared, d), t)) :
    s.Untouched t ∧
      (∀ f u, d.connect.run.run t = (.error f, u) →
        s.Untouched ((executePatched p).run.run s).2) ∧
      ∀ c u, d.connect.run.run t = (.ok c, u) → d.Lends s ((executePatched p).run.run s).2 := by
  have huntouched := untouched_announced p s
  rw [hannounced] at huntouched
  have hrun := run_announced hannounced
  rw [hroute] at hrun
  refine ⟨huntouched, fun f u hconnect => ?_, fun c u hconnect => ?_⟩
  · have hrefused := (d.supplies_connect t).2 f
    rw [hconnect] at hrefused
    have hfailed : (executePatched p).run.run s = (.error f, u) := by
      rw [hrun]
      unfold onRoute
      rw [run_bind, hconnect]
    rw [hfailed]
    exact chained_untouched.trans huntouched (hrefused rfl)
  · have hlent : (executePatched p).run.run s = (c.use fun c =>
        planFor p shared d (.own c) >>= fun x => x.prepared.outcome).run.run u := by
      rw [hrun]
      unfold onRoute
      rw [run_bind, hconnect]
    rw [hlent]
    refine (DatabaseId.lends_of_use (fun c => ?_) hconnect).of_untouched huntouched
    exact within_onRoute c.serves_schemaEffects (c.serves_preparedEffects _) d

end Patched

/-! ## Values that are no connections -/

/-- Nothing was touched, or one connection was taken and is not given back. -/
def Session.Leaks (s s' : Session) : Prop :=
  s.Untouched s' ∨ ∃ d : DatabaseId, d.Loses s s'

theorem Session.absorbs_leaks : Absorbs Leaks Untouched where
  toChained := chained_untouched
  of_quiet := .inl
  before := by
    rintro s t u hst (htu | ⟨d, hloses⟩)
    · exact .inl (chained_untouched.trans hst htu)
    · exact .inr ⟨d, hloses.of_untouched hst⟩
  after := by
    rintro s t u (hst | ⟨d, hloses⟩) htu
    · exact .inl (chained_untouched.trans hst htu)
    · exact .inr ⟨d, hloses.untouched htu⟩

/-- A value that counts as present is refused as a connection before a schema is asked for. -/
theorem untouched_schemaEffects : SchemaEffects Untouched Untouched (.unusable true) where
  toAbsorbs := chained_untouched.absorbs
  describe _ _ := .run_bind chained_untouched (.run_liftM fun s => chained_untouched.refl s)
    fun _ => .run_throw chained_untouched _
  schemas := untouched_schemas

/-- One that does not is passed over: the schema is asked for on a connection of the pool, which is
not given back. -/
theorem leaks_schemaEffects : SchemaEffects Leaks Untouched (.unusable false) where
  toAbsorbs := absorbs_leaks
  describe d table := by
    refine absorbs_leaks.run_bind_before (.run_liftM fun s => chained_untouched.refl s) fun x => ?_
    intro s
    dsimp only
    have htaken := d.supplies_connect s
    rw [run_bind]
    cases hconnect : d.connect.run.run s with
    | mk r t =>
      rw [hconnect] at htaken
      cases r with
      | error f => exact .inl (htaken.2 f rfl)
      | ok c =>
        obtain ⟨rfl, raw, hsupplies⟩ := htaken.1 c rfl
        exact .inr ⟨d, raw, t, hsupplies, ConnectionId.serves_describe _ x.dialect table t⟩
  schemas := untouched_schemas

namespace Patched

variable {p : Patched} {s s' : Session} {r : Except Failure Outcome}

/-- A value that is no connection leads nowhere, but where it does not count as present a connection
may be lost over it. -/
theorem leaks_of_unusable {present : Bool} (hroute : p.route = .unusable present) :
    s.Untouched ((executePatched p).run.run s).2 ∨
      present = false ∧ ∃ d : DatabaseId, d.Loses s ((executePatched p).run.run s).2 := by
  cases hrun : (announced p).run.run s with
  | mk r t =>
    cases r with
    | error f => exact .inl (untouched_of_unannounced hrun)
    | ok found =>
      obtain ⟨shared, d⟩ := found
      have hannounced := untouched_announced p s
      rw [hrun] at hannounced
      rw [run_announced hrun, hroute]
      cases present with
      | true => exact .inl (chained_untouched.trans hannounced
          (within_onRoute untouched_schemaEffects (untouched_unusable true _) d t))
      | false =>
        have hleaks := within_onRoute (p := p) leaks_schemaEffects
          (untouched_unusable false shared.cache) d t
        exact (absorbs_leaks.before hannounced hleaks).imp_right fun hloses => ⟨rfl, hloses⟩

/-! ## What commands leave alone -/

/-- What a command leaves alone, whatever it leads to. All expressions stay, and so do all remembered
totals but that of the expression that it is resolved to. A connection of the caller is left as it is,
and is asked for statements only while it is in a transaction. Without a connection, one is taken when
the command is announced and its database can hand one out; it serves the command and comes back
once. A value that is no connection leads nowhere; but where it does not count as present, a
connection may be taken that is not given back. -/
theorem frame (h : (executePatched p).run.run s = (r, s')) :
    s'.expressions = s.expressions ∧
    (∀ d : DatabaseId, (s'.database d).stored = (s.database d).stored) ∧
    (∀ id, s'.cache id ≠ s.cache id → ∃ target shared d t, p.target = .ok target ∧
      (resolve target).run.run s = (.ok (shared, d), t) ∧ id = shared.cache) ∧
    (∀ c, p.route = .own c → s'.connections = s.connections ∧
      (∀ d : DatabaseId, (s'.database d).idle = (s.database d).idle) ∧
      (0 < (s.connection c).level →
        ∃ asked, s'.server.events = s.server.events ++ asked ∧ ∀ e ∈ asked,
          ∃ statement values, e = .executed (s.connection c).raw statement values)) ∧
    (p.route = .pool →
      (∀ f t, (announced p).run.run s = (.error f, t) → s.Untouched s') ∧
      ∀ shared d t, (announced p).run.run s = (.ok (shared, d), t) → s.Untouched t ∧
        (∀ f u, d.connect.run.run t = (.error f, u) → s.Untouched s') ∧
        ∀ c u, d.connect.run.run t = (.ok c, u) → d.Lends s s') ∧
    ∀ present, p.route = .unusable present →
      s.Untouched s' ∨ present = false ∧ ∃ d : DatabaseId, d.Loses s s' := by
  obtain rfl : ((executePatched p).run.run s).2 = s' := congrArg Prod.snd h
  have hkeeps := p.keepsExpressions s
  refine ⟨hkeeps.expressions, hkeeps.stored, fun id hid => ?_, fun c hroute => ?_, fun hroute => ?_,
    fun present hroute => leaks_of_unusable hroute⟩
  · by_contra hnone
    refine hid (hkeeps.cache id fun target shared d t htarget hresolved hcache => ?_)
    exact hnone ⟨target, shared, d, t, htarget, hresolved, hcache⟩
  · have hserves := serves_of_own (s := s) hroute
    exact ⟨hserves.connections, fun d => congrArg (fun pool => pool.2.1) (hserves.pools d),
      hserves.executed⟩
  · exact ⟨fun f t hannounced => untouched_of_unannounced hannounced,
      fun shared d t hannounced => lends_of_pool hroute hannounced⟩

end Patched

/-! ## The first person, on several connections -/

/-- The first person is asked for; the columns are those of the table. -/
def Patched.firstPerson (connection : Value) : Patched :=
  .ofCommand
    { operation := .query
      target := .given (.ofSource Expression.people.source)
      data := none
      query := []
      page := none
      fields := none
      connection := connection
      refresh := false
      schema := none
      debug := false }

namespace Session

/-- A database that has no tables and lends connections. -/
def withoutTables : Session :=
  { empty .empty with
    databases := [.fresh (some "shop") (.standard .mysql) .factory ⟨none, none, 10, .null, none⟩]
    registry := ⟨[("shop", ⟨0⟩)], some "shop"⟩ }

/-- A connection to it is in a transaction. -/
def withinTransaction : Session :=
  { withoutTables with
    connections := [⟨1, some ⟨0⟩, 1, false⟩]
    server := ⟨1, [.opened 1 none], []⟩ }

end Session

namespace Patched

/-- The table is not there. Without a connection one is lent all the same, and in a transaction of the
caller nothing but statements is asked for. -/
theorem frame_firstPerson :
    (∃ s', (executePatched (firstPerson .null)).run.run withoutTables =
        (.error (.schema (.noSuchTable "Person")), s') ∧
      DatabaseId.Lends ⟨0⟩ withoutTables s' ∧ (s'.database ⟨0⟩).idle = [1]) ∧
    ∃ s' asked, (executePatched (firstPerson (.connection ⟨0⟩))).run.run withinTransaction =
        (.error (.schema (.noSuchTable "Person")), s') ∧
      s'.connections = withinTransaction.connections ∧
      s'.server.events = withinTransaction.server.events ++ asked ∧
      ∀ e ∈ asked, ∃ statement values, e = .executed 1 statement values := by
  constructor
  · obtain ⟨s', shared, t, c, u, hrun, hannounced, hconnect, hidle⟩ : ∃ s' shared t c u,
        (executePatched (firstPerson .null)).run.run withoutTables =
          (.error (.schema (.noSuchTable "Person")), s') ∧
        (announced (firstPerson .null)).run.run withoutTables = (.ok (shared, ⟨0⟩), t) ∧
        (DatabaseId.connect ⟨0⟩).run.run t = (.ok c, u) ∧ (s'.database ⟨0⟩).idle = [1] :=
      ⟨_, _, _, _, _, rfl, rfl, rfl, rfl⟩
    obtain ⟨-, -, -, -, hpool, -⟩ := frame hrun
    obtain ⟨-, hannounce⟩ := hpool rfl
    obtain ⟨-, -, hlent⟩ := hannounce shared ⟨0⟩ t hannounced
    exact ⟨s', hrun, hlent c u hconnect, hidle⟩
  · obtain ⟨s', hrun⟩ : ∃ s',
        (executePatched (firstPerson (.connection ⟨0⟩))).run.run withinTransaction =
          (.error (.schema (.noSuchTable "Person")), s') := ⟨_, rfl⟩
    obtain ⟨-, -, -, hown, -, -⟩ := frame hrun
    obtain ⟨hconnections, -, hasked⟩ := hown ⟨0⟩ rfl
    obtain ⟨asked, hevents, hexecuted⟩ := hasked Nat.one_pos
    exact ⟨s', asked, hrun, hconnections, hevents, hexecuted⟩

/-- With a value that is no connection and does not count as present, a connection is opened for
asking for the columns, and is neither idle nor closed behind that. -/
theorem firstPerson_loses :
    (firstPerson (.bool false)).route = .unusable false ∧
    ∃ s', (executePatched (firstPerson (.bool false))).run.run withoutTables =
        (.error (.schema (.noSuchTable "Person")), s') ∧
      s'.server.events =
        [.opened 1 none, .executed 1 (.text "SHOW COLUMNS FROM `Person`") [], .committed 1] ∧
      s'.connections = [⟨1, some ⟨0⟩, 0, false⟩] ∧ (s'.database ⟨0⟩).idle = [] :=
  ⟨rfl, _, rfl, rfl, rfl, rfl⟩

end Patched

end TableOps
