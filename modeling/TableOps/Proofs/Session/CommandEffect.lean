import TableOps.Proofs.Session.RouteEffect

/-!
# The effects of commands

Commands and the introspection that they ask for, built from the basic calls. A command sends the
statements that its request is composed to, and those of introspection.

* `IsIntrospection` — the statements that ask for the schema of a table; `Within.run_describe`, those
  that an engine is asked with.
* `SteadyEffects.schemaEffects`, `RunEffects.preparedEffects` — what a command does on its route.
* `CallEffects.executeOn`, `CallEffects.executeSketch` — commands.
-/

namespace TableOps

open Session

variable {R : Session → Session → Prop} {allowed : Value → Prop} {α β : Type}

/-- A statement that asks for the schema of a table. -/
inductive IsIntrospection : Value → Prop where
  | mysqlColumns (table : String) : IsIntrospection (.text (Mysql.columnsStatement table))
  | mysqlKeys (table : String) : IsIntrospection (.text (Mysql.keysStatement table))
  | mysqlStatus (mark : String) : IsIntrospection (.text (Mysql.statusStatement mark))
  | postgresColumns (mark : String) : IsIntrospection (.text (Postgres.columnsStatement mark))
  | postgresKeys (mark : String) : IsIntrospection (.text (Postgres.keysStatement mark))

/-- Asking an engine for the schema of a table sends introspection only. -/
theorem Within.run_describe (hC : Chained R) {c : ConnectionId}
    (hquery : ∀ {statement : String} (values : List Value), IsIntrospection (.text statement) →
      Within R (c.query statement values).run) (d : Dialect) (table : Value) :
    Within R (d.describe c table).run := by
  unfold Dialect.describe
  dsimp only
  split
  · refine .run_bind hC (.run_ofExcept hC _) fun name => ?_
    refine .run_bind hC (hquery _ (.mysqlColumns name)) fun columns => ?_
    split
    · exact .run_throw_bind hC _ _
    · refine .run_bind hC (hquery _ (.mysqlKeys name)) fun keys => ?_
      refine .run_bind hC (hquery _ (.mysqlStatus _)) fun status => ?_
      exact .run_ofExcept hC _
  · refine .run_bind hC (hquery _ (.postgresColumns _)) fun columns => ?_
    split
    · exact .run_throw_bind hC _ _
    · refine .run_bind hC (hquery _ (.postgresKeys _)) fun keys => ?_
      exact .run_ofExcept hC _

namespace QuietEffects

/-! ## Introspection -/

theorem describeOn (H : QuietEffects R allowed) (hI : ∀ st, IsIntrospection st → allowed st)
    (d : Dialect) (c : ConnectionId) (table : Value) : Within R (d.describe c table).run :=
  .run_describe H.toChained (fun values h => H.query c values (hI _ h)) d table

theorem describe (H : QuietEffects R allowed) (hI : ∀ st, IsIntrospection st → allowed st)
    (id : DatabaseId) (table : Value) (r : Route) : Within R (id.describe table r).run := by
  have hC := H.toChained
  unfold DatabaseId.describe
  refine .run_bind hC (.run_liftM (H.readDatabase id)) fun d => ?_
  dsimp only
  split
  · exact .run_bind hC (H.connect id) fun c => H.describeOn hI _ c table
  · exact H.withConnection id _ fun c => H.describeOn hI _ c table

/-! ## What a command looks up -/

theorem lookupValue (H : QuietEffects R allowed) (v : Value) :
    Within R (Session.lookupValue v).run := by
  have hC := H.toChained
  unfold Session.lookupValue
  split
  · exact Within.run_lookup hC _
  · exact .run_bind hC (.run_liftM (H.readDatabase _)) fun d => .run_throw hC _
  · split
    · exact Within.run_lookup hC none
    · split
      · exact .run_throw hC _
      · exact .run_throw hC _

theorem resolve (H : QuietEffects R allowed) (t : Target) : Within R (Session.resolve t).run :=
  .run_resolve H.toChained H.addCache t

end QuietEffects

namespace SteadyEffects

/-! ## Cached schemas -/

theorem remember (H : SteadyEffects R allowed) (id : DatabaseId) (table : String)
    (schema : TableSchema) : Within R (id.remember table schema) :=
  H.schemas id fun schemas => schemas.put table schema

theorem invalidate (H : SteadyEffects R allowed) (id : DatabaseId) (table : Option String) :
    Within R (id.invalidate table).run := by
  have hC := H.toChained
  unfold DatabaseId.invalidate
  split
  · exact .run_lift (H.schemas id fun _ => [])
  · refine .run_bind hC (.run_ofExcept hC _) fun t => ?_
    exact .run_lift (H.schemas id fun schemas => schemas.erase t.name)

/-- Looking a schema up on a route sends introspection at most. -/
theorem schemaEffects (H : SteadyEffects R allowed) (hI : ∀ st, IsIntrospection st → allowed st)
    (r : Route) : SchemaEffects R R r where
  toAbsorbs := H.toChained.absorbs
  describe id table := H.describe hI id table r
  schemas := H.schemas

theorem tableSchema (H : SteadyEffects R allowed) (hI : ∀ st, IsIntrospection st → allowed st)
    (id : DatabaseId) (table : String) (r : Route) : Within R (id.tableSchema table r).run :=
  (H.schemaEffects hI r).tableSchema id table

theorem schemaFor (H : SteadyEffects R allowed) (hI : ∀ st, IsIntrospection st → allowed st)
    (given : Option TableSchema) (needed : Dialect → Bool) (table : Except Failure TableRef)
    (d : DatabaseId) (r : Route) : Within R (Session.schemaFor given needed table d r).run :=
  (H.schemaEffects hI r).schemaFor given needed table d

end SteadyEffects

namespace RunEffects

/-! ## Prepared commands -/

/-- Running statements on a route. -/
theorem preparedEffects (H : RunEffects R allowed) (r : Route) (cache : CacheId) :
    PreparedEffects R allowed r cache where
  toChained := H.toChained
  note := H.note
  query := H.routeQuery r
  updateCache := H.updateCache cache

theorem outcome (H : RunEffects R allowed) {p : Prepared} (hp : CallEffects.Sends allowed p) :
    Within R p.outcome.run :=
  (H.preparedEffects p.connection p.cache).outcome hp

theorem announce (H : RunEffects R allowed) (p : Patched) (x : Draft) (cache : CacheId)
    (d : DatabaseId) : Within R (Session.announce p x cache d).run :=
  .run_announce H.toChained H.note (H.updateCache cache) p x d

end RunEffects

namespace CallEffects

/-! ## Commands -/

/-- A command with an expression sends introspection and the statements of its request, whichever
schema fills the expression in. -/
theorem executeOn (H : CallEffects R allowed) (hI : ∀ st, IsIntrospection st → allowed st)
    {c : Command} {e : Expression} {cache : CacheId} {r : Route}
    (hp : ∀ e' schema d fs, (e' = e ∨ ∃ given, autoFill c e given = .ok e') →
      Sends allowed (.ofRequest c { c.request e' with schema := schema } cache d r fs))
    (d : DatabaseId) : Within R (Session.executeOn c e cache d r).run := by
  have hC := H.toChained
  unfold Session.executeOn
  refine .run_bind hC (H.schemaFor hI _ _ _ d r) fun schema => ?_
  -- once the schema is there the request is composed for what it fills in
  have hrest : ∀ e', (e' = e ∨ ∃ given, autoFill c e given = .ok e') →
      Within R (do
        let s ← get
        Prepared.outcome (.ofRequest c { c.request e' with schema := schema } cache
          (s.database d).dialect r s.functions) : SessionM Outcome).run := by
    intro e' he'
    refine .run_bind hC (.run_get hC) fun s => ?_
    exact H.outcome (hp e' schema _ _ he')
  cases schema with
  | none => exact hrest e (Or.inl rfl)
  | some given =>
    show Within R (SessionM.ofExcept (autoFill c e given) >>= _).run
    cases hfill : autoFill c e given with
    | error f => exact fun s => hC.refl s
    | ok e' => exact hrest e' (Or.inr ⟨given, hfill⟩)

/-- A command with unread parts sends introspection and the statements of its sketch. -/
theorem executeSketch (H : CallEffects R allowed) (hI : ∀ st, IsIntrospection st → allowed st)
    {sk : Sketch} {cache : CacheId} {r : Route}
    (hp : ∀ sk' d fs, Sends allowed (.ofSketch sk' cache d r fs)) (d : DatabaseId) :
    Within R (Session.executeSketch sk cache d r).run := by
  have hC := H.toChained
  unfold Session.executeSketch
  refine .run_bind hC (.run_ofExcept hC _) fun given => ?_
  refine .run_bind hC (H.schemaFor hI _ _ _ d r) fun schema => ?_
  refine .run_bind hC (.run_ofExcept hC _) fun draft => ?_
  refine .run_bind hC (.run_get hC) fun s => ?_
  exact H.outcome (hp _ _ _)

end CallEffects

end TableOps
