import TableOps.Proofs.Session.Effect

/-!
# Effects on a route

A command uses its connection for two things: the schema of its table may be looked up on it, and its
statements are run on it. The first happens once at most, so that its effect need not be one that can
be chained; it has to take in what happens before and after it.

* `Absorbs` — a relation that takes in what lies within a quieter one.
* `SchemaEffects` — looking schemas up on a route; `SchemaEffects.schemaFor`, the schema of a
  command.
* `PreparedEffects` — running statements on a route and keeping one remembered total;
  `PreparedEffects.outcome`, prepared commands.
* `Within.run_resolve`, `Within.run_announce` — what a command does before it has a connection.
-/

namespace TableOps

open Session

variable {R quiet : Session → Session → Prop} {allowed : Value → Prop} {α β : Type}

/-! ## Taking in what is quieter -/

/-- Two calls in a row, each within a relation of its own: the first one may fail, or be followed by
the second one. -/
theorem Within.run_bind_of {first second : Session → Session → Prop} {x : SessionM α}
    {f : α → SessionM β} (hx : Within first x.run) (hf : ∀ a, Within second (f a).run)
    (hfails : ∀ {s t}, first s t → R s t) (hgoes : ∀ {s t u}, first s t → second t u → R s u) :
    Within R (x >>= f).run := by
  intro s
  have hfirst := hx s
  rw [TableOps.run_bind]
  cases hrun : x.run.run s with
  | mk r t =>
    rw [hrun] at hfirst
    cases r with
    | ok a => exact hgoes hfirst (hf a t)
    | error e => exact hfails hfirst

/-- A relation that takes in what lies within a quieter one, before and after it. -/
structure Absorbs (R quiet : Session → Session → Prop) : Prop extends Chained quiet where
  of_quiet : ∀ {s t}, quiet s t → R s t
  before : ∀ {s t u}, quiet s t → R t u → R s u
  after : ∀ {s t u}, R s t → quiet t u → R s u

/-- A relation that can be chained takes itself in. -/
theorem Chained.absorbs (h : Chained R) : Absorbs R R where
  toChained := h
  of_quiet hst := hst
  before := h.trans
  after := h.trans

namespace Absorbs

theorem run_of_quiet (h : Absorbs R quiet) {x : SessionM α} (hx : Within quiet x.run) :
    Within R x.run :=
  fun s => h.of_quiet (hx s)

/-- A quiet call, and what follows it. -/
theorem run_bind_before (h : Absorbs R quiet) {x : SessionM α} {f : α → SessionM β}
    (hx : Within quiet x.run) (hf : ∀ a, Within R (f a).run) : Within R (x >>= f).run :=
  .run_bind_of hx hf h.of_quiet h.before

/-- A call that is followed by quiet ones. -/
theorem run_bind_after (h : Absorbs R quiet) {x : SessionM α} {f : α → SessionM β}
    (hx : Within R x.run) (hf : ∀ a, Within quiet (f a).run) : Within R (x >>= f).run :=
  .run_bind_of hx hf id h.after

end Absorbs

/-! ## Schemas -/

/-- Asking for a schema on a route lies within a relation, and remembering one within a quieter
one. -/
structure SchemaEffects (R quiet : Session → Session → Prop) (r : Route) : Prop
    extends Absorbs R quiet where
  describe (id : DatabaseId) (table : Value) : Within R (id.describe table r).run
  schemas (id : DatabaseId) (f : Entries TableSchema → Entries TableSchema) :
    Within quiet (updateDatabase id fun d => { d with schemas := f d.schemas })

namespace SchemaEffects

variable {r : Route}

theorem readDatabase (H : SchemaEffects R quiet r) (id : DatabaseId) : Within quiet id.read :=
  fun s => H.refl s

theorem remember (H : SchemaEffects R quiet r) (id : DatabaseId) (table : String)
    (schema : TableSchema) : Within quiet (id.remember table schema) :=
  H.schemas id fun schemas => schemas.put table schema

theorem tableSchema (H : SchemaEffects R quiet r) (id : DatabaseId) (table : String) :
    Within R (id.tableSchema table r).run := by
  have hC := H.toChained
  unfold DatabaseId.tableSchema
  refine H.run_bind_before (.run_ofExcept hC _) fun t => ?_
  refine H.run_bind_before (.run_liftM (H.readDatabase id)) fun d => ?_
  split
  · exact H.run_of_quiet (.run_pure hC _)
  · refine H.run_bind_after (H.describe id _) fun schema => ?_
    exact .run_bind hC (.run_liftM (H.remember id _ schema)) fun _ => .run_pure hC _

theorem schemaFor (H : SchemaEffects R quiet r) (given : Option TableSchema)
    (needed : Dialect → Bool) (table : Except Failure TableRef) (d : DatabaseId) :
    Within R (Session.schemaFor given needed table d r).run := by
  have hC := H.toChained
  unfold Session.schemaFor
  split
  · exact H.run_of_quiet (.run_pure hC _)
  · refine H.run_bind_before (.run_liftM (H.readDatabase d)) fun database => ?_
    split
    · refine H.run_bind_before (.run_ofExcept hC _) fun t => ?_
      rw [← bind_pure_comp]
      exact H.run_bind_after (H.tableSchema d _) fun _ => .run_pure hC _
    · exact H.run_of_quiet (.run_pure hC _)

end SchemaEffects

/-! ## Prepared commands -/

namespace CallEffects

/-- A prepared command asks for statements of this kind: its own, and a list also for its total. -/
def Asks (p : Prepared) (kind : StatementKind) : Prop :=
  p.kind = some kind ∨ p.kind = some (.of .list) ∧ kind = .total

/-- The statements that a prepared command may be composed to are allowed. -/
def Sends (allowed : Value → Prop) (p : Prepared) : Prop :=
  ∀ kind withTotal s, Asks p kind → p.statement kind withTotal = .ok (some s) →
    allowed (.text (p.dialect.render s))

end CallEffects

/-- A relation that can be chained and holds for running allowed statements on a route and for
changing the total of a number. -/
structure PreparedEffects (R : Session → Session → Prop) (allowed : Value → Prop) (r : Route)
    (cache : CacheId) : Prop extends Chained R where
  note (level : LogLevel) (source : LogSource) (text : String) : Within R (note level source text)
  query {statement : String} (values : List Value) (h : allowed (.text statement)) :
    Within R (r.query statement values).run
  updateCache (f : CountCache Int → CountCache Int) : Within R (updateCache cache f)

namespace PreparedEffects

open CallEffects

variable {p : Prepared}

/-- What follows a composed statement may send it. -/
theorem compose_bind (H : PreparedEffects R allowed p.connection p.cache) (hp : Sends allowed p)
    {kind : StatementKind} (hkind : Asks p kind) (withTotal : Bool)
    {g : String × List Value → SessionM α}
    (hg : ∀ text values, allowed (.text text) → Within R (g (text, values)).run) :
    Within R (p.compose kind withTotal >>= g).run := by
  have hC := H.toChained
  unfold Prepared.compose
  rw [bind_assoc]
  cases hs : p.statement kind withTotal with
  | error f => exact fun s => hC.refl s
  | ok o =>
    cases o with
    | none => exact fun s => hC.refl s
    | some st =>
      have hallowed := hp kind withTotal st hkind hs
      show Within R ((if p.debug = true then _ else _ : SessionM _) >>= g).run
      split
      · rw [bind_assoc]
        refine .run_bind hC (.run_liftM (H.note _ _ _)) fun _ => ?_
        exact hg _ _ hallowed
      · exact hg _ _ hallowed

theorem run (H : PreparedEffects R allowed p.connection p.cache) (hp : Sends allowed p)
    {kind : StatementKind} (hkind : Asks p kind) (withTotal : Bool) :
    Within R (p.run kind withTotal).run := by
  have hC := H.toChained
  unfold Prepared.run
  refine H.compose_bind hp hkind withTotal fun text values hallowed => ?_
  refine .run_bind hC (.run_liftM (H.updateCache _)) fun _ => ?_
  exact H.query values hallowed

theorem countRows (H : PreparedEffects R allowed p.connection p.cache) (hp : Sends allowed p)
    (hlist : p.kind = some (.of .list)) : Within R p.countRows.run := by
  have hC := H.toChained
  unfold Prepared.countRows
  refine H.compose_bind hp (Or.inr ⟨hlist, rfl⟩) true fun text values hallowed => ?_
  refine .run_bind hC (H.query values hallowed) fun result => ?_
  split
  · exact .run_throw hC _
  · exact .run_throw hC _
  · exact .run_ofExcept hC _

theorem countedRows (H : PreparedEffects R allowed p.connection p.cache) (hp : Sends allowed p)
    (hlist : p.kind = some (.of .list)) (remembered : Option Int) (rows : List Row) :
    Within R (p.countedRows remembered rows).run := by
  have hC := H.toChained
  unfold Prepared.countedRows
  split
  · exact .run_pure hC _
  · refine .run_bind hC (.run_ofExcept hC _) fun stripped => ?_
    obtain ⟨rows, embedded⟩ := stripped
    -- the total comes from a column of the rows or from a statement of its own
    have hstore : ∀ count, Within R (do
        Session.updateCache p.cache fun c => c.store p.query count
        return (rows, count) : SessionM (List Row × Int)).run :=
      fun count => .run_bind hC (.run_liftM (H.updateCache _)) fun _ => .run_pure hC _
    cases embedded with
    | some count => exact hstore count
    | none => exact .run_bind hC (H.countRows hp hlist) hstore

theorem transformed (H : PreparedEffects R allowed p.connection p.cache) (rows : List Row) :
    Within R (p.transformed rows).run :=
  .run_ofExcept H.toChained _

theorem page (H : PreparedEffects R allowed p.connection p.cache) (hp : Sends allowed p)
    (hlist : p.kind = some (.of .list)) : Within R p.page.run := by
  have hC := H.toChained
  unfold Prepared.page
  refine .run_bind hC (.run_get hC) fun s => ?_
  refine .run_bind hC (H.run hp (Or.inl hlist) _) fun result => ?_
  refine .run_bind hC (H.countedRows hp hlist _ _) fun counted => ?_
  refine .run_bind hC (H.transformed _) fun rows => ?_
  exact .run_pure hC _

theorem requireData (H : PreparedEffects R allowed p.connection p.cache) (op : Operation) :
    Within R (p.requireData op).run := by
  unfold Prepared.requireData
  split
  · exact .run_pure H.toChained _
  · exact .run_throw H.toChained _

/-- A prepared command sends the statements it may be composed to. -/
theorem outcome (H : PreparedEffects R allowed p.connection p.cache) (hp : Sends allowed p) :
    Within R p.outcome.run := by
  have hC := H.toChained
  unfold Prepared.outcome
  split
  · rename_i op hop
    -- every operation runs its own statement; a page may also run that of its total
    cases op with
    | query =>
      refine .run_bind hC (H.run hp (Or.inl hop) _) fun result => ?_
      refine .run_bind hC (H.transformed _) fun rows => ?_
      exact .run_pure hC _
    | list =>
      unfold Prepared.runOperation
      dsimp only
      split
      · exact H.page hp hop
      · refine .run_bind hC (H.run hp (Or.inl hop) _) fun result => ?_
        refine .run_bind hC (H.transformed _) fun rows => ?_
        exact .run_pure hC _
    | insert =>
      refine .run_bind hC (H.requireData _) fun _ => ?_
      refine .run_bind hC (H.run hp (Or.inl hop) _) fun result => ?_
      exact .run_pure hC _
    | update =>
      refine .run_bind hC (H.requireData _) fun _ => ?_
      refine .run_bind hC (H.run hp (Or.inl hop) _) fun result => ?_
      exact .run_pure hC _
    | delete =>
      refine .run_bind hC (H.run hp (Or.inl hop) _) fun result => ?_
      exact .run_pure hC _
  · rename_i hop
    refine .run_bind hC (H.run hp (Or.inl hop) _) fun result => ?_
    exact .run_pure hC _
  · exact .run_throw hC _

end PreparedEffects

/-! ## Before there is a connection -/

namespace Within

/-- Looking a name up has no effect. -/
theorem run_lookup (hC : Chained R) (name : Option String) :
    Within R (Session.lookup name).run := by
  unfold Session.lookup
  refine .run_bind hC (.run_get hC) fun s => ?_
  dsimp only
  split
  · exact .run_pure hC _
  · exact .run_throw hC _

/-- A place for a total is all that resolving a command adds. -/
theorem run_resolve (hC : Chained R) (hcache : Within R addCache) (t : Target) :
    Within R (Session.resolve t).run := by
  have hread : ∀ d : DatabaseId, Within R d.read := fun d s => hC.refl s
  unfold Session.resolve
  split
  · refine .run_bind hC (.run_lift hcache) fun cache => ?_
    exact .run_bind hC (run_lookup hC _) fun d => .run_pure hC _
  · refine .run_bind hC (.run_get hC) fun s => ?_
    split
    · refine .run_bind hC (.run_ofExcept hC _) fun name => ?_
      exact .run_bind hC (run_lookup hC _) fun d => .run_pure hC _
    · exact .run_throw hC _
  · dsimp only
    refine .run_bind hC (run_lookup hC _) fun d => ?_
    refine .run_bind hC (.run_liftM (hread d)) fun database => ?_
    split
    · exact .run_bind hC (.run_liftM (hread d)) fun database => .run_throw hC _
    · refine .run_bind hC (.run_get hC) fun s => ?_
      refine .run_bind hC (.run_ofExcept hC _) fun id => ?_
      split
      · exact .run_pure hC _
      · exact .run_throw hC _

/-- Announcing a command is noted, and may change the total of its expression. -/
theorem run_announce (hC : Chained R)
    (hnote : ∀ level source text, Within R (Session.note level source text)) {cache : CacheId}
    (hcache : ∀ f, Within R (updateCache cache f)) (p : Patched) (x : Draft) (d : DatabaseId) :
    Within R (Session.announce p x cache d).run := by
  have hrefresh : Within R (if p.refresh then
      SessionM.lift (updateCache cache CountCache.invalidate) else Pure.pure () : SessionM Unit).run := by
    split
    · exact .run_lift (hcache _)
    · exact .run_pure hC _
  unfold Session.announce
  cases p.debug with
  | false => exact hrefresh
  | true =>
    refine .run_bind hC (.run_ofExcept hC _) fun plain => ?_
    refine .run_bind hC (.run_liftM fun s => hC.refl s) fun database => ?_
    exact .run_bind hC (.run_liftM (hnote _ _ _)) fun _ => hrefresh

end Within

end TableOps
