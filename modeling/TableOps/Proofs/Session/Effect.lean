import TableOps.Proofs.Session.StatementErrors
import TableOps.Session.Definition
import TableOps.Session.Shorthand
import TableOps.Session.Transaction

/-!
# The effects of calls

What a call may do to a session is stated as a relation between the session before and after it,
whether the call fails or not. A relation that holds for the basic calls, and that can be chained,
holds for every call that is built from them, so that a fact about whole commands is proved by
looking at the basic calls only.

* `Within` — the effect of a call lies within a relation.
* `QuietEffects`, `RunEffects`, `SteadyEffects`, `CallEffects` — a relation that can be chained and
  holds for the basic calls of commands, with the statements that they are allowed to send: for those
  that change no schema and no total, with totals, with schemas, and for all.
* `Management` — a relation that also holds for transactions, pools and the registry.
* `Within.…` — the ways in which calls are put together.
-/

namespace TableOps

variable {R : Session → Session → Prop} {α β : Type}

/-- The effect of a call lies within a relation. -/
def Within (R : Session → Session → Prop) (x : StateM Session α) : Prop :=
  ∀ s, R s (x.run s).2

/-- A relation that can be chained. -/
structure Chained (R : Session → Session → Prop) : Prop where
  refl : ∀ s, R s s
  trans : ∀ {s t u}, R s t → R t u → R s u

namespace Within

/-! ## Putting calls together -/

theorem pure (h : Chained R) (a : α) : Within R (Pure.pure a : StateM Session α) :=
  fun s => h.refl s

theorem get (h : Chained R) : Within R (MonadState.get : StateM Session Session) :=
  fun s => h.refl s

theorem bind (h : Chained R) {x : StateM Session α} {f : α → StateM Session β} (hx : Within R x)
    (hf : ∀ a, Within R (f a)) : Within R (x >>= f) :=
  fun s => h.trans (hx s) (hf _ _)

/-- A call for every item of a list. -/
theorem forM (h : Chained R) {f : α → StateM Session PUnit} (hf : ∀ a, Within R (f a))
    (items : List α) : Within R (items.forM f) := by
  induction items with
  | nil => exact pure h _
  | cons a items ih => exact bind h (hf a) fun _ => ih

theorem foldlM (h : Chained R) {f : β → α → StateM Session β} (hf : ∀ b a, Within R (f b a))
    (items : List α) (b : β) : Within R (items.foldlM f b) := by
  induction items generalizing b with
  | nil => exact pure h b
  | cons a items ih =>
    rw [List.foldlM_cons]
    exact bind h (hf b a) fun b' => ih b'

/-! ## Calls that may fail -/

theorem run_pure (h : Chained R) (a : α) : Within R (Pure.pure a : SessionM α).run :=
  fun s => h.refl s

theorem run_throw (h : Chained R) (f : Failure) : Within R (throw f : SessionM α).run :=
  fun s => h.refl s

theorem run_ofExcept (h : Chained R) (x : Except Failure α) :
    Within R (SessionM.ofExcept x).run :=
  fun s => h.refl s

theorem run_lift {x : StateM Session α} (hx : Within R x) : Within R (SessionM.lift x).run :=
  fun s => hx s

theorem run_liftM {x : StateM Session α} (hx : Within R x) :
    Within R (liftM x : SessionM α).run :=
  fun s => hx s

theorem run_get (h : Chained R) : Within R (MonadState.get : SessionM Session).run :=
  fun s => h.refl s

/-- Calls in a row; a failure of the first one keeps its effect. -/
theorem run_bind (h : Chained R) {x : SessionM α} {f : α → SessionM β} (hx : Within R x.run)
    (hf : ∀ a, Within R (f a).run) : Within R (x >>= f).run := by
  show Within R (x.run >>= ExceptT.bindCont f)
  refine bind h hx fun r => ?_
  cases r with
  | ok a => exact hf a
  | error e => exact pure h _

/-- The same from one session on, where it is known what the first call yields. -/
theorem run_bind_at (h : Chained R) {x : SessionM α} {f : α → SessionM β} {s : Session}
    (hx : R s (x.run.run s).2)
    (hf : ∀ a s', x.run.run s = (.ok a, s') → R s' ((f a).run.run s').2) :
    R s ((x >>= f).run.run s).2 := by
  rw [TableOps.run_bind]
  -- what follows is only run on what was yielded
  cases hrun : x.run.run s with
  | mk r s' =>
    rw [hrun] at hx
    cases r with
    | ok a => exact h.trans hx (hf a s' hrun)
    | error e => exact hx

/-- Nothing that follows a failure takes effect. -/
theorem run_throw_bind (h : Chained R) (f : Failure) (g : α → SessionM β) :
    Within R (throw f >>= g).run :=
  fun s => h.refl s

theorem run_map (h : Chained R) {x : SessionM α} (hx : Within R x.run) (f : α → β) :
    Within R (f <$> x).run := by
  rw [← bind_pure_comp]
  exact run_bind h hx fun a => run_pure h (f a)

/-- A call and a cleanup, whether the call fails or not. -/
theorem run_always (h : Chained R) {x : SessionM α} {cleanup : SessionM Unit}
    (hx : Within R x.run) (hcleanup : Within R cleanup.run) :
    Within R (x.always cleanup).run := by
  refine bind h hx fun r => bind h hcleanup fun r' => ?_
  split <;> exact pure h _

/-- A call and a step that is taken when it fails. -/
theorem run_onFailure (h : Chained R) {x : SessionM α} {step : StateM Session Unit}
    (hx : Within R x.run) (hstep : Within R step) : Within R (x.onFailure step).run := by
  refine bind h hx fun r => ?_
  split
  · exact pure h _
  · exact bind h hstep fun _ => pure h _

/-- A call whose failure is caught. -/
theorem run_tryCatch (h : Chained R) {x : SessionM α} {handle : Failure → SessionM α}
    (hx : Within R x.run) (hhandle : ∀ f, Within R (handle f).run) :
    Within R (tryCatch x handle).run := by
  simp only [tryCatch, tryCatchThe, MonadExceptOf.tryCatch, ExceptT.tryCatch]
  refine bind h hx fun r => ?_
  cases r with
  | ok a => exact pure h _
  | error f => exact hhandle f

end Within

/-! ## The basic calls -/

open Session

/-- A relation that can be chained and holds for the basic calls of commands that leave the
expressions, the remembered totals and the cached schemas as they are, when these calls send only
allowed statements. -/
structure QuietEffects (R : Session → Session → Prop) (allowed : Value → Prop) : Prop
    extends Chained R where
  note (level : LogLevel) (source : LogSource) (text : String) : Within R (note level source text)
  queryRaw (c : ConnectionId) {statement : Value} (values : List Value) (h : allowed statement) :
    Within R (c.queryRaw statement values).run
  refuse (c : ConnectionId) (f : Failure) : Within R (c.refuse f).run
  release (c : ConnectionId) : Within R c.release
  connect (id : DatabaseId) : Within R id.connect.run
  addCache : Within R addCache

/-- The same with the calls that change remembered totals: those that run a prepared command. -/
structure RunEffects (R : Session → Session → Prop) (allowed : Value → Prop) : Prop
    extends QuietEffects R allowed where
  updateCache (id : CacheId) (f : CountCache Int → CountCache Int) : Within R (updateCache id f)

/-- The same with the calls that change cached schemas, but not totals. -/
structure SteadyEffects (R : Session → Session → Prop) (allowed : Value → Prop) : Prop
    extends QuietEffects R allowed where
  schemas (id : DatabaseId) (f : Entries TableSchema → Entries TableSchema) :
    Within R (updateDatabase id fun d => { d with schemas := f d.schemas })

/-- A relation that holds for all basic calls of commands. -/
structure CallEffects (R : Session → Session → Prop) (allowed : Value → Prop) : Prop
    extends SteadyEffects R allowed, RunEffects R allowed where
  addShared (d : Draft) (cache : CacheId) : Within R (addShared d cache)

/-- A relation that also holds for transactions, for pools and for the registry, whatever the
statements. -/
structure Management (R : Session → Session → Prop) : Prop
    extends CallEffects R (fun _ => True) where
  begin (c : ConnectionId) : Within R c.begin.run
  commit (c : ConnectionId) : Within R c.commit.run
  rollback (c : ConnectionId) : Within R c.rollback.run
  closeDown (id : DatabaseId) : Within R id.closeDown
  updateShared (id : ExpressionId) (d : Draft) : Within R (updateShared id d)
  addDatabase (d : Database) (h : d.idle = []) : Within R (addDatabase d)
  registry (f : Registry → Registry) : Within R (modify fun s => { s with registry := f s.registry })

variable {allowed : Value → Prop}

namespace QuietEffects

/-! ## Connections -/

theorem readDatabase (H : QuietEffects R allowed) (id : DatabaseId) : Within R id.read :=
  fun s => H.refl s

theorem query (H : QuietEffects R allowed) (c : ConnectionId) {statement : String}
    (values : List Value) (h : allowed (.text statement)) :
    Within R (c.query statement values).run :=
  H.queryRaw c values h

theorem queryWith (H : QuietEffects R allowed) (c : ConnectionId) {statement : Value}
    (values : Value) (h : allowed statement) : Within R (c.queryWith statement values).run := by
  unfold ConnectionId.queryWith
  split
  · split
    · exact H.queryRaw c _ h
    · exact H.refuse c _
  · exact H.queryRaw c _ h

/-- A call on a connection that is then given back. -/
theorem use (H : QuietEffects R allowed) (c : ConnectionId) {call : ConnectionId → SessionM α}
    (h : Within R (call c).run) : Within R (c.use call).run :=
  Within.run_always H.toChained h (Within.run_lift (H.release c))

theorem routeQuery (H : QuietEffects R allowed) (r : Route) {statement : String}
    (values : List Value) (h : allowed (.text statement)) :
    Within R (r.query statement values).run := by
  unfold Route.query
  split
  · exact H.query _ values h
  · exact Within.run_throw H.toChained _

/-- A call on the connection of a route, or on one of the pool. -/
theorem withConnection (H : QuietEffects R allowed) (id : DatabaseId) (r : Route)
    {call : ConnectionId → SessionM α} (h : ∀ c, Within R (call c).run) :
    Within R (id.withConnection r call).run := by
  unfold DatabaseId.withConnection
  split
  · exact h _
  · exact Within.run_bind H.toChained (H.connect id) fun c => H.use c (h c)
  · exact Within.run_throw H.toChained _

theorem onRoute (H : QuietEffects R allowed) (id : DatabaseId) (r : Route)
    {call : Route → SessionM α} (h : ∀ r, Within R (call r).run) :
    Within R (Session.onRoute id r call).run := by
  unfold Session.onRoute
  split
  · exact Within.run_bind H.toChained (H.connect id) fun c => H.use c (h _)
  · exact h _

end QuietEffects

end TableOps
