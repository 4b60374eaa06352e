import TableOps.Proofs.Session.KeptTotals
import TableOps.Proofs.Statement.EqualQueries

/-!
# Commands before they are run

A command comes to its statement in two parts: what it is to run is found out, and then it is run.
Finding out takes a connection and asks for schemas.

* `Plan` — a command that is ready to be run; `Plan.total` is the statement of its total.
* `Session.announced`, `Session.planned`, `Session.plan` — finding out what a command is to run.
* `Follows` — one call does what another one does, and something besides that at the end.

Main statement: `Session.follows_executePatched`, a command is its plan and what is run of it.
-/

namespace TableOps

open Session

/-! ## Plans -/

/-- A command with what it was filled in to. -/
inductive Filled where
  | expression (c : Command) (e : Expression) (schema : Option TableSchema)
  | sketch (s : Sketch)

/-- A command that is ready to be run, with the total it shares, where it runs, and the functions
that its transformers refer to. -/
structure Plan where
  filled : Filled
  cache : CacheId
  dialect : Dialect
  route : Route
  functions : Functions

namespace Plan

/-- The command with everything that running it takes. -/
def prepared (x : Plan) : Prepared :=
  match x.filled with
  | .expression c e schema =>
    .ofRequest c { c.request e with schema := schema } x.cache x.dialect x.route x.functions
  | .sketch s => .ofSketch s x.cache x.dialect x.route x.functions

/-- The query, for which a total is remembered. -/
def query (x : Plan) : Value :=
  x.prepared.query

/-- What the total is counted over. -/
def counted (x : Plan) : Counted :=
  match x.filled with
  | .expression c e _ => .ofRequest (c.request e)
  | .sketch s => .ofSketch s

/-- The statement that the total is asked for with. -/
def total (x : Plan) : Except Failure (Option Statement) :=
  x.prepared.statement .total true

theorem prepared_cache (x : Plan) : x.prepared.cache = x.cache := by
  obtain ⟨filled, cache, dialect, route, functions⟩ := x
  cases filled <;> rfl

theorem prepared_connection (x : Plan) : x.prepared.connection = x.route := by
  obtain ⟨filled, cache, dialect, route, functions⟩ := x
  cases filled <;> rfl

theorem total_eq (x : Plan) : x.total = some <$> x.counted.total x.dialect x.query := by
  obtain ⟨filled, cache, dialect, route, functions⟩ := x
  cases filled with
  | expression c e schema => exact Counted.compose_total_request (c.request e) dialect true
  | sketch s => exact Counted.compose_total_sketch s dialect true

/-- The plan is one of a page. -/
def IsPage (x : Plan) : Prop :=
  x.prepared.kind = some (.of .list) ∧ x.prepared.isPaged

instance (x : Plan) : Decidable x.IsPage :=
  inferInstanceAs (Decidable (_ ∧ _))

theorem IsPage.outcome_eq {x : Plan} (h : x.IsPage) : x.prepared.outcome = x.prepared.page := by
  unfold Prepared.outcome
  rw [h.1]
  exact if_pos h.2

/-- Only a page yields a total beside its rows. -/
theorem isPage_of_outcome {s s' : Session} {x : Plan} {rows : List Row} {n : Int}
    (h : x.prepared.outcome.run.run s = (.ok (.page rows n), s')) :
    x.IsPage := by
  unfold Prepared.outcome at h
  split at h
  · rename_i op hop
    cases op with
    | list =>
      by_cases hpaged : x.prepared.isPaged
      · exact ⟨hop, hpaged⟩
      · simp only [Prepared.runOperation, if_neg hpaged] at h
        obtain ⟨result, t, -, h⟩ := ok_of_run_bind h
        obtain ⟨shown, t, -, h⟩ := ok_of_run_bind h
        cases h
    | query | insert | update =>
      obtain ⟨result, t, -, h⟩ := ok_of_run_bind h
      obtain ⟨shown, t, -, h⟩ := ok_of_run_bind h
      cases h
    | delete =>
      obtain ⟨result, t, -, h⟩ := ok_of_run_bind h
      cases h
  · obtain ⟨result, t, -, h⟩ := ok_of_run_bind h
    cases h
  · cases h

/-- A page that succeeds yields rows and a total. -/
theorem IsPage.page_of_outcome {x : Plan} (hpage : x.IsPage) {s s' : Session} {o : Outcome}
    (h : x.prepared.outcome.run.run s = (.ok o, s')) : ∃ rows n, o = .page rows n := by
  rw [hpage.outcome_eq] at h
  obtain ⟨t, _, -, h⟩ := ok_of_run_bind h
  obtain ⟨result, t, -, h⟩ := ok_of_run_bind h
  obtain ⟨⟨rows, n⟩, t, -, h⟩ := ok_of_run_bind h
  obtain ⟨shown, t, -, h⟩ := ok_of_run_bind h
  cases h
  exact ⟨shown, n, rfl⟩

end Plan

/-! ## Finding out what to run -/

namespace Session

/-- The plan of a command with an expression. -/
def planOn (c : Command) (e : Expression) (cache : CacheId) (d : DatabaseId) (r : Route) :
    SessionM Plan := do
  let schema ← schemaFor c.schema (needsSchema · c e) (.ok e.table) d r
  let e ← SessionM.ofExcept (match schema with
    | some schema => autoFill c e schema
    | none => .ok e)
  let s ← get
  return ⟨.expression c e schema, cache, (s.database d).dialect, r, s.functions⟩

/-- The plan of a command with unread parts. -/
def planSketch (s : Sketch) (cache : CacheId) (d : DatabaseId) (r : Route) : SessionM Plan := do
  let given ← SessionM.ofExcept s.command.schema
  let schema ← schemaFor given s.needsSchema s.draft.table d r
  let draft ← SessionM.ofExcept (match schema with
    | some schema => s.fill schema
    | none => .ok s.draft)
  let sketch : Sketch := { s with draft := draft, schema := schema }
  let s ← get
  return ⟨.sketch sketch, cache, (s.database d).dialect, r, s.functions⟩

/-- The plan of a command on a connection. -/
def planFor (p : Patched) (shared : SharedExpression) (d : DatabaseId) (r : Route) :
    SessionM Plan :=
  if p.unread.isEmpty && shared.unread.isEmpty then
    planOn p.command shared.expression shared.cache d r
  else planSketch ⟨shared.toDraft, p, none⟩ shared.cache d r

/-- The connection of a route, taken from the pool if it is not the caller's. -/
def takeRoute (d : DatabaseId) (r : Route) : SessionM Route :=
  match r with
  | .pool => .own <$> d.connect
  | r => pure r

/-- The expression and the database of a command, once it is announced. -/
def announced (p : Patched) : SessionM (SharedExpression × DatabaseId) := do
  let (shared, d) ← resolve (← SessionM.ofExcept p.target)
  announce p shared.toDraft shared.cache d
  return (shared, d)

/-- The plan of a command that is announced. -/
def planned (p : Patched) (shared : SharedExpression) (d : DatabaseId) : SessionM Plan := do
  planFor p shared d (← takeRoute d (.ofValue (p.member "connection")))

/-- The plan of a command. -/
def plan (p : Patched) : SessionM Plan := do
  let (shared, d) ← announced p
  planned p shared d

theorem executeOn_eq (c : Command) (e : Expression) (cache : CacheId) (d : DatabaseId) (r : Route) :
    executeOn c e cache d r = planOn c e cache d r >>= fun x => x.prepared.outcome := by
  unfold executeOn planOn
  simp only [bind_assoc, pure_bind]
  rfl

theorem executeSketch_eq (s : Sketch) (cache : CacheId) (d : DatabaseId) (r : Route) :
    executeSketch s cache d r = planSketch s cache d r >>= fun x => x.prepared.outcome := by
  unfold executeSketch planSketch
  simp only [bind_assoc, pure_bind]
  rfl

end Session

/-! ## A command and its plan -/

/-- The first call does what the second one does and yields the same; what it does besides that
comes last and lies within a relation. -/
def Follows {α : Type} (R : Session → Session → Prop) (x y : SessionM α) : Prop :=
  ∀ s, (x.run.run s).1 = (y.run.run s).1 ∧ R (y.run.run s).2 (x.run.run s).2

namespace Follows

variable {R : Session → Session → Prop} {allowed : Value → Prop} {α β : Type}

theorem refl (h : Chained R) (x : SessionM α) : Follows R x x :=
  fun _ => ⟨rfl, h.refl _⟩

theorem bind (h : Chained R) (x : SessionM α) {f g : α → SessionM β}
    (hfg : ∀ a, Follows R (f a) (g a)) : Follows R (x >>= f) (x >>= g) := by
  intro s
  rw [run_bind, run_bind]
  obtain ⟨r, t⟩ := x.run.run s
  cases r with
  | ok a => exact hfg a t
  | error f => exact ⟨rfl, h.refl t⟩

/-- A connection is given back after the call. -/
theorem use (H : QuietEffects R allowed) (c : ConnectionId)
    (call : ConnectionId → SessionM α) : Follows R (c.use call) (call c) :=
  fun _ => ⟨rfl, H.release c _⟩

theorem onRoute (H : QuietEffects R allowed) (d : DatabaseId) (r : Route)
    (call : Route → SessionM α) : Follows R (onRoute d r call) (takeRoute d r >>= call) := by
  cases r with
  | pool =>
    unfold Session.onRoute takeRoute
    dsimp only
    rw [map_eq_pure_bind, bind_assoc]
    simp only [pure_bind]
    exact .bind H.toChained _ fun c => .use H c _
  | own c => exact .refl H.toChained _
  | unusable present => exact .refl H.toChained _

end Follows

namespace Session

variable {R : Session → Session → Prop} {allowed : Value → Prop}

/-- A command is announced, and then planned and run on its route. -/
theorem executePatched_eq (p : Patched) :
    executePatched p = announced p >>= fun (shared, d) =>
      onRoute d (.ofValue (p.member "connection")) fun r =>
        planFor p shared d r >>= fun x => x.prepared.outcome := by
  have hcall : ∀ (shared : SharedExpression) (d : DatabaseId),
      (fun r => if p.unread.isEmpty && shared.unread.isEmpty then
          executeOn p.command shared.expression shared.cache d r
        else executeSketch ⟨shared.toDraft, p, none⟩ shared.cache d r) =
        fun r => planFor p shared d r >>= fun x => x.prepared.outcome := by
    intro shared d
    funext r
    unfold planFor
    split
    · exact executeOn_eq _ _ _ _ _
    · exact executeSketch_eq _ _ _ _
  unfold executePatched announced
  simp only [bind_assoc, pure_bind, hcall]

/-- A command is its plan and what is run of it; a connection is given back behind that. -/
theorem follows_plan (H : QuietEffects R allowed) (p : Patched) :
    Follows R (executePatched p) (plan p >>= fun x => x.prepared.outcome) := by
  have hC := H.toChained
  rw [executePatched_eq]
  unfold plan planned
  simp only [bind_assoc]
  exact .bind hC _ fun ⟨shared, d⟩ => .onRoute H d _ _

/-- Giving the connection back leaves the remembered totals as they are. -/
theorem follows_executePatched (p : Patched) :
    Follows KeepsTotals (executePatched p) (plan p >>= fun x => x.prepared.outcome) :=
  follows_plan keepsTotals_effects.toQuietEffects p

variable {s s' : Session}

/-- Planning a command on a route looks a schema up at most. -/
theorem within_planFor {quiet : Session → Session → Prop} {r : Route}
    (H : SchemaEffects R quiet r) (p : Patched) (shared : SharedExpression) (d : DatabaseId) :
    Within R (planFor p shared d r).run := by
  have hC := H.toChained
  unfold planFor
  split
  · refine H.run_bind_after (H.schemaFor _ _ _ d) fun schema => ?_
    refine .run_bind hC (.run_ofExcept hC _) fun e => ?_
    exact .run_bind hC (.run_get hC) fun _ => .run_pure hC _
  · refine H.run_bind_before (.run_ofExcept hC _) fun given => ?_
    refine H.run_bind_after (H.schemaFor _ _ _ d) fun schema => ?_
    refine .run_bind hC (.run_ofExcept hC _) fun draft => ?_
    exact .run_bind hC (.run_get hC) fun _ => .run_pure hC _

/-- Planning a command that is announced asks for connections and schemas only. -/
theorem within_planned (H : SteadyEffects R allowed) (hI : ∀ st, IsIntrospection st → allowed st)
    (p : Patched) (shared : SharedExpression) (d : DatabaseId) :
    Within R (planned p shared d).run := by
  have hC := H.toChained
  unfold planned
  refine .run_bind hC ?_ fun r => within_planFor (H.schemaEffects hI r) p shared d
  unfold takeRoute
  split
  · exact .run_map hC (H.connect d) _
  · exact .run_pure hC _

theorem keepsTotals_planned (p : Patched) (shared : SharedExpression) (d : DatabaseId) :
    Within KeepsTotals (planned p shared d).run :=
  within_planned keepsTotals_effects (fun _ _ => trivial) p shared d

/-- Planning a command sends introspection at most. -/
theorem within_plan (H : CallEffects R allowed) (hI : ∀ st, IsIntrospection st → allowed st)
    (p : Patched) : Within R (plan p).run := by
  have hC := H.toChained
  unfold plan announced
  refine .run_bind hC (.run_bind hC (.run_ofExcept hC _) fun target => ?_) fun ⟨shared, d⟩ => ?_
  · refine .run_bind hC (H.resolve target) fun ⟨shared, d⟩ => ?_
    exact .run_bind hC (H.announce p _ _ d) fun _ => .run_pure hC _
  · exact within_planned H.toSteadyEffects hI p shared d

/-- A plan shares the total of its expression, and keeps to its route. -/
theorem of_planFor {p : Patched} {shared : SharedExpression} {d : DatabaseId} {r : Route} {x : Plan}
    (h : (planFor p shared d r).run.run s = (.ok x, s')) : x.cache = shared.cache ∧ x.route = r := by
  unfold planFor at h
  split at h
  · obtain ⟨schema, t, -, h⟩ := ok_of_run_bind h
    obtain ⟨e, t, -, h⟩ := ok_of_run_bind h
    obtain ⟨database, t, -, h⟩ := ok_of_run_bind h
    cases h
    exact ⟨rfl, rfl⟩
  · obtain ⟨given, t, -, h⟩ := ok_of_run_bind h
    obtain ⟨schema, t, -, h⟩ := ok_of_run_bind h
    obtain ⟨draft, t, -, h⟩ := ok_of_run_bind h
    obtain ⟨database, t, -, h⟩ := ok_of_run_bind h
    cases h
    exact ⟨rfl, rfl⟩

theorem cache_of_planned {p : Patched} {shared : SharedExpression} {d : DatabaseId} {x : Plan}
    (h : (planned p shared d).run.run s = (.ok x, s')) : x.cache = shared.cache := by
  obtain ⟨r, t, -, h⟩ := ok_of_run_bind h
  exact (of_planFor h).1

/-- What a command does on its route: a schema may be looked up, and then its statements are run. -/
theorem within_onRoute {quiet : Session → Session → Prop} {r : Route} {p : Patched}
    {shared : SharedExpression} (HS : SchemaEffects R quiet r)
    (HP : PreparedEffects quiet (fun _ => True) r shared.cache) (d : DatabaseId) :
    Within R (planFor p shared d r >>= fun x => x.prepared.outcome).run := by
  intro s
  have hplan := within_planFor HS p shared d s
  rw [run_bind]
  cases hrun : (planFor p shared d r).run.run s with
  | mk result t =>
    rw [hrun] at hplan
    cases result with
    | ok x =>
      obtain ⟨hcache, hroute⟩ := of_planFor hrun
      rw [← hcache, ← hroute, ← x.prepared_cache, ← x.prepared_connection] at HP
      exact HS.after hplan (HP.outcome (fun _ _ _ _ _ => trivial) t)
    | error f => exact hplan

end Session

end TableOps
