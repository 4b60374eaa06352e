import TableOps.Proofs.Log
import TableOps.Proofs.Session.KeptSchemas

/-!
# The history of cached schemas

What calls do about the schemas of tables is recorded, and what is cached is read off the record: at
most the schema that was asked for last, unless the table has been changed since.

* `SchemaFact` — an entry of the record.
* `standingSchema` — the schema that stands after a history; `introspected_of_standing` finds it
  there.
* `Patched.lookups` — what a command does about the schema of its table.
* `Session.CachesFrom` — what is cached in a session stands after a history.
* `Session.LooksUp` — what looking a schema up does to a session.

Main statement: `Session.looksUp_executePatched`, a command looks up one schema at most.
-/

namespace TableOps

open Session

/-! ## What is recorded -/

/-- What a call does about the schema of a table. -/
inductive SchemaFact where
  /-- The schema is asked for and remembered. -/
  | introspected (d : DatabaseId) (table : String) (schema : TableSchema)
  /-- The cached schema is used. -/
  | used (d : DatabaseId) (table : String) (schema : TableSchema)
  /-- A statement that changes the table has run, in a call that succeeds. -/
  | changed (d : DatabaseId) (table : String)
  /-- A statement that changes the table has run, in a call that fails. -/
  | halfway (d : DatabaseId) (table : String)

namespace SchemaFact

/-- A statement that changes the table has run. -/
def Executes (d : DatabaseId) (table : String) (f : SchemaFact) : Prop :=
  f = .changed d table ∨ f = .halfway d table

/-- The schema of the table is asked for again, or a call that changes the table succeeds. -/
def Replaces (d : DatabaseId) (table : String) (f : SchemaFact) : Prop :=
  f = .changed d table ∨ ∃ schema, f = .introspected d table schema

/-- The schema of a table that was asked for last, unless the table has been changed since. -/
def apply (d : DatabaseId) (table : String) (last : Option TableSchema) :
    SchemaFact → Option TableSchema
  | .introspected d' table' schema => if d' = d ∧ table' = table then some schema else last
  | .changed d' table' => if d' = d ∧ table' = table then none else last
  | .used .. | .halfway .. => last

end SchemaFact

/-- The schema of a table that stands after a history. -/
def standingSchema (history : List SchemaFact) (d : DatabaseId) (table : String) :
    Option TableSchema :=
  history.foldl (SchemaFact.apply d table) none

variable {history : List SchemaFact} {d d' : DatabaseId} {table table' : String}
  {schema schema' : TableSchema} {s s' : Session}

theorem standingSchema_append (history later : List SchemaFact) (d : DatabaseId) (table : String) :
    standingSchema (history ++ later) d table =
      later.foldl (SchemaFact.apply d table) (standingSchema history d table) :=
  List.foldl_append

theorem SchemaFact.apply_eq_some {last : Option TableSchema} {f : SchemaFact}
    (h : f.apply d table last = some schema) :
    f = .introspected d table schema ∨ ¬ f.Replaces d table ∧ last = some schema := by
  cases f with
  | introspected d' table' schema' =>
    rw [apply] at h
    split at h
    · rename_i heq
      obtain ⟨rfl, rfl⟩ := heq
      rw [Option.some.inj h]
      exact .inl rfl
    · rename_i hne
      refine .inr ⟨?_, h⟩
      rintro (hchanged | ⟨schema, heq⟩)
      · cases hchanged
      · cases heq
        exact hne ⟨rfl, rfl⟩
  | changed d' table' =>
    rw [apply] at h
    split at h
    · cases h
    · rename_i hne
      refine .inr ⟨?_, h⟩
      rintro (heq | ⟨schema, heq⟩)
      · cases heq
        exact hne ⟨rfl, rfl⟩
      · cases heq
  | used d' table' schema' =>
    refine .inr ⟨?_, h⟩
    rintro (heq | ⟨schema, heq⟩) <;> cases heq
  | halfway d' table' =>
    refine .inr ⟨?_, h⟩
    rintro (heq | ⟨schema, heq⟩) <;> cases heq

/-- What stands was asked for in the history, and was not replaced since. -/
theorem introspected_of_standing (h : standingSchema history d table = some schema) :
    ∃ before after, history = before ++ .introspected d table schema :: after ∧
      ∀ f ∈ after, ¬ f.Replaces d table := by
  obtain ⟨before, f, after, hhistory, rfl, hafter⟩ : ∃ before f after,
      history = before ++ f :: after ∧ f = .introspected d table schema ∧
        ∀ f' ∈ after, ¬ f'.Replaces d table :=
    Log.exists_of_known (f := SchemaFact.apply d table) (fun _ _ => SchemaFact.apply_eq_some) h
  exact ⟨before, after, hhistory, hafter⟩

/-! ## Looking schemas up -/

/-- What looking a schema up does: a cached schema is used, and another one is asked for. -/
def DatabaseId.lookups (d : DatabaseId) (table : String) (r : Route) (s : Session) :
    List SchemaFact :=
  match TableRef.parse table with
  | .error _ => []
  | .ok t =>
    match s.cached d t.name with
    | some schema => [.used d t.name schema]
    | none =>
      match ((d.tableSchema table r).run.run s).1 with
      | .ok schema => [.introspected d t.name schema]
      | .error _ => []

/-- What looking the schema of a command's table up does, if it is not given and is needed. -/
def schemaLookups (given : Option TableSchema) (needed : Dialect → Bool)
    (table : Except Failure TableRef) (d : DatabaseId) (r : Route) (s : Session) :
    List SchemaFact :=
  match given, table with
  | none, .ok t => if needed (s.database d).dialect then d.lookups t.name r s else []
  | _, _ => []

namespace Patched

/-- What a command does about the schema of its table, once it has its connection. -/
def lookupsOn (p : Patched) (shared : SharedExpression) (d : DatabaseId) (r : Route)
    (s : Session) : List SchemaFact :=
  if p.unread.isEmpty && shared.unread.isEmpty then
    schemaLookups p.command.schema (needsSchema · p.command shared.expression)
      (.ok shared.expression.table) d r s
  else
    match p.schema with
    | .error _ => []
    | .ok given =>
      schemaLookups given (Sketch.mk shared.toDraft p none).needsSchema shared.toDraft.table d r s

/-- What a command does about the schema of its table. -/
def lookups (p : Patched) (s : Session) : List SchemaFact :=
  match (announced p).run.run s with
  | (.error _, _) => []
  | (.ok (shared, d), t) =>
    match (takeRoute d (.ofValue (p.member "connection"))).run.run t with
    | (.error _, _) => []
    | (.ok r, u) => p.lookupsOn shared d r u

end Patched

/-! ## What is cached after a history -/

namespace Session

/-- What is cached in a session stands after a history. -/
structure CachesFrom (s : Session) (history : List SchemaFact) : Prop where
  standing : ∀ d table schema, s.cached d table = some schema →
    standingSchema history d table = some schema
  once : s.CachesOnce

namespace CachesFrom

theorem keeps (h : s.CachesFrom history) (hkeeps : KeepsSchemas s s') : s'.CachesFrom history where
  standing d table schema hcached := h.standing d table schema (hkeeps.cached_eq d table ▸ hcached)
  once := hkeeps.cachesOnce h.once

/-- What replaces no schema may be added to the history. -/
theorem append (h : s.CachesFrom history) {later : List SchemaFact}
    (hlater : ∀ f ∈ later, ∀ d table last, f.apply d table last = last) :
    s.CachesFrom (history ++ later) where
  standing d table schema hcached := by
    rw [standingSchema_append, h.standing d table schema hcached]
    exact Log.known_eq_self fun f hf => hlater f hf d table
  once := h.once

/-- A schema that is remembered stands, and every other one stands as before. -/
theorem remember (h : s.CachesFrom history) (d : DatabaseId) (table : String)
    (schema : TableSchema) :
    ((d.remember table schema).run s).2.CachesFrom (history ++ [.introspected d table schema]) where
  standing d' table' schema' hcached := by
    rw [standingSchema_append, List.foldl_cons, List.foldl_nil, SchemaFact.apply]
    rcases cached_remember hcached with ⟨rfl, rfl, rfl⟩ | ⟨hne, hcached⟩
    · rw [if_pos ⟨rfl, rfl⟩]
    · rw [if_neg fun heq => hne ⟨heq.1.symm, heq.2.symm⟩]
      exact h.standing d' table' schema' hcached
  once := cachesOnce_remember h.once d table schema

/-- Fewer schemas may be cached than stand. -/
theorem of_cached (h : s.CachesFrom history) (hcached : ∀ d table schema,
      s'.cached d table = some schema → s.cached d table = some schema) (honce : s'.CachesOnce) :
    s'.CachesFrom history where
  standing d table schema hs' := h.standing d table schema (hcached d table schema hs')
  once := honce

/-- Schemas of tables that were changed are forgotten. -/
theorem forget (h : s.CachesFrom history) (d : DatabaseId) (tables : List String) :
    (tables.foldl (forgotten d) s).CachesFrom (history ++ tables.map (.changed d)) where
  standing d' table' schema' hcached := by
    obtain ⟨hothers, hcached⟩ := cached_foldl_forgotten h.once hcached
    rw [standingSchema_append, ← h.standing d' table' schema' hcached]
    refine Log.known_eq_self fun f hf last => ?_
    obtain ⟨table, htable, rfl⟩ := List.mem_map.mp hf
    exact if_neg fun heq => hothers table htable ⟨heq.1.symm, heq.2.symm⟩
  once := cachesOnce_foldl_forgotten h.once d tables

end CachesFrom

/-! ## Calls that look schemas up -/

/-- What looking a schema up does to a session, with what it records. -/
inductive LooksUp (s : Session) : List SchemaFact → Session → Prop where
  /-- No schema is needed, or none can be had. -/
  | nothing {s' : Session} (hkeeps : KeepsSchemas s s') : LooksUp s [] s'
  /-- What is cached is used. -/
  | used {s' : Session} {d : DatabaseId} {table : String} {schema : TableSchema}
      (hcached : s.cached d table = some schema) (hkeeps : KeepsSchemas s s') :
      LooksUp s [.used d table schema] s'
  /-- A schema is asked for and remembered. -/
  | introspected {t s' : Session} (d : DatabaseId) (table : String) (schema : TableSchema)
      (hasked : KeepsSchemas s t) (hkeeps : KeepsSchemas ((d.remember table schema).run t).2 s') :
      LooksUp s [.introspected d table schema] s'

namespace LooksUp

variable {t : Session} {facts : List SchemaFact}

/-- Calls in front that keep the cached schemas do not matter. -/
theorem before (hkeeps : KeepsSchemas s t) (h : t.LooksUp facts s') : s.LooksUp facts s' := by
  cases h with
  | nothing h => exact .nothing (chained_keepsSchemas.trans hkeeps h)
  | used hcached h =>
    exact .used (hkeeps.cached_eq _ _ ▸ hcached) (chained_keepsSchemas.trans hkeeps h)
  | introspected d table schema hasked h =>
    exact .introspected d table schema (chained_keepsSchemas.trans hkeeps hasked) h

/-- Neither do calls behind it. -/
theorem after (h : s.LooksUp facts t) (hkeeps : KeepsSchemas t s') : s.LooksUp facts s' := by
  cases h with
  | nothing h => exact .nothing (chained_keepsSchemas.trans h hkeeps)
  | used hcached h => exact .used hcached (chained_keepsSchemas.trans h hkeeps)
  | introspected d table schema hasked h =>
    exact .introspected d table schema hasked (chained_keepsSchemas.trans h hkeeps)

theorem cachesFrom (h : s.LooksUp facts s') (hs : s.CachesFrom history) :
    s'.CachesFrom (history ++ facts) := by
  cases h with
  | nothing hkeeps =>
    rw [List.append_nil]
    exact hs.keeps hkeeps
  | used hcached hkeeps =>
    refine (hs.keeps hkeeps).append fun f hf _ _ _ => ?_
    rw [List.mem_singleton.mp hf]
    rfl
  | introspected d table schema hasked hkeeps =>
    exact ((hs.keeps hasked).remember d table schema).keeps hkeeps

/-- A schema that is used was cached, and nothing else is recorded then. -/
theorem cached_of_used (h : s.LooksUp facts s') (hused : .used d table schema ∈ facts) :
    facts = [.used d table schema] ∧ s.cached d table = some schema := by
  cases h with
  | nothing => cases hused
  | used hcached =>
    cases List.mem_singleton.mp hused
    exact ⟨rfl, hcached⟩
  | introspected => cases List.mem_singleton.mp hused

/-- As long as no schema is asked for with success, what is cached stays. -/
theorem keepsSchemas (h : s.LooksUp facts s')
    (hnone : ∀ d table schema, .introspected d table schema ∉ facts) : KeepsSchemas s s' := by
  cases h with
  | nothing hkeeps => exact hkeeps
  | used _ hkeeps => exact hkeeps
  | introspected d table schema => exact absurd List.mem_cons_self (hnone d table schema)

end LooksUp

/-- Looking up the schema of a table. -/
theorem looksUp_tableSchema (d : DatabaseId) (table : String) (r : Route) (s : Session) :
    s.LooksUp (d.lookups table r s) ((d.tableSchema table r).run.run s).2 := by
  unfold DatabaseId.lookups
  cases hparse : TableRef.parse table with
  | error f =>
    refine .nothing ?_
    unfold DatabaseId.tableSchema
    rw [hparse]
    exact chained_keepsSchemas.refl s
  | ok t =>
    dsimp only
    cases hcached : s.cached d t.name with
    | some schema =>
      rw [run_tableSchema_of_cached hparse hcached]
      exact .used hcached (chained_keepsSchemas.refl s)
    | none =>
      have hdescribed := keepsSchemas_describe d (.text t.name) r s
      have hlooked := run_tableSchema_of_not_cached hparse hcached r
      rw [run_bind] at hlooked
      rw [hlooked]
      cases hrun : (d.describe (.text t.name) r).run.run s with
      | mk result u =>
        rw [hrun] at hdescribed
        cases result with
        | error f => exact .nothing hdescribed
        | ok schema => exact .introspected d t.name schema hdescribed (chained_keepsSchemas.refl _)

/-- Looking up the schema of a command's table. -/
theorem looksUp_schemaFor (given : Option TableSchema) (needed : Dialect → Bool)
    (table : Except Failure TableRef) (d : DatabaseId) (r : Route) (s : Session) :
    s.LooksUp (schemaLookups given needed table d r s)
      ((schemaFor given needed table d r).run.run s).2 := by
  unfold schemaFor schemaLookups
  cases given with
  | some schema => exact .nothing (chained_keepsSchemas.refl s)
  | none =>
    cases table with
    | error f =>
      refine .nothing ?_
      show KeepsSchemas s ((if needed (s.database d).dialect then _ else _ :
        SessionM (Option TableSchema)).run.run s).2
      split <;> exact chained_keepsSchemas.refl s
    | ok t =>
      show s.LooksUp _ ((if needed (s.database d).dialect then _ else _ :
        SessionM (Option TableSchema)).run.run s).2
      dsimp only
      split
      · show s.LooksUp _ ((some <$> d.tableSchema t.name r).run.run s).2
        rw [← bind_pure_comp]
        refine (looksUp_tableSchema d t.name r s).after ?_
        exact keepsSchemas_bind _ (fun _ => .run_pure chained_keepsSchemas _) s
      · exact .nothing (chained_keepsSchemas.refl s)

/-- Looking up the schema that planning a command takes. -/
theorem looksUp_planFor (p : Patched) (shared : SharedExpression) (d : DatabaseId) (r : Route)
    (s : Session) :
    s.LooksUp (p.lookupsOn shared d r s) ((planFor p shared d r).run.run s).2 := by
  have hC := chained_keepsSchemas
  have H := keepsSchemas_run
  unfold planFor Patched.lookupsOn
  split
  · refine (looksUp_schemaFor _ _ _ d r s).after (keepsSchemas_bind _ (fun schema => ?_) s)
    refine .run_bind hC (.run_ofExcept hC _) fun e => ?_
    exact .run_bind hC (.run_get hC) fun _ => .run_pure hC _
  · unfold planSketch
    cases hgiven : p.schema with
    | error f => exact .nothing (hC.refl s)
    | ok given =>
      refine (looksUp_schemaFor given _ _ d r s).after (keepsSchemas_bind _ (fun schema => ?_) s)
      refine .run_bind hC (.run_ofExcept hC _) fun draft => ?_
      exact .run_bind hC (.run_get hC) fun _ => .run_pure hC _

theorem keepsSchemas_announced (p : Patched) : Within KeepsSchemas (announced p).run := by
  have hC := chained_keepsSchemas
  unfold announced
  refine .run_bind hC (.run_ofExcept hC _) fun target => ?_
  refine .run_bind hC (keepsSchemas_run.resolve target) fun found => ?_
  exact .run_bind hC (keepsSchemas_run.announce p _ _ _) fun _ => .run_pure hC _

theorem keepsSchemas_takeRoute (d : DatabaseId) (r : Route) :
    Within KeepsSchemas (takeRoute d r).run := by
  unfold takeRoute
  split
  · exact .run_map chained_keepsSchemas (keepsSchemas_run.connect d) _
  · exact .run_pure chained_keepsSchemas _

theorem looksUp_plan (p : Patched) (s : Session) :
    s.LooksUp (p.lookups s) ((plan p).run.run s).2 := by
  have hannounced := keepsSchemas_announced p s
  unfold plan Patched.lookups
  rw [run_bind]
  cases hrun : (announced p).run.run s with
  | mk result t =>
    rw [hrun] at hannounced
    cases result with
    | error f => exact .nothing hannounced
    | ok found =>
      obtain ⟨shared, d⟩ := found
      have htaken := keepsSchemas_takeRoute d (.ofValue (p.member "connection")) t
      dsimp only
      unfold planned
      rw [run_bind]
      cases hroute : (takeRoute d (.ofValue (p.member "connection"))).run.run t with
      | mk result u =>
        rw [hroute] at htaken
        cases result with
        | error f => exact .nothing (chained_keepsSchemas.trans hannounced htaken)
        | ok r => exact ((looksUp_planFor p shared d r u).before htaken).before hannounced

/-- A command looks up the schema of its table at most, whatever the driver answers. -/
theorem looksUp_executePatched (p : Patched) (s : Session) :
    s.LooksUp (p.lookups s) ((executePatched p).run.run s).2 := by
  have hfollows := (follows_plan keepsSchemas_run.toQuietEffects p s).2
  refine LooksUp.after ?_ hfollows
  refine (looksUp_plan p s).after (keepsSchemas_bind _ (fun x => ?_) s)
  exact keepsSchemas_run.outcome fun _ _ _ _ _ => trivial

end Session

end TableOps
