import TableOps.Proofs.Session.Plans

/-!
# Cached schemas that stay

Of the calls that commands and the management of tables are made of, two change what is cached: a
schema that was asked for is remembered, and the schema of a table is forgotten. All others leave
the cached schemas as they are.

* `Session.KeepsSchemas` — every database caches the same schemas.
* `Session.keepsSchemas_run` — the calls that keep them, whatever the driver answers.
* `Session.cached` — what is cached of a table; `Session.cached_remember`,
  `Session.cached_forgotten`, what is cached after a change.
* `Session.run_tableSchema_of_cached`, `Session.run_tableSchema_of_not_cached` — the two ways of
  looking a schema up.
-/

namespace TableOps

open Session

/-- What follows a success goes on with its result. -/
theorem SessionM.run_ofExcept_bind {α β : Type} (a : α) (f : α → SessionM β) (s : Session) :
    (SessionM.ofExcept (.ok a) >>= f).run.run s = (f a).run.run s :=
  rfl

/-- Reading a database changes nothing. -/
theorem DatabaseId.run_read_bind {α : Type} (d : DatabaseId) (f : Database → SessionM α)
    (s : Session) :
    ((liftM d.read : SessionM Database) >>= f).run.run s = (f (s.database d)).run.run s :=
  rfl

namespace Session

/-! ## Calls that keep them -/

/-- Every database caches the same schemas as before. -/
def KeepsSchemas (s s' : Session) : Prop :=
  ∀ d : DatabaseId, (s'.database d).schemas = (s.database d).schemas

theorem keepsSchemas_of_eq {s s' : Session} (h : s'.databases = s.databases) : KeepsSchemas s s' :=
  fun d => by rw [database, database, h]

theorem chained_keepsSchemas : Chained KeepsSchemas where
  refl _ _ := rfl
  trans hst htu d := (htu d).trans (hst d)

theorem keepsSchemas_idle (d : DatabaseId) (f : List RawId → List RawId) :
    Within KeepsSchemas (updateDatabase d fun x => { x with idle := f x.idle }) := by
  intro s d'
  rw [database_updateDatabase]
  split <;> rfl

/-- Calls on connections, handing connections out and running commands keep the cached schemas. -/
theorem keepsSchemas_run : RunEffects KeepsSchemas fun _ => True where
  toQuietEffects := by
    have hnote := fun level source text => Within.note chained_keepsSchemas
      (fun _ _ => keepsSchemas_of_eq rfl) level source text
    refine .ofSteps (fun c => ?_) ?_ fun s => keepsSchemas_of_eq rfl
    · exact
        { toChained := chained_keepsSchemas
          executed := fun _ _ _ _ _ => keepsSchemas_of_eq rfl
          quiet := fun _ _ _ => keepsSchemas_of_eq rfl
          nextReply := .nextReply chained_keepsSchemas fun _ _ => keepsSchemas_of_eq rfl
          note := hnote
          updateConnection := fun _ _ => keepsSchemas_of_eq rfl
          idle := keepsSchemas_idle }
    · exact
        { toChained := chained_keepsSchemas
          openRaw := fun _ => .openRaw chained_keepsSchemas (fun _ _ => keepsSchemas_of_eq rfl)
            fun _ _ => keepsSchemas_of_eq rfl
          note := hnote
          addConnection := fun _ _ => keepsSchemas_of_eq rfl
          idle := keepsSchemas_idle }
  updateCache _ _ _ := keepsSchemas_of_eq rfl

/-- What follows a call keeps the schemas that it leaves behind. -/
theorem keepsSchemas_bind {α β : Type} (x : SessionM α) {f : α → SessionM β}
    (hf : ∀ a, Within KeepsSchemas (f a).run) (s : Session) :
    KeepsSchemas (x.run.run s).2 ((x >>= f).run.run s).2 := by
  rw [run_bind]
  obtain ⟨r, t⟩ := x.run.run s
  cases r with
  | ok a => exact hf a t
  | error e => exact chained_keepsSchemas.refl t

/-! ## What is cached -/

/-- The schema that is cached of a table. -/
def cached (s : Session) (d : DatabaseId) (table : String) : Option TableSchema :=
  (s.database d).schemas.get? table

/-- No table has two cached schemas. -/
def CachesOnce (s : Session) : Prop :=
  ∀ d : DatabaseId, (s.database d).schemas.keys.Nodup

variable {s s' : Session} {d d' : DatabaseId} {table table' : String} {schema schema' : TableSchema}

theorem KeepsSchemas.cached_eq (h : KeepsSchemas s s') (d : DatabaseId) (table : String) :
    s'.cached d table = s.cached d table := by
  rw [cached, cached, h d]

theorem KeepsSchemas.cachesOnce (h : KeepsSchemas s s') (hs : s.CachesOnce) : s'.CachesOnce :=
  fun d => by
    rw [h d]
    exact hs d

theorem cachesOnce_schemas {f : Entries TableSchema → Entries TableSchema}
    (hf : ∀ schemas : Entries TableSchema, schemas.keys.Nodup → (f schemas).keys.Nodup)
    (hs : s.CachesOnce) :
    ((updateDatabase d fun x => { x with schemas := f x.schemas }).run s).2.CachesOnce := by
  intro d'
  rw [database_updateDatabase]
  split
  · exact hf _ (hs d')
  · exact hs d'

/-- What is cached after a change of the schemas of one database. -/
theorem cached_schemas (s : Session) (d d' : DatabaseId)
    (f : Entries TableSchema → Entries TableSchema) (table : String) :
    ((updateDatabase d fun x => { x with schemas := f x.schemas }).run s).2.cached d' table =
      if d' = d ∧ d.index < s.databases.length then (f (s.database d').schemas).get? table
      else s.cached d' table := by
  rw [cached, database_updateDatabase]
  split <;> rfl

/-- A database that is not there caches nothing. -/
theorem lt_of_cached (h : s.cached d table = some schema) : d.index < s.databases.length := by
  by_contra hlt
  rw [cached, database_of_length_le (Nat.le_of_not_lt hlt)] at h
  cases h

/-- A remembered schema is what is cached of its table, and nothing else has changed. -/
theorem cached_remember (h : ((d.remember table schema).run s).2.cached d' table' = some schema') :
    (d' = d ∧ table' = table ∧ schema' = schema) ∨
      ¬ (d' = d ∧ table' = table) ∧ s.cached d' table' = some schema' := by
  have hcached := cached_schemas s d d' (fun schemas => schemas.put table schema) table'
  rw [DatabaseId.remember, hcached] at h
  by_cases hd : d' = d ∧ d.index < s.databases.length
  · rw [if_pos hd, Entries.get?_put] at h
    by_cases ht : table = table'
    · rw [if_pos ht] at h
      exact .inl ⟨hd.1, ht.symm, (Option.some.inj h).symm⟩
    · rw [if_neg ht] at h
      exact .inr ⟨fun hboth => ht hboth.2.symm, h⟩
  · rw [if_neg hd] at h
    exact .inr ⟨fun hboth => hd ⟨hboth.1, hboth.1 ▸ lt_of_cached h⟩, h⟩

theorem cachesOnce_remember (hs : s.CachesOnce) (d : DatabaseId) (table : String)
    (schema : TableSchema) : ((d.remember table schema).run s).2.CachesOnce :=
  cachesOnce_schemas (f := fun schemas => schemas.put table schema)
    (fun _ hnodup => Entries.nodup_keys_put hnodup _ _) hs

/-- The session without the cached schema of a table. -/
def forgotten (d : DatabaseId) (s : Session) (table : String) : Session :=
  ((updateDatabase d fun x => { x with schemas := x.schemas.erase table }).run s).2

theorem cachesOnce_forgotten (hs : s.CachesOnce) (d : DatabaseId) (table : String) :
    (forgotten d s table).CachesOnce :=
  cachesOnce_schemas (f := fun schemas => schemas.erase table)
    (fun _ hnodup => Entries.nodup_keys_erase hnodup _) hs

/-- A schema that is forgotten is cached no more, and every other one is as before. -/
theorem cached_forgotten (hs : s.CachesOnce)
    (h : (forgotten d s table).cached d' table' = some schema') :
    ¬ (d' = d ∧ table' = table) ∧ s.cached d' table' = some schema' := by
  have hcached := cached_schemas s d d' (fun schemas => schemas.erase table) table'
  rw [forgotten, hcached] at h
  by_cases hd : d' = d ∧ d.index < s.databases.length
  · rw [if_pos hd] at h
    by_cases ht : table = table'
    · rw [ht, Entries.get?_erase_self (hs d')] at h
      cases h
    · rw [Entries.get?_erase_of_ne ht] at h
      exact ⟨fun hboth => ht hboth.2.symm, h⟩
  · rw [if_neg hd] at h
    exact ⟨fun hboth => hd ⟨hboth.1, hboth.1 ▸ lt_of_cached h⟩, h⟩

theorem cachesOnce_foldl_forgotten (hs : s.CachesOnce) (d : DatabaseId) (tables : List String) :
    (tables.foldl (forgotten d) s).CachesOnce := by
  induction tables generalizing s with
  | nil => exact hs
  | cons table tables ih => exact ih (cachesOnce_forgotten hs d table)

/-- The same for the schemas of several tables. -/
theorem cached_foldl_forgotten {tables : List String} (hs : s.CachesOnce)
    (h : (tables.foldl (forgotten d) s).cached d' table' = some schema') :
    (∀ table ∈ tables, ¬ (d' = d ∧ table' = table)) ∧ s.cached d' table' = some schema' := by
  induction tables generalizing s with
  | nil => exact ⟨fun _ htable => (List.not_mem_nil htable).elim, h⟩
  | cons table tables ih =>
    obtain ⟨hothers, h⟩ := ih (cachesOnce_forgotten hs d table) h
    obtain ⟨hne, h⟩ := cached_forgotten hs h
    exact ⟨List.forall_mem_cons.mpr ⟨hne, hothers⟩, h⟩

/-! ## Looking a schema up -/

/-- A schema that is cached is used as it is, and nothing is asked of the driver. -/
theorem run_tableSchema_of_cached {t : TableRef} (hparse : TableRef.parse table = .ok t)
    (h : (s.database d).schemas.get? t.name = some schema) (r : Route) :
    (d.tableSchema table r).run.run s = (.ok schema, s) := by
  unfold DatabaseId.tableSchema
  rw [hparse, SessionM.run_ofExcept_bind]
  dsimp only
  rw [DatabaseId.run_read_bind, h]
  rfl

/-- Any other schema is asked for and then remembered. -/
theorem run_tableSchema_of_not_cached {t : TableRef} (hparse : TableRef.parse table = .ok t)
    (h : (s.database d).schemas.get? t.name = none) (r : Route) :
    (d.tableSchema table r).run.run s = (do
      let schema ← d.describe (.text t.name) r
      d.remember t.name schema
      return schema : SessionM TableSchema).run.run s := by
  unfold DatabaseId.tableSchema
  rw [hparse, SessionM.run_ofExcept_bind]
  dsimp only
  rw [DatabaseId.run_read_bind, h]

/-- Asking for a schema keeps what is cached. -/
theorem keepsSchemas_describe (d : DatabaseId) (table : Value) (r : Route) :
    Within KeepsSchemas (d.describe table r).run :=
  keepsSchemas_run.describe (fun _ _ => trivial) d table r

end Session

end TableOps
