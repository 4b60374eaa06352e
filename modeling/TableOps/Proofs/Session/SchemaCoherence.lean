import TableOps.Proofs.Command.Reading
import TableOps.Proofs.Reference.PlainNames
import TableOps.Proofs.Session.Exchanges
import TableOps.Proofs.Session.SchemaHistory
import TableOps.Proofs.Session.WholeCalls

/-!
# Cached schemas and changed tables

A change of a table forgets its cached schema behind its last statement. When all statements run,
the next command that needs the schema asks for it again; when one of them fails behind another one
that has run, the old schema stays and is used.

* `Yields` — what a call yields when it succeeds.
* `SchemaChange` — the calls that change tables; `SchemaChange.forgets_run`, what they do to cached
  schemas.
* `SchemaCall` — these and the calls that look schemas up or forget them, with what they record.
* `SchemaRun` — the runs of such calls; `SchemaRun.cachesFrom` is what holds at their ends.

Main statement: `SchemaRun.coherence`, which changes lie between asking for a schema and its use.
-/

namespace TableOps

open Session

/-! ## What calls yield -/

/-- Whatever a call yields has a property. -/
def Yields {α : Type} (P : α → Prop) (x : SessionM α) : Prop :=
  ∀ s a t, x.run.run s = (.ok a, t) → P a

namespace Yields

variable {α β : Type} {P : α → Prop} {x : SessionM α}

theorem pure {a : α} (h : P a) : Yields P (Pure.pure a : SessionM α) := by
  intro s a' t hrun
  cases hrun
  exact h

theorem throw_bind (f : Failure) (g : β → SessionM α) : Yields P (throw f >>= g) :=
  fun _ _ _ hrun => nomatch hrun

theorem throw (f : Failure) : Yields P (throw f : SessionM α) :=
  fun _ _ _ hrun => nomatch hrun

theorem ofExcept {y : Except Failure α} (h : ∀ a, y = .ok a → P a) :
    Yields P (SessionM.ofExcept y) :=
  fun _ a _ hrun => h a (congrArg Prod.fst hrun)

theorem bind (y : SessionM β) {f : β → SessionM α} (h : ∀ b, Yields P (f b)) :
    Yields P (y >>= f) := by
  intro s a t hrun
  obtain ⟨b, u, -, hrun⟩ := ok_of_run_bind hrun
  exact h b u a t hrun

theorem ofExcept_bind {y : Except Failure β} {f : β → SessionM α}
    (h : ∀ b, y = .ok b → Yields P (f b)) : Yields P (SessionM.ofExcept y >>= f) := by
  intro s a t hrun
  obtain ⟨b, u, hy, hrun⟩ := ok_of_run_bind hrun
  exact h b (congrArg Prod.fst hy) u a t hrun

/-- A cleanup does not change what is yielded. -/
theorem always (h : Yields P x) (cleanup : SessionM Unit) : Yields P (x.always cleanup) := by
  intro s a t hrun
  unfold SessionM.always at hrun
  rw [ExceptT.run_mk, StateT.run_bind] at hrun
  cases hx : x.run.run s with
  | mk result u =>
    rw [hx] at hrun
    replace hrun : (cleanup.run >>= _ : StateM Session (Except Failure α)).run u = (.ok a, t) :=
      hrun
    rw [StateT.run_bind] at hrun
    cases hdone : cleanup.run.run u with
    | mk done v =>
      rw [hdone] at hrun
      cases done with
      | ok =>
        cases hrun
        exact h s a u hx
      | error => cases hrun

theorem withConnection {call : ConnectionId → SessionM α} (h : ∀ c, Yields P (call c))
    (d : DatabaseId) (r : Route) : Yields P (d.withConnection r call) := by
  unfold DatabaseId.withConnection
  split
  · exact h _
  · exact .bind _ fun c => .always (h c) _
  · exact .throw _

end Yields

/-- The schema that an engine reports for a table has the name of the table. -/
theorem Introspection.title_of_schemaOf {table : String} {columns : Keyed ColumnType}
    {keys : List Value} {options : Entries Value} {schema : TableSchema}
    (h : schemaOf (.text table) columns keys options = .ok schema) : schema.title = table := by
  obtain ⟨named, names, hnamed, -, rfl⟩ := Check.passes_of_seq (Check.passes_of_toExcept h)
  obtain ⟨titled, members, htitled, -, rfl⟩ := Check.passes_of_seq hnamed
  obtain ⟨title, htitle, rfl⟩ := Check.passes_of_map htitled
  cases htitle
  rfl

theorem yields_describe (d : Dialect) (c : ConnectionId) (table : String) :
    Yields (·.title = table) (d.describe c (.text table)) := by
  unfold Dialect.describe
  dsimp only
  split
  · refine .bind _ fun name => .bind _ fun columns => ?_
    split
    · exact .throw_bind _ _
    · refine .bind _ fun keys => .bind _ fun status => .ofExcept fun schema hschema => ?_
      obtain ⟨keys, -, hschema⟩ := ok_of_bind hschema
      obtain ⟨columns, -, hschema⟩ := ok_of_bind hschema
      obtain ⟨names, -, hschema⟩ := ok_of_bind hschema
      exact Introspection.title_of_schemaOf hschema
  · refine .bind _ fun columns => ?_
    split
    · exact .throw_bind _ _
    · refine .bind _ fun keys => .ofExcept fun schema hschema => ?_
      obtain ⟨rows, -, hschema⟩ := ok_of_bind hschema
      obtain ⟨columns, -, hschema⟩ := ok_of_bind hschema
      obtain ⟨names, -, hschema⟩ := ok_of_bind hschema
      exact Introspection.title_of_schemaOf hschema

/-! ## Changes of tables -/

/-- The driver has run the statement. -/
def Reply.isDone : Reply → Bool
  | .done .. => true
  | .refused _ => false

/-- A change of tables. -/
inductive SchemaChange where
  | create (schema : TableSchema)
  | alter (change : TableChange)
  | delete (table : String)
  | rename (old new : String)

namespace SchemaChange

/-- Makes the change. -/
def run (x : SchemaChange) (d : DatabaseId) (r : Route) : SessionM Unit :=
  match x with
  | .create schema => createTable schema d r
  | .alter change => alterTable change d r
  | .delete table => deleteTable (.text table) d r
  | .rename old new => renameTable (.text old) (.text new) d r

/-- The tables that are changed. -/
def tables : SchemaChange → List String
  | .create schema => [schema.title]
  | .alter change => [change.title]
  | .delete table => [table]
  | .rename old new => [old, new]

/-- What a change does to its tables, if any of its statements has run. -/
def facts (x : SchemaChange) (d : DatabaseId) (r : Route) (s : Session) : List SchemaFact :=
  let (result, t) := (x.run d r).run.run s
  if (s.exchanges t).any (·.reply.isDone) then
    x.tables.map (if result.isOk then .changed d else .halfway d)
  else []

/-- A change of tables looks no schema up. -/
theorem executes_of_mem_facts {x : SchemaChange} {d : DatabaseId} {r : Route} {s : Session}
    {f : SchemaFact} (h : f ∈ x.facts d r s) : ∃ table, f.Executes d table := by
  unfold facts at h
  cases hrun : (x.run d r).run.run s with
  | mk result t =>
    rw [hrun] at h
    dsimp only at h
    split at h
    · obtain ⟨table, -, rfl⟩ := List.mem_map.mp h
      refine ⟨table, ?_⟩
      split
      · exact .inl rfl
      · exact .inr rfl
    · cases h

end SchemaChange

/-- A call keeps the cached schemas and fails, or it forgets those of some tables at its end. -/
def Forgets (d : DatabaseId) (tables : List String) (x : SessionM Unit) : Prop :=
  ∀ s, ∃ t, KeepsSchemas s t ∧ ((∃ f, x.run.run s = (.error f, t)) ∨
    x.run.run s = (.ok (), tables.foldl (forgotten d) t))

namespace Forgets

variable {d : DatabaseId} {tables : List String} {α : Type}

theorem bind {x : SessionM α} {f : α → SessionM Unit} (hx : Within KeepsSchemas x.run)
    {P : α → Prop} (hyields : Yields P x) (hf : ∀ a, P a → Forgets d tables (f a)) :
    Forgets d tables (x >>= f) := by
  intro s
  have hkeeps := hx s
  rw [run_bind]
  cases hrun : x.run.run s with
  | mk result t =>
    rw [hrun] at hkeeps
    cases result with
    | error e => exact ⟨t, hkeeps, .inl ⟨e, rfl⟩⟩
    | ok a =>
      obtain ⟨u, hu, hcases⟩ := hf a (hyields s a t hrun) t
      exact ⟨u, chained_keepsSchemas.trans hkeeps hu, hcases⟩

/-- What the first call yields does not matter. -/
theorem bind_any {x : SessionM α} {f : α → SessionM Unit} (hx : Within KeepsSchemas x.run)
    (hf : ∀ a, Forgets d tables (f a)) : Forgets d tables (x >>= f) :=
  .bind hx (P := fun _ => True) (fun _ _ _ _ => trivial) fun a _ => hf a

theorem run_invalidate {table : String} (h : TableRef.IsPlain table) (d : DatabaseId)
    (s : Session) : (d.invalidate (some table)).run.run s = (.ok (), forgotten d s table) := by
  unfold DatabaseId.invalidate
  dsimp only
  rw [TableRef.parse_of_isPlain h]
  rfl

theorem invalidate {table : String} (h : TableRef.IsPlain table) :
    Forgets d [table] (d.invalidate (some table)) :=
  fun s => ⟨s, chained_keepsSchemas.refl s, .inr (run_invalidate h d s)⟩

theorem invalidate_both {old new : String} (hold : TableRef.IsPlain old)
    (hnew : TableRef.IsPlain new) : Forgets d [old, new] (do
      d.invalidate (some old)
      d.invalidate (some new)) := by
  intro s
  refine ⟨s, chained_keepsSchemas.refl s, .inr ?_⟩
  rw [run_bind, run_invalidate hold]
  exact run_invalidate hnew d _

end Forgets

/-- A change of tables forgets their cached schemas when it succeeds, and keeps all of them when it
fails. -/
theorem SchemaChange.forgets_run {x : SchemaChange} (h : ∀ table ∈ x.tables, TableRef.IsPlain table)
    (d : DatabaseId) (r : Route) : Forgets d x.tables (x.run d r) := by
  have hC := chained_keepsSchemas
  have H := keepsSchemas_run.toQuietEffects
  cases x with
  | create schema =>
    refine .bind_any (.run_liftM (H.readDatabase d)) fun database => ?_
    refine .bind_any (.run_ofExcept hC _) fun text => ?_
    refine .bind_any (.run_liftM (H.note _ _ _)) fun _ => ?_
    refine .bind_any (H.withConnection d r fun c => H.query c _ trivial) fun _ => ?_
    exact .invalidate (h _ List.mem_cons_self)
  | alter change =>
    show Forgets d _ (alterTable change d r)
    unfold alterTable
    refine .bind_any (.run_liftM (H.readDatabase d)) fun database => ?_
    refine .bind_any (.run_ofExcept hC _) fun statements => ?_
    refine .bind_any (.run_liftM (H.note _ _ _)) fun _ => ?_
    dsimp only
    split
    · exact .invalidate (h _ List.mem_cons_self)
    · refine .bind_any (H.withConnection d _ fun c => H.queryAll c _) fun _ => ?_
      exact .invalidate (h _ List.mem_cons_self)
  | delete table =>
    refine .bind_any (.run_liftM (H.note _ _ _)) fun _ => ?_
    refine .bind_any (.run_liftM (H.readDatabase d)) fun database => ?_
    -- the name is read on the connection, and comes back as it is
    refine .bind (P := (· = table)) (H.withConnection d r fun c => ?_)
      (.withConnection (fun c => ?_) d r) fun name hname => ?_
    · refine .run_bind hC (.run_ofExcept hC _) fun name => ?_
      exact .run_bind hC (H.query c _ trivial) fun _ => .run_pure hC _
    · refine .ofExcept_bind fun name hname => .bind _ fun _ => .pure ?_
      exact (Except.ok.inj hname).symm
    · rw [hname]
      exact .invalidate (h _ List.mem_cons_self)
  | rename old new =>
    refine .bind_any (.run_liftM (H.note _ _ _)) fun _ => ?_
    refine .bind_any (.run_liftM (H.readDatabase d)) fun database => ?_
    refine .bind (P := (· = (old, new))) (H.withConnection d r fun c => ?_)
      (.withConnection (fun c => ?_) d r) fun names hnames => ?_
    · refine .run_bind hC (.run_ofExcept hC _) fun oldName => ?_
      refine .run_bind hC (.run_ofExcept hC _) fun newName => ?_
      exact .run_bind hC (H.query c _ trivial) fun _ => .run_pure hC _
    · refine .ofExcept_bind fun oldName hold => .ofExcept_bind fun newName hnew => ?_
      refine .bind _ fun _ => .pure ?_
      rw [← Except.ok.inj hold, ← Except.ok.inj hnew]
    · rw [hnames]
      exact .invalidate_both (h _ List.mem_cons_self)
        (h _ (List.mem_cons_of_mem _ List.mem_cons_self))

/-! ## Calls about schemas -/

/-- A call that looks a schema up, forgets one or changes tables. -/
inductive SchemaCall where
  | execute (p : Patched)
  | tableSchema (d : DatabaseId) (table : String) (r : Route)
  | describe (d : DatabaseId) (table : String) (r : Route)
  | invalidate (d : DatabaseId) (table : Option String)
  | change (x : SchemaChange) (d : DatabaseId) (r : Route)

namespace SchemaCall

/-- Runs the call and passes over what it yields. -/
def run : SchemaCall → SessionM Unit
  | .execute p => do let _ ← executePatched p
  | .tableSchema d table r => do let _ ← d.tableSchema table r
  | .describe d table r => do let _ ← describeTable (.text table) d r
  | .invalidate d table => d.invalidate table
  | .change x d r => x.run d r

/-- What the call does about schemas. -/
def facts (call : SchemaCall) (s : Session) : List SchemaFact :=
  match call with
  | .execute p => p.lookups s
  | .tableSchema d table r => d.lookups table r s
  | .describe d table r =>
    match ((describeTable (.text table) d r).run.run s).1 with
    | .ok schema => [.introspected d table schema]
    | .error _ => []
  | .invalidate .. => []
  | .change x d r => x.facts d r s

/-- The session after the call. -/
def after (call : SchemaCall) (s : Session) : Session :=
  (call.run.run.run s).2

/-- The call is one that looks a schema up. -/
def Looks : SchemaCall → Prop
  | .execute .. | .tableSchema .. | .describe .. => True
  | .invalidate .. | .change .. => False

/-- The tables that are changed have plain names. -/
def ChangesPlain : SchemaCall → Prop
  | .change x _ _ => ∀ table ∈ x.tables, TableRef.IsPlain table
  | _ => True

variable {s : Session} {history : List SchemaFact}

/-- Passing over what a call yields changes nothing else. -/
theorem run_discard {α : Type} (x : SessionM α) (s : Session) :
    ((do let _ ← x : SessionM Unit).run.run s).2 = (x.run.run s).2 := by
  show ((x >>= fun _ => Pure.pure () : SessionM Unit).run.run s).2 = _
  rw [run_bind]
  rcases x.run.run s with ⟨_ | _, _⟩ <;> rfl

/-- Describing a table remembers its schema when that could be had. -/
theorem looksUp_describe (d : DatabaseId) (table : String) (r : Route) (s : Session) :
    s.LooksUp (facts (.describe d table r) s) ((describeTable (.text table) d r).run.run s).2 := by
  have H := keepsSchemas_run.toQuietEffects
  have hkeeps := H.withConnection d r
    (fun c => H.describeOn (fun _ _ => trivial) (s.database d).dialect c (.text table)) s
  have htitle := Yields.withConnection
    (fun c => yields_describe (s.database d).dialect c table) d r s
  unfold facts describeTable
  dsimp only
  rw [DatabaseId.run_read_bind, run_bind]
  cases hrun : (d.withConnection r fun c =>
      (s.database d).dialect.describe c (.text table)).run.run s with
  | mk result t =>
    rw [hrun] at hkeeps
    cases result with
    | error f => exact .nothing hkeeps
    | ok schema =>
      rw [← htitle schema t hrun]
      exact .introspected d schema.title schema hkeeps (chained_keepsSchemas.refl _)

/-- What the calls do that look a schema up. -/
theorem looksUp (call : SchemaCall) (h : call.Looks) (s : Session) :
    s.LooksUp (call.facts s) (call.after s) := by
  unfold after
  cases call with
  | execute p =>
    rw [run, run_discard]
    exact looksUp_executePatched p s
  | tableSchema d table r =>
    rw [run, run_discard]
    exact looksUp_tableSchema d table r s
  | describe d table r =>
    rw [run, run_discard]
    exact looksUp_describe d table r s
  | invalidate d table => exact h.elim
  | change x d r => exact h.elim

/-- Forgetting schemas leaves some of those that were cached. -/
theorem cachesFrom_invalidate (h : s.CachesFrom history) (d : DatabaseId) (table : Option String) :
    ((d.invalidate table).run.run s).2.CachesFrom history := by
  unfold DatabaseId.invalidate
  cases table with
  | none =>
    refine h.of_cached (fun d' table' schema hcached => ?_)
      (cachesOnce_schemas (f := fun _ => []) (fun _ _ => List.nodup_nil) h.once)
    have hnone := (cached_schemas s d d' (fun _ => []) table').symm.trans hcached
    split at hnone
    · cases hnone
    · exact hnone
  | some table =>
    dsimp only
    cases hparse : TableRef.parse table with
    | error f => exact h
    | ok t =>
      exact h.of_cached (fun _ _ _ hcached => (cached_forgotten h.once hcached).2)
        (cachesOnce_forgotten h.once d t.name)

theorem cachesFrom_change (h : s.CachesFrom history) {x : SchemaChange}
    (hplain : ∀ table ∈ x.tables, TableRef.IsPlain table) (d : DatabaseId) (r : Route) :
    ((x.run d r).run.run s).2.CachesFrom (history ++ x.facts d r s) := by
  obtain ⟨t, hkeeps, ⟨f, hrun⟩ | hrun⟩ := x.forgets_run hplain d r s
  · -- what was changed before the failure is still cached
    refine CachesFrom.append ?_ fun fact hfact d' table' last => ?_
    · rw [hrun]
      exact h.keeps hkeeps
    · unfold SchemaChange.facts at hfact
      rw [hrun] at hfact
      dsimp only at hfact
      split at hfact
      · obtain ⟨table, -, rfl⟩ := List.mem_map.mp hfact
        rfl
      · cases hfact
  · unfold SchemaChange.facts
    rw [hrun]
    dsimp only
    have ht := h.keeps hkeeps
    split
    · exact ht.forget d x.tables
    · rw [List.append_nil]
      exact ht.of_cached (fun _ _ _ hcached => (cached_foldl_forgotten ht.once hcached).2)
        (cachesOnce_foldl_forgotten ht.once d x.tables)

/-- What is cached after a call stands after what it records. -/
theorem cachesFrom (h : s.CachesFrom history) {call : SchemaCall} (hplain : call.ChangesPlain) :
    (call.after s).CachesFrom (history ++ call.facts s) := by
  cases call with
  | execute p => exact (looksUp (.execute p) trivial s).cachesFrom h
  | tableSchema d table r => exact (looksUp (.tableSchema d table r) trivial s).cachesFrom h
  | describe d table r => exact (looksUp (.describe d table r) trivial s).cachesFrom h
  | invalidate d table =>
    rw [facts, List.append_nil]
    exact cachesFrom_invalidate h d table
  | change x d r => exact cachesFrom_change h hplain d r

/-- Only a schema that stands is used. -/
theorem standing_of_used (h : s.CachesFrom history) {call : SchemaCall} {d : DatabaseId}
    {table : String} {schema : TableSchema} (hused : .used d table schema ∈ call.facts s) :
    call.facts s = [.used d table schema] ∧ standingSchema history d table = some schema := by
  have hlooks : call.Looks := by
    cases call with
    | execute | tableSchema | describe => trivial
    | invalidate => cases hused
    | change =>
      obtain ⟨_, hchanged | hhalfway⟩ := SchemaChange.executes_of_mem_facts hused
      · cases hchanged
      · cases hhalfway
  obtain ⟨honly, hcached⟩ := (looksUp call hlooks s).cached_of_used hused
  exact ⟨honly, h.standing d table schema hcached⟩

end SchemaCall

/-! ## Runs -/

/-- A run of calls about schemas, with what it records. The tables that are changed have plain
names. -/
inductive SchemaRun (s₀ : Session) : List SchemaFact → Session → Prop where
  | start : SchemaRun s₀ [] s₀
  | call {history : List SchemaFact} {s : Session} (h : SchemaRun s₀ history s) (call : SchemaCall)
      (hplain : call.ChangesPlain) : SchemaRun s₀ (history ++ call.facts s) (call.after s)
  /-- Anything else that leaves the cached schemas as they are. -/
  | aside {history : List SchemaFact} {s s' : Session} (h : SchemaRun s₀ history s)
      (hs' : KeepsSchemas s s') : SchemaRun s₀ history s'

namespace SchemaRun

variable {s₀ s : Session} {history : List SchemaFact} {d : DatabaseId} {table : String}
  {schema : TableSchema}

/-- What is cached at the end of a run stands after it. -/
theorem cachesFrom (hs₀ : ∀ d, (s₀.database d).schemas = []) (h : SchemaRun s₀ history s) :
    s.CachesFrom history := by
  induction h with
  | start =>
    refine ⟨fun d table schema hcached => ?_, fun d => ?_⟩
    · rw [cached, hs₀ d] at hcached
      cases hcached
    · rw [hs₀ d]
      exact List.nodup_nil
  | call h call hplain ih => exact SchemaCall.cachesFrom ih hplain
  | aside h hs' ih => exact ih.keeps hs'

/-- A schema that is used in a run stands there. -/
theorem standing_of_used (hs₀ : ∀ d, (s₀.database d).schemas = []) (h : SchemaRun s₀ history s)
    {before after : List SchemaFact} (hused : history = before ++ .used d table schema :: after) :
    standingSchema before d table = some schema := by
  induction h generalizing after with
  | start => simp at hused
  | @call history s h call hplain ih =>
    rcases List.append_eq_append_iff.mp hused with ⟨rest, rfl, hfacts⟩ | ⟨rest, rfl, hfacts⟩
    · -- the schema is used by the last call, which does nothing else
      have hmem : .used d table schema ∈ call.facts s := by
        rw [hfacts]
        exact List.mem_append_right _ List.mem_cons_self
      obtain ⟨honly, hstanding⟩ := SchemaCall.standing_of_used (h.cachesFrom hs₀) hmem
      rw [honly, List.singleton_eq_append_iff] at hfacts
      rcases hfacts with ⟨rfl, -⟩ | ⟨-, hnone⟩
      · rw [List.append_nil]
        exact hstanding
      · cases hnone
    · cases rest with
      | nil =>
        have hmem : .used d table schema ∈ call.facts s := by
          rw [List.nil_append] at hfacts
          rw [← hfacts]
          exact List.mem_cons_self
        rw [List.append_nil] at h
        exact (SchemaCall.standing_of_used (h.cachesFrom hs₀) hmem).2
      | cons f rest =>
        -- the schema is used by an earlier call
        obtain ⟨rfl, -⟩ := List.cons.inj hfacts
        exact ih rfl
  | aside h hs' ih => exact ih hused

/-- The schema of a table was asked for in a history, and not replaced since. A statement that
changes the table has run since exactly when one has in a call that failed. -/
def AskedLast (history : List SchemaFact) (d : DatabaseId) (table : String)
    (schema : TableSchema) : Prop :=
  ∃ earlier between, history = earlier ++ .introspected d table schema :: between ∧
    (∀ f ∈ between, ¬ f.Replaces d table) ∧
    ((∀ f ∈ between, ¬ f.Executes d table) ↔ .halfway d table ∉ between)

/-- A schema that is used is the one that was asked for last, and the table is as it was then, unless
a call failed after one of its statements had changed it. A call that asks for no schema with success
keeps what is cached. -/
theorem coherence (hs₀ : ∀ d, (s₀.database d).schemas = []) (h : SchemaRun s₀ history s) :
    (∀ before after d table schema, history = before ++ .used d table schema :: after →
      AskedLast before d table schema) ∧
    ∀ call : SchemaCall, call.Looks →
      (∀ d table schema, .introspected d table schema ∉ call.facts s) →
        KeepsSchemas s (call.after s) := by
  refine ⟨fun before after d table schema hused => ?_, fun call hlooks hnone =>
    (SchemaCall.looksUp call hlooks s).keepsSchemas hnone⟩
  obtain ⟨earlier, between, hbefore, hbetween⟩ :=
    introspected_of_standing (h.standing_of_used hs₀ hused)
  refine ⟨earlier, between, hbefore, hbetween, fun hnone hhalfway => ?_,
    fun hnone f hf hchanges => ?_⟩
  · exact hnone _ hhalfway (.inr rfl)
  · rcases hchanges with rfl | rfl
    · exact hbetween _ hf (.inl rfl)
    · exact hnone hf

end SchemaRun

/-! ## The age of people -/

/-- What is recorded, without the schemas: a schema is looked up, and perhaps asked for, or a table
is changed, and perhaps with success. -/
def SchemaFact.told : SchemaFact → (Bool × DatabaseId × String) ⊕ (Bool × DatabaseId × String)
  | .introspected d table _ => .inl (true, d, table)
  | .used d table _ => .inl (false, d, table)
  | .changed d table => .inr (true, d, table)
  | .halfway d table => .inr (false, d, table)

theorem lookup_of_told (asked : Bool) {facts : List SchemaFact} {d : DatabaseId} {table : String}
    (h : facts.map SchemaFact.told = [.inl (asked, d, table)]) :
    ∃ schema, facts =
      [bif asked then .introspected d table schema else .used d table schema] := by
  obtain ⟨f, rfl, hf⟩ := List.map_eq_singleton_iff.mp h
  cases f with
  | introspected d table schema | used d table schema =>
    cases hf
    exact ⟨schema, rfl⟩
  | changed | halfway => cases hf

theorem change_of_told (succeeds : Bool) {facts : List SchemaFact} {d : DatabaseId} {table : String}
    (h : facts.map SchemaFact.told = [.inr (succeeds, d, table)]) :
    facts = [bif succeeds then .changed d table else .halfway d table] := by
  obtain ⟨f, rfl, hf⟩ := List.map_eq_singleton_iff.mp h
  cases f with
  | changed d table | halfway d table =>
    cases hf
    rfl
  | introspected | used => cases hf

/-- The age of people is dropped, with its index. -/
def TableChange.dropAge : TableChange :=
  ⟨"Person", none, none, some ⟨["age"], ["by_age"], []⟩⟩

namespace SchemaCall

/-- The schema of the people is looked up. -/
def people : SchemaCall :=
  .tableSchema ⟨0⟩ "Person" .pool

def describePeople : SchemaCall :=
  .describe ⟨0⟩ "Person" .pool

def dropAge : SchemaCall :=
  .change (.alter .dropAge) ⟨0⟩ .pool

theorem changesPlain_dropAge : dropAge.ChangesPlain := by
  intro table htable
  rw [List.mem_singleton.mp htable]
  exact TableRef.isPlain_of_isName (by decide +kernel)

end SchemaCall

namespace Session

/-- What is answered when the schema of a table with these columns is asked for. -/
def described (columns : List String) : List Reply :=
  let names := ["column_name", "data_type", "is_nullable", "column_default"]
  [.done (names.map .text)
      (columns.map fun column => .list [.text column, .text "integer", .text "NO", .null])
      (.int columns.length) .null,
    .done [.text "column_name"] [.list [.text "id"]] (.int 1) .null]

/-- A database that describes the people with their age, and then answers as it is told to. -/
def agedPeople (replies : List Reply) : Session :=
  { empty .empty with
    databases := [.fresh (some "shop") (.standard .postgres) .factory ⟨none, none, 1, .null, none⟩]
    registry := ⟨[("shop", ⟨0⟩)], some "shop"⟩
    server := ⟨0, [], described ["id", "age"] ++ replies⟩ }

/-- Their schema has been looked up, and their age is dropped. -/
def agelessPeople (replies : List Reply) : Session :=
  SchemaCall.dropAge.after (SchemaCall.people.after (agedPeople replies))

theorem schemas_agedPeople (replies : List Reply) (d : DatabaseId) :
    ((agedPeople replies).database d).schemas = [] := by
  obtain ⟨i⟩ := d
  cases i <;> rfl

end Session

namespace SchemaRun

/-- Their schema is looked up, their age is dropped, and their schema is looked up again. -/
theorem people (replies : List Reply) : SchemaRun (agedPeople replies)
    (SchemaCall.people.facts (agedPeople replies) ++
      SchemaCall.dropAge.facts (SchemaCall.people.after (agedPeople replies)) ++
      SchemaCall.people.facts (agelessPeople replies))
    (SchemaCall.people.after (agelessPeople replies)) :=
  have hlooked := SchemaRun.start.call .people trivial
  (hlooked.call .dropAge SchemaCall.changesPlain_dropAge).call .people trivial

/-- When both statements run, the schema that is used afterwards was asked for afterwards. A table
that cannot be described leaves it cached. -/
theorem coherence_people :
    let replies := [.nothing, .nothing] ++ described ["id"] ++ [.refused "no such table"]
    ∃ old new schema s,
      SchemaRun (agedPeople replies) [.introspected ⟨0⟩ "Person" old, .changed ⟨0⟩ "Person",
        .introspected ⟨0⟩ "Person" new, .used ⟨0⟩ "Person" schema] s ∧
      AskedLast [.introspected ⟨0⟩ "Person" old, .changed ⟨0⟩ "Person",
        .introspected ⟨0⟩ "Person" new] ⟨0⟩ "Person" schema ∧
      SchemaCall.describePeople.facts s = [] ∧
      KeepsSchemas s (SchemaCall.describePeople.after s) := by
  intro replies
  obtain ⟨old, hold⟩ : ∃ old, SchemaCall.people.facts (agedPeople replies) =
      [.introspected ⟨0⟩ "Person" old] := lookup_of_told true (by decide +kernel)
  have hchanged : SchemaCall.dropAge.facts (SchemaCall.people.after (agedPeople replies)) =
      [.changed ⟨0⟩ "Person"] := change_of_told true (by decide +kernel)
  obtain ⟨new, hnew⟩ : ∃ new, SchemaCall.people.facts (agelessPeople replies) =
      [.introspected ⟨0⟩ "Person" new] := lookup_of_told true (by decide +kernel)
  obtain ⟨schema, hused⟩ : ∃ schema,
      SchemaCall.people.facts (SchemaCall.people.after (agelessPeople replies)) =
        [.used ⟨0⟩ "Person" schema] := lookup_of_told false (by decide +kernel)
  have hrun := (people replies).call .people trivial
  rw [hold, hchanged, hnew, hused] at hrun
  have hnone : SchemaCall.describePeople.facts
      (SchemaCall.people.after (SchemaCall.people.after (agelessPeople replies))) = [] :=
    List.map_eq_nil_iff.mp (by decide +kernel : List.map SchemaFact.told _ = [])
  obtain ⟨hcoherent, hkeeps⟩ := coherence (schemas_agedPeople replies) hrun
  refine ⟨old, new, schema, _, hrun, hcoherent _ [] _ _ _ rfl, hnone,
    hkeeps .describePeople trivial fun d table schema hin => ?_⟩
  rw [hnone] at hin
  cases hin

/-- When the age is gone and its index is not there any more, dropping both fails, and the old
schema is still used. -/
theorem used_after_halfway :
    let replies := [.nothing, .refused "no such index"]
    (∀ d, ((agedPeople replies).database d).schemas = []) ∧
    (((SchemaCall.people.after (agedPeople replies)).exchanges (agelessPeople replies)).map
        fun e => (e.statement.plainText, e.reply.isDone)) =
      [("ALTER TABLE \"Person\" DROP COLUMN \"age\"", true), ("DROP INDEX \"by_age\"", false)] ∧
    ∃ schema, SchemaRun (agedPeople replies)
      [.introspected ⟨0⟩ "Person" schema, .halfway ⟨0⟩ "Person", .used ⟨0⟩ "Person" schema]
      (SchemaCall.people.after (agelessPeople replies)) := by
  intro replies
  refine ⟨schemas_agedPeople replies, by decide +kernel, ?_⟩
  obtain ⟨schema, hasked⟩ : ∃ schema, SchemaCall.people.facts (agedPeople replies) =
      [.introspected ⟨0⟩ "Person" schema] := lookup_of_told true (by decide +kernel)
  have hhalfway : SchemaCall.dropAge.facts (SchemaCall.people.after (agedPeople replies)) =
      [.halfway ⟨0⟩ "Person"] := change_of_told false (by decide +kernel)
  obtain ⟨schema', hused⟩ : ∃ schema, SchemaCall.people.facts (agelessPeople replies) =
      [.used ⟨0⟩ "Person" schema] := lookup_of_told false (by decide +kernel)
  have hrun := people replies
  rw [hasked, hhalfway, hused] at hrun
  -- what is used is what was asked for, because nothing else stands
  have hstanding : standingSchema [.introspected ⟨0⟩ "Person" schema, .halfway ⟨0⟩ "Person"] ⟨0⟩
      "Person" = some schema' := hrun.standing_of_used (schemas_agedPeople replies) rfl
  refine ⟨schema, ?_⟩
  rw [← Option.some.inj hstanding] at hrun
  exact hrun

end SchemaRun

end TableOps
