import TableOps.Proofs.Session.CommandEffect

/-!
# The effects of whole calls

The calls that a client makes, when every statement is allowed: commands in all their forms, the
management of tables, transactions and the registry.

* `CallEffects.execute`, … — commands, their short forms and plain statements.
* `CallEffects.createTable`, … — the management of tables.
* `Management.transaction` — a block of calls around another one.
* `CallEffects.build`, `exists_fresh_of_build` — building a database from settings.
* `Management.register`, `Management.configure` — the registry.
-/

namespace TableOps

open Session

variable {R : Session → Session → Prop} {α : Type}

/-- Statements that are run in order. -/
theorem QuietEffects.queryAll (H : QuietEffects R fun _ => True) (c : ConnectionId)
    (texts : List String) : Within R (Session.queryAll c texts).run := by
  have hC := H.toChained
  induction texts with
  | nil => exact .run_pure hC _
  | cons text texts ih => exact .run_bind hC (H.query c _ trivial) fun _ => ih

namespace CallEffects

/-! ## Commands -/

/-- No statement is left out when all are allowed. -/
theorem sends_all (p : Prepared) : Sends (fun _ => True) p :=
  fun _ _ _ _ _ => trivial

theorem executePatched (H : CallEffects R fun _ => True) (p : Patched) :
    Within R (Session.executePatched p).run := by
  have hC := H.toChained
  unfold Session.executePatched
  refine .run_bind hC (.run_ofExcept hC _) fun target => ?_
  refine .run_bind hC (H.resolve target) fun resolved => ?_
  obtain ⟨shared, d⟩ := resolved
  refine .run_bind hC (H.announce p _ _ d) fun _ => ?_
  refine H.onRoute d _ fun r => ?_
  split
  · exact H.executeOn (fun _ _ => trivial) (fun _ _ _ _ _ => sends_all _) d
  · exact H.executeSketch (fun _ _ => trivial) (fun _ _ _ => sends_all _) d

theorem execute (H : CallEffects R fun _ => True) (c : Command) :
    Within R (Session.execute c).run :=
  H.executePatched _

theorem executeValue (H : CallEffects R fun _ => True) (v : Value) (overrides : Entries Value) :
    Within R (Session.executeValue v overrides).run := by
  have hC := H.toChained
  unfold Session.executeValue
  refine .run_bind hC (.run_ofExcept hC _) fun _ => ?_
  refine .run_bind hC (.run_ofExcept hC _) fun c => ?_
  refine .run_bind hC (.run_ofExcept hC _) fun _ => ?_
  exact H.execute c

theorem executeWith (H : CallEffects R fun _ => True) (c : Command) (overrides : Entries Value) :
    Within R (Session.executeWith c overrides).run := by
  have hC := H.toChained
  unfold Session.executeWith
  refine .run_bind hC (.run_ofExcept hC _) fun _ => ?_
  refine .run_bind hC (.run_ofExcept hC _) fun p => ?_
  refine .run_bind hC (.run_ofExcept hC _) fun _ => ?_
  exact H.executePatched p

/-! ## Short forms and plain statements -/

theorem share (H : CallEffects R fun _ => True) (e : Expression) :
    Within R (Session.share e) := by
  unfold Session.share
  exact .bind H.toChained H.addCache fun cache => H.addShared _ cache

theorem runOn (H : CallEffects R fun _ => True) (op : Operation) (e : Expression)
    (members overrides : Entries Value) :
    Within R (Session.runOn op e members overrides).run := by
  have hC := H.toChained
  unfold Session.runOn
  dsimp only
  split
  · exact .run_throw_bind hC _ _
  · refine .run_bind hC (.run_lift (H.share e)) fun id => ?_
    exact H.executeValue _ _

/-- A short form on a table and conditions, whatever the members are that come from them. -/
theorem onConditioned (H : CallEffects R fun _ => True) (op : Operation)
    (table conditions : Value) (members : Entries Value → Entries Value)
    (overrides : Entries Value) :
    Within R (do
      let (e, query) ← SessionM.ofExcept (conditioned table conditions)
      Session.runOn op e (members query) overrides : SessionM Outcome).run :=
  .run_bind H.toChained (.run_ofExcept H.toChained _) fun _ => H.runOn op _ _ overrides

theorem queryTable (H : CallEffects R fun _ => True) (table conditions : Value)
    (overrides : Entries Value) : Within R (Session.queryTable table conditions overrides).run :=
  H.onConditioned .query table conditions (fun query => [("query", .map query)]) overrides

theorem listTable (H : CallEffects R fun _ => True) (table conditions range : Value)
    (overrides : Entries Value) :
    Within R (Session.listTable table conditions range overrides).run :=
  H.onConditioned .list table conditions (fun query => [("query", .map query), ("range", range)])
    overrides

theorem insertInto (H : CallEffects R fun _ => True) (table data : Value)
    (overrides : Entries Value) : Within R (Session.insertInto table data overrides).run := by
  unfold Session.insertInto
  refine .run_bind H.toChained (.run_ofExcept H.toChained _) fun e => ?_
  exact H.runOn .insert e _ overrides

theorem updateTable (H : CallEffects R fun _ => True) (table data conditions : Value)
    (overrides : Entries Value) :
    Within R (Session.updateTable table data conditions overrides).run :=
  H.onConditioned .update table conditions (fun query => [("data", data), ("query", .map query)])
    overrides

theorem deleteFrom (H : CallEffects R fun _ => True) (table conditions : Value)
    (overrides : Entries Value) : Within R (Session.deleteFrom table conditions overrides).run :=
  H.onConditioned .delete table conditions (fun query => [("query", .map query)]) overrides

theorem runStatement (H : CallEffects R fun _ => True) (statement values database : Value)
    (r : Route) (registry : Value) :
    Within R (Session.runStatement statement values database r registry).run := by
  have hC := H.toChained
  unfold Session.runStatement
  split
  · exact H.queryWith _ values trivial
  · exact .run_throw hC _
  · dsimp only
    split
    · exact .run_throw_bind hC _ _
    · refine .run_bind hC (H.lookupValue database) fun d => ?_
      refine .run_bind hC (H.connect d) fun c => ?_
      exact H.use c (H.queryWith c values trivial)

/-! ## The management of tables -/

theorem createTable (H : CallEffects R fun _ => True) (schema : TableSchema) (d : DatabaseId)
    (r : Route) : Within R (Session.createTable schema d r).run := by
  have hC := H.toChained
  unfold Session.createTable
  refine .run_bind hC (.run_liftM (H.readDatabase d)) fun database => ?_
  refine .run_bind hC (.run_ofExcept hC _) fun text => ?_
  refine .run_bind hC (.run_liftM (H.note _ _ _)) fun _ => ?_
  refine .run_bind hC (H.withConnection d r fun c => H.query c _ trivial) fun _ => ?_
  exact H.invalidate d _

theorem alterTable (H : CallEffects R fun _ => True) (change : TableChange) (d : DatabaseId)
    (r : Route) : Within R (Session.alterTable change d r).run := by
  have hC := H.toChained
  unfold Session.alterTable
  refine .run_bind hC (.run_liftM (H.readDatabase d)) fun database => ?_
  refine .run_bind hC (.run_ofExcept hC _) fun statements => ?_
  refine .run_bind hC (.run_liftM (H.note _ _ _)) fun _ => ?_
  dsimp only
  split
  · exact H.invalidate d _
  · refine .run_bind hC (H.withConnection d _ fun c => H.queryAll c _) fun _ => ?_
    exact H.invalidate d _

theorem deleteTable (H : CallEffects R fun _ => True) (table : Value) (d : DatabaseId)
    (r : Route) : Within R (Session.deleteTable table d r).run := by
  have hC := H.toChained
  unfold Session.deleteTable
  refine .run_bind hC (.run_liftM (H.note _ _ _)) fun _ => ?_
  refine .run_bind hC (.run_liftM (H.readDatabase d)) fun database => ?_
  refine .run_bind hC (H.withConnection d r fun c => ?_) fun name => H.invalidate d _
  refine .run_bind hC (.run_ofExcept hC _) fun name => ?_
  exact .run_bind hC (H.query c _ trivial) fun _ => .run_pure hC _

theorem renameTable (H : CallEffects R fun _ => True) (old new : Value) (d : DatabaseId)
    (r : Route) : Within R (Session.renameTable old new d r).run := by
  have hC := H.toChained
  unfold Session.renameTable
  refine .run_bind hC (.run_liftM (H.note _ _ _)) fun _ => ?_
  refine .run_bind hC (.run_liftM (H.readDatabase d)) fun database => ?_
  refine .run_bind hC (H.withConnection d r fun c => ?_) fun names => ?_
  · refine .run_bind hC (.run_ofExcept hC _) fun oldName => ?_
    refine .run_bind hC (.run_ofExcept hC _) fun newName => ?_
    exact .run_bind hC (H.query c _ trivial) fun _ => .run_pure hC _
  · exact .run_bind hC (H.invalidate d _) fun _ => H.invalidate d _

theorem describeTable (H : CallEffects R fun _ => True) (table : Value) (d : DatabaseId)
    (r : Route) : Within R (Session.describeTable table d r).run := by
  have hC := H.toChained
  unfold Session.describeTable
  refine .run_bind hC (.run_liftM (H.readDatabase d)) fun database => ?_
  refine .run_bind hC (H.withConnection d r fun c => ?_) fun schema => ?_
  · exact H.describeOn (fun _ _ => trivial) _ c table
  · exact .run_bind hC (.run_liftM (H.remember d _ schema)) fun _ => .run_pure hC _

/-! ## Building databases from settings -/

theorem keepLoaded (H : CallEffects R fun _ => True) (loaded : List Stored.Loaded) :
    Within R (Session.keepLoaded loaded) := by
  have hC := H.toChained
  unfold Session.keepLoaded
  refine .foldlM hC (fun store l => ?_) loaded []
  refine .bind hC (H.share _) fun id => ?_
  exact .bind hC (H.note _ _ _) fun _ => .pure hC _

theorem loadStored (H : CallEffects R fun _ => True) (directory : String) :
    Within R (Session.loadStored directory).run := by
  have hC := H.toChained
  unfold Session.loadStored
  refine .run_bind hC (.run_get hC) fun s => ?_
  refine .run_bind hC (.run_lift (H.keepLoaded _)) fun store => ?_
  split
  · exact .run_throw hC _
  · exact .run_pure hC _

theorem build (H : CallEffects R fun _ => True) (settings : Settings) :
    Within R (Session.build settings).run := by
  have hC := H.toChained
  unfold Session.build
  dsimp only
  split
  · refine .run_bind hC (.run_map hC (H.loadStored _) _) fun stored => ?_
    exact .run_ofExcept hC _
  · exact .run_bind hC (.run_pure hC _) fun stored => .run_ofExcept hC _

end CallEffects

/-- What is built from settings is a new database. -/
theorem exists_fresh_of_build {settings : Settings} {d : Database} {s s' : Session}
    (h : (Session.build settings).run.run s = (.ok d, s')) :
    ∃ name dialect origin o, d = .fresh name dialect origin o := by
  unfold Session.build at h
  dsimp only at h
  split at h
  all_goals
    obtain ⟨stored, t, hstored, h⟩ := ok_of_run_bind h
    injection h with hurl
    obtain ⟨parts, hparts, hurl⟩ := ok_of_bind hurl
    obtain ⟨dialect, hdialect, hurl⟩ := ok_of_bind hurl
    cases hurl
    exact ⟨_, _, _, _, rfl⟩

namespace Management

/-! ## Transactions -/

theorem cleanup (H : Management R) (t : Transaction) : Within R t.cleanup.run := by
  unfold Transaction.cleanup
  split
  · exact .run_lift (H.release _)
  · exact .run_pure H.toChained _

theorem enter (H : Management R) {database : SessionM DatabaseId}
    (hdatabase : Within R database.run) (r : Route) :
    Within R (Transaction.enter database r).run := by
  have hC := H.toChained
  -- a block that cannot be begun gives its connection back
  have hbegin : ∀ t : Transaction, Within R (do
      t.connection.begin.onFailure (do
        let _ ← t.cleanup.run
        return ())
      return t : SessionM Transaction).run := by
    intro t
    have hstep : Within R (do
        let _ ← t.cleanup.run
        return () : StateM Session Unit) :=
      .bind hC (H.cleanup t) fun _ => .pure hC _
    exact .run_bind hC (.run_onFailure hC (H.begin _) hstep) fun _ => .run_pure hC _
  unfold Transaction.enter
  dsimp only
  split
  · exact hbegin _
  · refine .run_bind hC hdatabase fun d => ?_
    exact .run_bind hC (H.connect d) fun c => hbegin ⟨c, true⟩
  · exact .run_throw_bind hC _ _

theorem leave (H : Management R) (t : Transaction) (failure : Option Failure) :
    Within R (t.leave failure).run := by
  unfold Transaction.leave
  refine .run_always H.toChained ?_ (H.cleanup t)
  unfold Transaction.settle
  split
  · exact H.commit _
  · split
    · exact H.rollback _
    · exact .run_pure H.toChained _

/-- A block has the effects of its two ends and of the call in between, which may fail. -/
theorem transaction (H : Management R) {database : SessionM DatabaseId}
    (hdatabase : Within R database.run) (r : Route) {body : ConnectionId → SessionM α}
    (hbody : ∀ c, Within R (body c).run) :
    Within R (Session.transaction database r body).run := by
  have hC := H.toChained
  unfold Session.transaction
  -- the body is run as a call that may fail, since the block ends either way
  refine .run_bind hC (H.enter hdatabase r) fun t => ?_
  refine .run_bind hC (.run_lift (hbody _)) fun outcome => ?_
  split
  · exact .run_bind hC (H.leave t _) fun _ => .run_pure hC _
  · exact .run_bind hC (H.leave t _) fun _ => .run_throw hC _

/-! ## The registry -/

theorem enroll (H : Management R) (id : DatabaseId) (name : String) :
    Within R (Session.enroll id name) := by
  have hC := H.toChained
  -- the name is given in any case, whoever had it before
  have hput := H.registry fun r => { r with databases := r.databases.put name id }
  unfold Session.enroll
  refine .bind hC (.get hC) fun s => ?_
  dsimp only
  split
  · split
    · refine .bind hC (H.note _ _ _) fun _ => ?_
      exact .bind hC (H.closeDown _) fun _ => hput
    · exact hput
  · exact hput

theorem register (H : Management R) (id : DatabaseId) (aliasName : Option String) :
    Within R (Session.register id aliasName) := by
  have hC := H.toChained
  unfold Session.register
  refine .bind hC (H.readDatabase id) fun d => ?_
  refine .bind hC (.forM hC (H.enroll id) _) fun _ => ?_
  exact H.registry fun r => { r with default := r.default.or (some d.name) }

theorem databaseOf (H : Management R) (v : Value) : Within R (Session.databaseOf v).run := by
  unfold Session.databaseOf
  split
  · exact .run_pure H.toChained _
  · exact H.lookupValue v

theorem closeAll (H : Management R) : Within R Session.closeAll := by
  have hC := H.toChained
  unfold Session.closeAll
  refine .bind hC (.get hC) fun s => ?_
  refine .bind hC (.forM hC H.closeDown _) fun _ => ?_
  exact H.registry fun _ => ⟨[], none⟩

theorem install (H : Management R) {d : Database} (h : d.idle = []) (aliasName : Option String) :
    Within R (Session.install d aliasName) := by
  have hC := H.toChained
  unfold Session.install
  refine .bind hC (H.addDatabase d h) fun id => ?_
  exact .bind hC (H.register id aliasName) fun _ => .pure hC _

/-! ## Configurations -/

theorem installAll (H : Management R) (settings : List Settings) :
    Within R (Session.installAll settings).run := by
  have hC := H.toChained
  induction settings with
  | nil => exact .run_pure hC _
  | cons first rest ih =>
    intro s
    unfold Session.installAll
    refine Within.run_bind_at hC (H.build first s) fun d s' hbuild => ?_
    -- only a database without connections may be added
    obtain ⟨name, dialect, origin, o, rfl⟩ := exists_fresh_of_build hbuild
    refine Within.run_bind hC (.run_lift (H.install rfl _)) (fun id => ?_) s'
    refine .run_bind hC (.run_liftM (H.note _ _ _)) fun _ => ?_
    exact .run_bind hC ih fun ids => .run_pure hC _

theorem configure (H : Management R) (source : Value) :
    Within R (Session.configure source).run := by
  have hC := H.toChained
  unfold Session.configure
  refine .run_bind hC (.run_get hC) fun s => ?_
  refine .run_bind hC (.run_ofExcept hC _) fun settings => ?_
  refine .run_bind hC (.run_lift H.closeAll) fun _ => ?_
  exact H.installAll settings

end Management

end TableOps
