import TableOps.Proofs.Session.PoolEffect
import TableOps.Proofs.Session.StepEffect
import TableOps.Proofs.Session.WholeCalls

/-!
# What clients can do to the pools

A client makes calls in any order, on any connection and database, looks at what they yield, goes on
after failures and nests blocks. Whatever it does, and whatever the driver answers, every driver
connection stays accounted for, and a database that was closed down stays so.

* `Call`, `Client` — single calls, and programs made of them.
* `Client.within` — a relation that holds for the basic calls holds for every program.
* `Session.ClosedDown` — a database that was closed down.
* `Session.Reaches` — programs lead from one session to another.
* `Session.sound_of_reaches` — the pools are in order wherever programs lead.
-/

namespace TableOps

open Session

variable {R : Session → Session → Prop} {α β : Type}

/-! ## Programs -/

/-- A call that a client can make. -/
inductive Call : ∀ {α : Type}, SessionM α → Prop where
  -- databases and their registry
  | database (name : Option String) (dialect : Dialect) (origin : Origin) (o : DatabaseOptions) :
      Call (SessionM.lift (addDatabase (.fresh name dialect origin o)))
  | register (id : DatabaseId) (aliasName : Option String) :
      Call (SessionM.lift (register id aliasName))
  | configure (source : Value) : Call (configure source)
  | databaseOf (v : Value) : Call (databaseOf v)
  | closeDown (id : DatabaseId) : Call (SessionM.lift id.closeDown)
  | closeAll : Call (SessionM.lift closeAll)
  | tableSchema (id : DatabaseId) (table : String) (r : Route) : Call (id.tableSchema table r)
  | invalidate (id : DatabaseId) (table : Option String) : Call (id.invalidate table)
  -- connections
  | connect (id : DatabaseId) : Call id.connect
  | query (c : ConnectionId) (statement : String) (values : List Value) :
      Call (c.query statement values)
  | queryWith (c : ConnectionId) (statement values : Value) : Call (c.queryWith statement values)
  | begin (c : ConnectionId) : Call c.begin
  | commit (c : ConnectionId) : Call c.commit
  | rollback (c : ConnectionId) : Call c.rollback
  | release (c : ConnectionId) : Call (SessionM.lift c.release)
  -- the two ends of a block
  | enter (database : Value) (r : Route) : Call (Transaction.enter (Session.databaseOf database) r)
  | leave (t : Transaction) (failure : Option Failure) : Call (t.leave failure)
  -- commands
  | share (e : Expression) : Call (SessionM.lift (share e))
  | updateShared (id : ExpressionId) (d : Draft) : Call (SessionM.lift (updateShared id d))
  | execute (c : Command) : Call (execute c)
  | executeValue (v : Value) (overrides : Entries Value) : Call (executeValue v overrides)
  | executeWith (c : Command) (overrides : Entries Value) : Call (executeWith c overrides)
  | queryTable (table conditions : Value) (overrides : Entries Value) :
      Call (queryTable table conditions overrides)
  | listTable (table conditions range : Value) (overrides : Entries Value) :
      Call (listTable table conditions range overrides)
  | insertInto (table data : Value) (overrides : Entries Value) :
      Call (insertInto table data overrides)
  | updateTable (table data conditions : Value) (overrides : Entries Value) :
      Call (updateTable table data conditions overrides)
  | deleteFrom (table conditions : Value) (overrides : Entries Value) :
      Call (deleteFrom table conditions overrides)
  | runStatement (statement values database : Value) (r : Route) (registry : Value) :
      Call (runStatement statement values database r registry)
  -- the management of tables
  | createTable (schema : TableSchema) (d : DatabaseId) (r : Route) : Call (createTable schema d r)
  | alterTable (change : TableChange) (d : DatabaseId) (r : Route) : Call (alterTable change d r)
  | deleteTable (table : Value) (d : DatabaseId) (r : Route) : Call (deleteTable table d r)
  | renameTable (old new : Value) (d : DatabaseId) (r : Route) : Call (renameTable old new d r)
  | describeTable (table : Value) (d : DatabaseId) (r : Route) : Call (describeTable table d r)

/-- A program of a client: calls one after another, with blocks around programs. -/
inductive Client : ∀ {α : Type}, SessionM α → Prop where
  | pure {α : Type} (a : α) : Client (Pure.pure a)
  | throw {α : Type} (f : Failure) : Client (throw f : SessionM α)
  | look : Client (MonadState.get : SessionM Session)
  | call {α : Type} {x : SessionM α} (hx : Call x) : Client x
  | bind {α β : Type} {x : SessionM α} {f : α → SessionM β} (hx : Client x)
      (hf : ∀ a, Client (f a)) : Client (x >>= f)
  | recover {α : Type} {x : SessionM α} {handle : Failure → SessionM α} (hx : Client x)
      (hhandle : ∀ f, Client (handle f)) : Client (tryCatch x handle)
  | transaction {α : Type} (database : Value) (r : Route) {body : ConnectionId → SessionM α}
      (hbody : ∀ c, Client (body c)) : Client (transaction (databaseOf database) r body)

/-- What holds for the basic calls holds for every call. -/
theorem Call.within (H : Management R) {x : SessionM α} (h : Call x) : Within R x.run := by
  cases h with
  | database name dialect origin o => exact .run_lift (H.addDatabase _ rfl)
  | register id aliasName => exact .run_lift (H.register id aliasName)
  | configure source => exact H.configure source
  | databaseOf v => exact H.databaseOf v
  | closeDown id => exact .run_lift (H.closeDown id)
  | closeAll => exact .run_lift H.closeAll
  | tableSchema id table r => exact H.tableSchema (fun _ _ => trivial) id table r
  | invalidate id table => exact H.invalidate id table
  | connect id => exact H.connect id
  | query c statement values => exact H.query c values trivial
  | queryWith c statement values => exact H.queryWith c values trivial
  | begin c => exact H.begin c
  | commit c => exact H.commit c
  | rollback c => exact H.rollback c
  | release c => exact .run_lift (H.release c)
  | enter database r => exact H.enter (H.databaseOf database) r
  | leave t failure => exact H.leave t failure
  | share e => exact .run_lift (H.share e)
  | updateShared id d => exact .run_lift (H.updateShared id d)
  | execute c => exact H.execute c
  | executeValue v overrides => exact H.executeValue v overrides
  | executeWith c overrides => exact H.executeWith c overrides
  | queryTable table conditions overrides => exact H.queryTable table conditions overrides
  | listTable table conditions range overrides =>
    exact H.listTable table conditions range overrides
  | insertInto table data overrides => exact H.insertInto table data overrides
  | updateTable table data conditions overrides =>
    exact H.updateTable table data conditions overrides
  | deleteFrom table conditions overrides => exact H.deleteFrom table conditions overrides
  | runStatement statement values database r registry =>
    exact H.runStatement statement values database r registry
  | createTable schema d r => exact H.createTable schema d r
  | alterTable change d r => exact H.alterTable change d r
  | deleteTable table d r => exact H.deleteTable table d r
  | renameTable old new d r => exact H.renameTable old new d r
  | describeTable table d r => exact H.describeTable table d r

/-- What holds for the basic calls holds for every program. -/
theorem Client.within (H : Management R) {x : SessionM α} (h : Client x) : Within R x.run := by
  have hC := H.toChained
  induction h with
  | pure a => exact .run_pure hC a
  | throw f => exact .run_throw hC f
  | look => exact .run_get hC
  | call hx => exact hx.within H
  | bind hx hf ihx ihf => exact .run_bind hC ihx ihf
  | recover hx hhandle ihx ihhandle => exact .run_tryCatch hC ihx ihhandle
  | transaction database r hbody ihbody => exact H.transaction (H.databaseOf database) r ihbody

namespace Session

/-! ## Databases that were closed down -/

/-- There is a database of the number, and it was closed down. -/
def ClosedDown (s : Session) (d : DatabaseId) : Prop :=
  ∃ x, s.databases[d.index]? = some x ∧ x.closed = true

/-- Between two sessions, the first of which is the earlier one, no database was opened again. -/
def KeepsClosed (s s' : Session) : Prop :=
  ∀ d, s.ClosedDown d → s'.ClosedDown d

theorem keepsClosed_of_eq {s s' : Session} (h : s'.databases = s.databases) : KeepsClosed s s' := by
  intro d hd
  unfold ClosedDown at hd ⊢
  rw [h]
  exact hd

theorem chained_keepsClosed : Chained KeepsClosed where
  refl _ _ hd := hd
  trans hst htu d hd := htu d (hst d hd)

theorem keepsClosed_updateDatabase (id : DatabaseId) {f : Database → Database}
    (h : ∀ x : Database, x.closed → (f x).closed) : Within KeepsClosed (updateDatabase id f) := by
  rintro s d ⟨x, hx, hclosed⟩
  refine ⟨if id.index = d.index then f x else x, ?_, ?_⟩
  · show (s.databases.modify id.index f)[d.index]? = _
    rw [List.getElem?_modify, hx]
    rfl
  · split
    · exact h x hclosed
    · exact hclosed

theorem keepsClosed_addDatabase (x : Database) : Within KeepsClosed (addDatabase x) := by
  rintro s d ⟨y, hy, hclosed⟩
  refine ⟨y, ?_, hclosed⟩
  -- a new database goes behind the ones there are
  have hlt := (List.getElem?_eq_some_iff.mp hy).1
  show (s.databases ++ [x])[d.index]? = some y
  rw [List.getElem?_append_left hlt]
  exact hy

/-- Single steps open no database again. -/
theorem keepsClosed_stepEffects : StepEffects KeepsClosed fun _ => True where
  toChained := chained_keepsClosed
  executed _ _ _ _ _ := keepsClosed_of_eq rfl
  quiet _ _ _ := keepsClosed_of_eq rfl
  openRaw _ := .openRaw chained_keepsClosed (fun _ _ => keepsClosed_of_eq rfl)
    fun _ _ => keepsClosed_of_eq rfl
  nextReply := .nextReply chained_keepsClosed fun _ _ => keepsClosed_of_eq rfl
  note := .note chained_keepsClosed fun _ _ => keepsClosed_of_eq rfl
  updateConnection _ _ _ := keepsClosed_of_eq rfl
  addConnection _ _ := keepsClosed_of_eq rfl
  idle id _ := keepsClosed_updateDatabase id fun _ hx => hx
  schemas id _ := keepsClosed_updateDatabase id fun _ hx => hx
  updateCache _ _ _ := keepsClosed_of_eq rfl
  addCache _ := keepsClosed_of_eq rfl
  addShared _ _ _ := keepsClosed_of_eq rfl
  updateShared _ _ _ := keepsClosed_of_eq rfl

/-- No call opens a database again. -/
theorem keepsClosed_management : Management KeepsClosed :=
  keepsClosed_stepEffects.management (fun id => keepsClosed_updateDatabase id fun _ _ => rfl)
    keepsClosed_addDatabase fun _ _ => keepsClosed_of_eq rfl

/-- Closing a database down leaves it closed. -/
theorem closedDown_closeDown {s : Session} {d : DatabaseId} (h : d.index < s.databases.length) :
    (d.closeDown.run s).2.ClosedDown d := by
  -- the database is closed first, and what follows opens none again
  have hrest : Within KeepsClosed (do
      (s.database d).idle.forM fun raw => emit (.closed raw)
      note .info .database ("Database `" ++ (s.database d).name ++ "` closed down")) := by
    refine .bind chained_keepsClosed (.forM chained_keepsClosed (fun raw => ?_) _) fun _ => ?_
    · exact fun _ => keepsClosed_of_eq rfl
    · exact keepsClosed_stepEffects.note _ _ _
  refine hrest _ d ⟨{ s.databases[d.index] with closed := true, idle := [] }, ?_, rfl⟩
  show (s.databases.modify d.index _)[d.index]? = _
  rw [List.getElem?_modify_eq, List.getElem?_eq_getElem h]
  rfl

/-! ## Reachable sessions -/

/-- Nothing has been opened yet. -/
structure Unused (s : Session) : Prop where
  databases : s.databases = []
  connections : s.connections = []
  opened : s.server.opened = 0
  events : s.server.events = []

/-- Programs of clients, failing or not, lead from one session to another. -/
inductive Reaches (s : Session) : Session → Prop where
  | refl : Reaches s s
  | run {α : Type} {t : Session} {x : SessionM α} (ht : Reaches s t) (hx : Client x) :
      Reaches s (x.run.run t).2

/-- What holds for the basic calls holds for a run of programs. -/
theorem Reaches.within (H : Management R) {s s' : Session} (h : s.Reaches s') : R s s' := by
  induction h with
  | refl => exact H.refl s
  | run ht hx ih => exact H.trans ih (hx.within H _)

/-- Where nothing was opened, nothing is missing. -/
theorem Unused.accounted {s : Session} (h : s.Unused) : s.Accounted [] [] where
  places raw := by
    simp [idleCount, heldCount, closedCount, openedCount, h.databases, h.connections, h.events]
  numbered raw := by
    rw [openedCount, h.events, h.opened, List.countP_nil, if_neg]
    exact fun hraw => absurd (Nat.le_trans hraw.1 hraw.2) (by decide)
  known raw _ e he := by
    rw [h.events] at he
    cases he
  pools d hd := by
    rw [h.databases] at hd
    cases hd
  settled raw _ _ := by
    rw [h.events]
    exact .of_absent fun _ he => by cases he

/-- Wherever programs lead, the pools are in order, and a database that was closed down stays closed
and keeps no idle connections. -/
theorem sound_of_reaches {s₀ s : Session} (hunused : s₀.Unused) (h : s₀.Reaches s) :
    s.Sound ∧
    (∀ d : DatabaseId, d.index < s.databases.length → (d.closeDown.run s).2.ClosedDown d) ∧
    ∀ d, s.ClosedDown d → ∀ s', s.Reaches s' → s'.ClosedDown d ∧ (s'.database d).idle = [] := by
  have haccounted := h.within accounted_management hunused.accounted
  refine ⟨haccounted.sound, fun d hd => closedDown_closeDown hd, fun d hd s' hs' => ?_⟩
  have hclosed := hs'.within keepsClosed_management d hd
  have hsound := (hs'.within accounted_management haccounted).sound
  refine ⟨hclosed, hsound.idle_of_closed d ?_⟩
  obtain ⟨x, hx, hxclosed⟩ := hclosed
  rw [database_of_getElem? hx]
  exact hxclosed

/-- Two connections of a pool that keeps one: a statement is refused in a transaction, and both are
given back, the first one twice. Then the database is closed down. -/
theorem sound_of_reaches_released :
    ∃ s₀ s s₁ : Session, s₀.Unused ∧ s₀.Reaches s ∧ s.Sound ∧ (s.database ⟨0⟩).idle = [1] ∧
      s.closedCount 2 = 1 ∧ s₁ = ((DatabaseId.closeDown ⟨0⟩).run s).2 ∧ s₁.closedCount 1 = 1 ∧
      ∀ s', s₁.Reaches s' → (s'.database ⟨0⟩).idle = [] := by
  have hunused : Unused { empty .empty with server := ⟨0, [], [.refused "gone"]⟩ } :=
    ⟨rfl, rfl, rfl, rfl⟩
  have hadded := Reaches.refl.run (s := { empty .empty with server := ⟨0, [], [.refused "gone"]⟩ })
    (.call (.database (some "shop") (.standard .mysql) .factory ⟨none, none, 1, .null, none⟩))
  have htaken := (hadded.run (.call (.connect ⟨0⟩))).run (.call (.connect ⟨0⟩))
  -- the first connection is in a transaction, in which its statement is refused
  have hrefused := (htaken.run (.call (.begin ⟨0⟩))).run (.call (.query ⟨0⟩ "DELETE FROM t" []))
  have hreleased := ((hrefused.run (.call (.release ⟨0⟩))).run (.call (.release ⟨0⟩))).run
    (.call (.release ⟨1⟩))
  have hclosed := hreleased.run (.call (.closeDown ⟨0⟩))
  obtain ⟨hsound, hcloses, -⟩ := sound_of_reaches hunused hreleased
  obtain ⟨-, -, hstays⟩ := sound_of_reaches hunused hclosed
  have hdown := hcloses ⟨0⟩ (by decide +kernel)
  refine ⟨_, _, _, hunused, hreleased, hsound, by decide +kernel, by decide +kernel, rfl,
    by decide +kernel, ?_⟩
  exact fun s' hs' => (hstays ⟨0⟩ hdown s' hs').2

end Session

end TableOps
