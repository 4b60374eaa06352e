import TableOps.Proofs.Session.PoolEffect
import TableOps.Proofs.Session.StepEffect

/-!
# Calls on a released connection

A connection that was given back still knows its driver connection, which meanwhile may be another
connection's. Its statements are refused, but its level goes on counting: a transaction begun after
the release sends nothing, and the commit or rollback that ends it goes to the driver connection all
the same, as does closing.

* `ConnectionCall` — the calls that can be made on a connection.
* `ConnectionCall.stray`, `ConnectionId.strayEvents` — what they ask of the driver after a release.
* `ConnectionId.leads_on` — one call on a released connection.
* `ConnectionId.Interleaved` — calls on a released connection between whatever else happens.
* `ConnectionId.leaves_on`, `ConnectionId.leaves_connect` — what calls elsewhere leave as it is.

Main statement: `Session.stray_of_interleaved`, what the calls on a released connection ask of the
driver in any interleaving, and when that is nothing.
-/

namespace TableOps

open Session

/-! ## The calls -/

/-- A call that can be made on a connection. -/
inductive ConnectionCall where
  | query (statement values : Value)
  | begin
  | commit
  | rollback
  | release
  | close

namespace ConnectionCall

/-- The call on a connection. -/
def on (c : ConnectionId) : ConnectionCall → SessionM Unit
  | .query statement values => do
    let _ ← c.queryWith statement values
  | .begin => c.begin
  | .commit => c.commit
  | .rollback => c.rollback
  | .release => SessionM.lift c.release
  | .close => SessionM.lift c.close

/-- What the call asks of the driver when its connection has been released, and the level at which
it leaves the connection. -/
def stray (raw : RawId) (level : Nat) : ConnectionCall → List Event × Nat
  | .query _ _ | .release => ([], level)
  | .begin => ([], level + 1)
  | .commit => if level = 1 then ([.committed raw], 0) else ([], level)
  | .rollback => if level = 1 then ([.rolledBack raw], 0) else ([], level)
  | .close => ([.closed raw], level)

/-- The call begins a transaction. -/
def begins : ConnectionCall → Bool
  | .begin => true
  | _ => false

/-- The call ends a transaction. -/
def ends : ConnectionCall → Bool
  | .commit | .rollback => true
  | _ => false

/-- The call closes the driver connection. -/
def closes : ConnectionCall → Bool
  | .close => true
  | _ => false

/-- None of the calls closes, and none ends a transaction when exactly one was begun before it, where
`level` were begun at the start. -/
def Harmless (level : Nat) (calls : List ConnectionCall) : Prop :=
  (∀ call ∈ calls, ¬ call.closes) ∧
    ∀ before call after, calls = before ++ call :: after → call.ends →
      level + before.countP begins ≠ 1

end ConnectionCall

/-- What calls on a released connection ask of the driver, from a level on. -/
def ConnectionId.strayEvents (raw : RawId) : Nat → List ConnectionCall → List Event
  | _, [] => []
  | level, call :: calls =>
    (call.stray raw level).1 ++ strayEvents raw (call.stray raw level).2 calls

/-! ## One call -/

/-- There is a connection of the number, and it is `x`. -/
def ConnectionId.Is (c : ConnectionId) (x : Connection) (s : Session) : Prop :=
  s.connections[c.index]? = some x

/-- There is a connection of the number, it is `x`, and so far these events were asked for. -/
structure ConnectionId.Stands (c : ConnectionId) (x : Connection) (events : List Event)
    (s : Session) : Prop where
  connection : c.Is x s
  events : s.server.events = events

namespace ConnectionId

variable {c : ConnectionId} {x : Connection} {events : List Event}

theorem Is.connection_eq {s : Session} (h : c.Is x s) : s.connection c = x := by
  unfold Is at h
  exact connection_of_getElem? h

theorem leads_is_update (f : Connection → Connection) :
    Leads (c.Is x) (updateConnection c f) fun _ => c.Is (f x) := by
  intro s hs
  unfold Is at hs
  show (s.connections.modify c.index f)[c.index]? = some (f x)
  rw [List.getElem?_modify_eq, hs]
  rfl

namespace Stands

theorem connection_eq {s : Session} (h : c.Stands x events s) : s.connection c = x :=
  h.connection.connection_eq

theorem leads_note (level : LogLevel) (source : LogSource) (text : String) :
    Leads (c.Stands x events) (note level source text) fun _ => c.Stands x events :=
  ConnectionId.leads_note (fun _ _ hs => ⟨hs.connection, hs.events⟩) level source text

theorem leads_emit (e : Event) :
    Leads (c.Stands x events) (emit e) fun _ => c.Stands x (events ++ [e]) :=
  fun _ hs => ⟨hs.connection, congrArg (· ++ [e]) hs.events⟩

theorem leads_update (f : Connection → Connection) :
    Leads (c.Stands x events) (updateConnection c f) fun _ => c.Stands (f x) events :=
  fun s hs => ⟨leads_is_update f s hs.connection, hs.events⟩

end Stands

section Released

variable (hreleased : x.released = true)

include hreleased

/-- A released connection refuses statements before anything is sent. -/
theorem leads_execute_released (statement : Value) (values : List Value) :
    Leads (c.Stands x events) (c.execute statement values).run fun r s =>
      r = .error (.transaction .released) ∧ c.Stands x events s := by
  unfold execute
  refine run_read_bind_at (fun _ hs => hs.connection_eq) ?_
  rw [hreleased]
  exact fun _ hs => ⟨rfl, hs⟩

theorem leads_rollbackHeld_released :
    Leads (c.Stands x events) c.rollbackHeld fun _ => c.Stands x events := by
  unfold rollbackHeld
  refine read_bind_at (fun _ hs => hs.connection_eq) ?_
  rw [hreleased]
  exact fun _ hs => hs

theorem leads_queryRaw_released (statement : Value) (values : List Value) :
    Leads (c.Stands x events) (c.queryRaw statement values).run fun _ => c.Stands x events := by
  rw [queryRaw_eq_onFailure]
  refine run_inTransaction_bind_at (fun _ hs => hs.connection_eq) ?_
  have hexecute : Leads (c.Stands x events) (c.execute statement values).run fun r s =>
      r = .error (.transaction .released) ∧ c.Stands x events s :=
    leads_execute_released hreleased statement values
  split
  · exact fun s hs => (hexecute s hs).2
  · -- what follows the refusal is only its rollback, which a released connection is spared
    refine .run_bind (M := fun _ _ => False) ?_ fun _ _ hfalse => hfalse.elim
    refine .run_onFailure hexecute (fun _ _ h => nomatch h.1) fun f => ?_
    rintro s ⟨-, hs⟩
    have hrolled := leads_rollbackHeld_released hreleased s hs
    exact ⟨fun _ hok => (by cases hok), fun _ _ => hrolled⟩

theorem leads_queryWith_released (statement values : Value) :
    Leads (c.Stands x events) (c.queryWith statement values).run fun _ => c.Stands x events := by
  unfold queryWith
  split
  · split
    · exact leads_queryRaw_released hreleased statement _
    · unfold refuse
      refine run_read_bind_at (fun _ hs => hs.connection_eq) ?_
      rw [hreleased]
      exact fun _ hs => hs
  · exact leads_queryRaw_released hreleased statement []

/-- A transaction that is begun counts, although a savepoint is refused. -/
theorem leads_begin_released :
    Leads (c.Stands x events) c.begin.run fun _ =>
      c.Stands { x with level := x.level + 1 } events := by
  unfold begin
  refine .run_liftM_bind (Stands.leads_update _) fun _ => ?_
  refine run_read_bind_at (fun _ hs => hs.connection_eq) ?_
  dsimp only
  split
  · refine .run_bind (M := fun _ _ => False) ?_ fun _ _ hfalse => hfalse.elim
    intro s hs
    have hrefused := leads_execute_released (x := { x with level := x.level + 1 }) hreleased
      (.text ("SAVEPOINT " ++ savepoint (x.level + 1))) [] s hs
    exact ⟨fun _ hok => (by rw [hrefused.1] at hok; cases hok), fun _ _ => hrefused.2⟩
  · exact .run_liftM (Stands.leads_note _ _ _)

/-- The outermost transaction ends at the driver, although the connection was released; one inside it
is refused and stays open. -/
theorem leads_finish_released (word verb : String) (event : RawId → Event) :
    Leads (c.Stands x events) (c.finish word verb event).run fun _ =>
      let ended := if x.level = 1 then ([event x.raw], 0) else ([], x.level)
      c.Stands { x with level := ended.2 } (events ++ ended.1) := by
  unfold finish finishWith
  refine run_read_bind_at (fun _ hs => hs.connection_eq) ?_
  dsimp only
  by_cases hone : x.level = 1
  · have houter : ¬ 1 < x.level := by omega
    have hopen : ¬ x.level = 0 := by omega
    simp only [if_pos hone, if_neg houter, if_neg hopen]
    refine .run_liftM_bind (Stands.leads_emit _) fun _ => ?_
    refine .run_liftM_bind (Stands.leads_note _ _ _) fun _ => .run_liftM ?_
    have hupdate : Leads (c.Stands x (events ++ [event x.raw]))
        (updateConnection c fun x => { x with level := x.level - 1 })
        fun _ => c.Stands { x with level := x.level - 1 } (events ++ [event x.raw]) :=
      Stands.leads_update _
    rwa [hone] at hupdate
  · simp only [if_neg hone, List.append_nil]
    by_cases hzero : x.level = 0
    · rw [if_pos hzero]
      exact fun _ hs => hs
    · have hinner : 1 < x.level := by omega
      rw [if_neg hzero, if_pos hinner]
      refine .run_bind (M := fun _ _ => False) ?_ fun _ _ hfalse => hfalse.elim
      intro s hs
      have hrefused := leads_execute_released hreleased
        (.text (verb ++ " SAVEPOINT " ++ savepoint x.level)) [] s hs
      exact ⟨fun _ hok => (by rw [hrefused.1] at hok; cases hok), fun _ _ => hrefused.2⟩

/-- One call on a released connection: what it asks of the driver, and how the connection stands
afterwards. -/
theorem leads_on (call : ConnectionCall) :
    Leads (c.Stands x events) (call.on c).run fun _ =>
      c.Stands { x with level := (call.stray x.raw x.level).2 }
        (events ++ (call.stray x.raw x.level).1) := by
  cases call with
  | query statement values =>
    rw [ConnectionCall.stray, List.append_nil]
    refine .run_bind (M := fun _ => c.Stands x events) ?_ fun _ => .run_pure fun _ hs => hs
    intro s hs
    have hquery := leads_queryWith_released hreleased statement values s hs
    exact ⟨fun _ _ => hquery, fun _ _ => hquery⟩
  | begin =>
    rw [ConnectionCall.stray, List.append_nil]
    exact leads_begin_released hreleased
  | commit => exact leads_finish_released hreleased "COMMIT" "RELEASE" .committed
  | rollback => exact leads_finish_released hreleased "ROLLBACK" "ROLLBACK TO" .rolledBack
  | release =>
    rw [ConnectionCall.stray, List.append_nil]
    have hrelease : Leads (c.Stands x events) c.release fun _ => c.Stands x events := by
      unfold release
      refine read_bind_at (fun _ hs => hs.connection_eq) ?_
      rw [hreleased]
      exact fun _ hs => hs
    exact .run_lift hrelease
  | close =>
    have hupdated : { x with released := true } = x := by rw [← hreleased]
    refine .run_lift (.bind (Stands.leads_update _) fun _ => ?_)
    refine read_bind_at (fun _ hs => hs.connection_eq) ?_
    rw [hupdated]
    exact Stands.leads_emit _

end Released

/-! ## What happens elsewhere -/

/-- Between two sessions, the first of which is the earlier one, a connection was left as it was. -/
def Leaves (c : ConnectionId) (s t : Session) : Prop :=
  ∀ x, c.Is x s → c.Is x t

theorem chained_leaves : Chained c.Leaves where
  refl _ _ hx := hx
  trans hst htu x hx := htu x (hst x hx)

theorem leaves_of_eq {s t : Session} (h : t.connections = s.connections) : c.Leaves s t := by
  intro x hx
  unfold Is
  rw [h]
  exact hx

/-- The steps of calls on another connection leave the connection as it is. -/
theorem leaves_steps {c' : ConnectionId} (hne : c' ≠ c) :
    ConnectionSteps c.Leaves (fun _ => True) c' where
  toChained := chained_leaves
  executed _ _ _ _ _ := leaves_of_eq rfl
  quiet _ _ _ := leaves_of_eq rfl
  nextReply := .nextReply chained_leaves fun _ _ => leaves_of_eq rfl
  note := .note chained_leaves fun _ _ => leaves_of_eq rfl
  updateConnection f s x hx := by
    have hindex : c'.index ≠ c.index := fun heq => hne (congrArg ConnectionId.mk heq)
    show (s.connections.modify c'.index f)[c.index]? = some x
    rw [List.getElem?_modify_ne f _ hindex]
    exact hx
  idle _ _ _ := leaves_of_eq rfl

/-- So does every call on another connection. -/
theorem leaves_on (c' : ConnectionId) (hne : c' ≠ c) (call : ConnectionCall) :
    Within c.Leaves (call.on c').run := by
  have H := leaves_steps hne
  cases call with
  | query statement values =>
    exact .run_bind H.toChained (H.queryWith statement values) fun _ => .run_pure H.toChained _
  | begin => exact H.begin
  | commit => exact H.finish _ _ fun _ _ _ _ he => by cases he
  | rollback => exact H.finish _ _ fun _ _ _ _ he => by cases he
  | release => exact .run_lift H.release
  | close => exact .run_lift H.close

/-- And so does handing out a connection, also where that gets the same driver connection. -/
theorem leaves_connect (id : DatabaseId) : Within c.Leaves id.connect.run := by
  have H : PoolSteps c.Leaves :=
    { toChained := chained_leaves
      openRaw := fun _ => .openRaw chained_leaves (fun _ _ => leaves_of_eq rfl)
        fun _ _ => leaves_of_eq rfl
      note := .note chained_leaves fun _ _ => leaves_of_eq rfl
      addConnection := fun y s x hx => by
        have hlt := (List.getElem?_eq_some_iff.mp hx).1
        show (s.connections ++ [y])[c.index]? = some x
        rw [List.getElem?_append_left hlt]
        exact hx
      idle := fun _ _ _ => leaves_of_eq rfl }
  exact H.connect id

/-! ## Interleavings -/

/-- Calls on one connection, between which anything may happen that leaves that connection as it
is; `stray` are the events that these calls ask for. -/
inductive Interleaved (c : ConnectionId) (s : Session) :
    List ConnectionCall → List Event → Session → Prop where
  | refl : Interleaved c s [] [] s
  | call {calls : List ConnectionCall} {stray : List Event} {t : Session}
      (h : Interleaved c s calls stray t) (call : ConnectionCall) (events : List Event)
      (hevents : ((call.on c).run.run t).2.server.events = t.server.events ++ events) :
      Interleaved c s (calls ++ [call]) (stray ++ events) ((call.on c).run.run t).2
  | elsewhere {calls : List ConnectionCall} {stray : List Event} {t : Session}
      (h : Interleaved c s calls stray t) {α : Type} {x : SessionM α}
      (hx : Within c.Leaves x.run) : Interleaved c s calls stray (x.run.run t).2

/-- The level at which calls leave a released connection. -/
def strayLevel (raw : RawId) (level : Nat) (calls : List ConnectionCall) : Nat :=
  calls.foldl (fun level call => (call.stray raw level).2) level

theorem strayEvents_append (raw : RawId) (level : Nat) (calls : List ConnectionCall)
    (call : ConnectionCall) :
    strayEvents raw level (calls ++ [call]) =
      strayEvents raw level calls ++ (call.stray raw (strayLevel raw level calls)).1 := by
  induction calls generalizing level with
  | nil => simp [strayEvents, strayLevel]
  | cons first calls ih =>
    rw [List.cons_append, strayEvents, ih, strayEvents, List.append_assoc]
    rfl

theorem strayLevel_append (raw : RawId) (level : Nat) (calls : List ConnectionCall)
    (call : ConnectionCall) :
    strayLevel raw level (calls ++ [call]) = (call.stray raw (strayLevel raw level calls)).2 := by
  rw [strayLevel, List.foldl_append]
  rfl

/-- Through any interleaving a released connection stays released, and its level and what its calls
ask for depend on these calls alone. -/
theorem Interleaved.stands {s t : Session} {calls : List ConnectionCall} {stray : List Event}
    (h : Interleaved c s calls stray t) (hreleased : x.released = true) (hx : c.Is x s) :
    c.Is { x with level := strayLevel x.raw x.level calls } t ∧
      stray = strayEvents x.raw x.level calls := by
  induction h with
  | refl => exact ⟨hx, rfl⟩
  | @call calls stray t h call events hevents ih =>
    obtain ⟨hstands, rfl⟩ := ih
    have hcall := leads_on (x := { x with level := strayLevel x.raw x.level calls }) hreleased call t
      ⟨hstands, rfl⟩
    refine ⟨?_, ?_⟩
    · rw [strayLevel_append]
      exact hcall.connection
    · have heq := hevents.symm.trans hcall.events
      rw [strayEvents_append, List.append_cancel_left heq]
  | @elsewhere calls stray t h α y hy ih =>
    obtain ⟨hstands, rfl⟩ := ih
    exact ⟨hy t _ hstands, rfl⟩

/-! ## Calls that ask for nothing -/

/-- The calls are harmless when the first one is and the others are from there on. -/
theorem harmless_cons (level : Nat) (call : ConnectionCall) (calls : List ConnectionCall) :
    ConnectionCall.Harmless level (call :: calls) ↔
      (¬ call.closes ∧ (call.ends → level ≠ 1)) ∧
        ConnectionCall.Harmless (level + [call].countP ConnectionCall.begins) calls := by
  have hcount : ∀ before, (call :: before).countP ConnectionCall.begins =
      [call].countP ConnectionCall.begins + before.countP ConnectionCall.begins := by
    intro before
    rw [← List.countP_append]
    rfl
  constructor
  · rintro ⟨hcloses, hends⟩
    obtain ⟨hfirst, hrest⟩ := List.forall_mem_cons.mp hcloses
    refine ⟨⟨hfirst, hends [] call calls rfl⟩, hrest, ?_⟩
    rintro before ending after rfl hending
    have hbefore := hends (call :: before) ending after rfl hending
    rw [hcount] at hbefore
    omega
  · rintro ⟨⟨hfirst, hlevel⟩, hcloses, hends⟩
    refine ⟨List.forall_mem_cons.mpr ⟨hfirst, hcloses⟩, ?_⟩
    intro before ending after hsplit hending
    cases before with
    | nil =>
      obtain ⟨rfl, rfl⟩ := List.cons.inj hsplit
      exact hlevel hending
    | cons first before =>
      obtain ⟨rfl, rfl⟩ := List.cons.inj hsplit
      have hbefore := hends before ending after rfl hending
      rw [hcount]
      omega

/-- What the calls ask for is nothing exactly when they are harmless. -/
theorem strayEvents_eq_nil_iff (raw : RawId) (level : Nat) (calls : List ConnectionCall) :
    strayEvents raw level calls = [] ↔ ConnectionCall.Harmless level calls := by
  induction calls generalizing level with
  | nil => simp [strayEvents, ConnectionCall.Harmless]
  | cons call calls ih =>
    have hfirst : (call.stray raw level).1 = [] ↔
        ¬ call.closes ∧ (call.ends → level ≠ 1) := by
      cases call <;> simp [ConnectionCall.stray, ConnectionCall.closes, ConnectionCall.ends] <;>
        split <;> simp_all
    rw [strayEvents, List.append_eq_nil_iff, ih, harmless_cons, hfirst]
    refine and_congr_right fun hharmless => ?_
    -- a call that asks for nothing only changes the level by beginning a transaction
    have hlevel : (call.stray raw level).2 = level + [call].countP ConnectionCall.begins := by
      cases call with
      | query | begin | release | close => rfl
      | commit | rollback => rw [ConnectionCall.stray, if_neg (hharmless.2 rfl)]; rfl
    rw [hlevel]

/-! ## Giving back -/

theorem leaves_takeBack (id : DatabaseId) (raw : RawId) : Within c.Leaves (id.takeBack raw) := by
  unfold DatabaseId.takeBack
  refine .bind chained_leaves (.get chained_leaves) fun s => ?_
  dsimp only
  split
  · exact fun _ => leaves_of_eq rfl
  · exact fun _ => leaves_of_eq rfl

/-- A connection that is given back is released and outside a transaction. -/
theorem leads_release_held (hheld : x.released = false) :
    Leads (c.Is x) c.release fun _ => c.Is { x with level := 0, released := true } := by
  have habandon : Leads (c.Is x) c.abandon fun _ => c.Is { x with level := 0 } := by
    unfold abandon
    refine inTransaction_bind_at (fun _ hs => hs.connection_eq) ?_
    by_cases hlevel : 0 < x.level
    · simp only [hlevel, decide_true, if_true]
      refine .bind (leads_note (fun _ _ hs => hs) _ _ _) fun _ => ?_
      refine read_bind_at (fun _ hs => hs.connection_eq) ?_
      exact .bind (M := fun _ => c.Is x) (fun _ hs => hs) fun _ => leads_is_update _
    · have hzero : x.level = 0 := by omega
      simp only [hlevel, decide_false]
      rw [← hzero]
      exact fun _ hs => hs
  unfold release
  refine read_bind_at (fun _ hs => hs.connection_eq) ?_
  rw [hheld]
  refine .bind habandon fun _ => .bind (leads_is_update _) fun _ => ?_
  refine read_bind_at (fun _ hs => hs.connection_eq) ?_
  cases x.owner with
  | none => exact fun _ hs => hs
  | some d => exact fun s hs => leaves_takeBack d x.raw s _ hs

end ConnectionId

/-- What calls on a released connection ask of the driver, in any order and number and between
whatever else happens, depends on these calls alone: closing closes the driver connection, and ending
a transaction when exactly one was begun since the release, or since the last such ending, ends it
there. They ask for nothing exactly when none closes, and none ends a transaction when exactly one
was begun. -/
theorem Session.stray_of_interleaved {s t : Session} {c : ConnectionId}
    {calls : List ConnectionCall} {stray : List Event} (hheld : (s.connection c).released = false)
    (h : c.Interleaved (c.release.run s).2 calls stray t) :
    stray = ConnectionId.strayEvents (s.connection c).raw 0 calls ∧
      (stray = [] ↔ ConnectionCall.Harmless 0 calls) := by
  have hthere : c.Is (s.connection c) s := by
    refine (connection_cases s c).resolve_right fun hnone => ?_
    rw [hnone] at hheld
    cases hheld
  have hreleased := ConnectionId.leads_release_held hheld s hthere
  have hstray := (h.stands rfl hreleased).2
  refine ⟨hstray, ?_⟩
  rw [hstray]
  exact ConnectionId.strayEvents_eq_nil_iff _ 0 calls

namespace Session

/-- A database whose only driver connection is held by its only connection. -/
def lending : Session :=
  { empty .empty with
    databases := [.fresh (some "shop") (.standard .mysql) .factory ⟨none, none, 10, .null, none⟩]
    connections := [⟨1, some ⟨0⟩, 0, false⟩]
    server := ⟨1, [.opened 1 none], []⟩ }

/-- The statement of a transaction. -/
def insertion : ConnectionCall :=
  .query (.text "INSERT INTO Person VALUES (7)") .null

/-- The first connection was given back, a second one got its driver connection and has inserted a
row in a transaction. -/
def lent : Session :=
  let given := ((ConnectionId.release ⟨0⟩).run lending).2
  let taken := ((DatabaseId.connect ⟨0⟩).run.run given).2
  let begun := ((ConnectionCall.begin.on ⟨1⟩).run.run taken).2
  ((insertion.on ⟨1⟩).run.run begun).2

theorem interleaved_lent :
    ConnectionId.Interleaved ⟨0⟩ ((ConnectionId.release ⟨0⟩).run lending).2 [] [] lent := by
  have hgiven : ConnectionId.Interleaved ⟨0⟩ _ [] [] ((ConnectionId.release ⟨0⟩).run lending).2 :=
    .refl
  have htaken := hgiven.elsewhere (ConnectionId.leaves_connect ⟨0⟩)
  have hbegun := htaken.elsewhere (ConnectionId.leaves_on ⟨1⟩ (by decide) .begin)
  exact hbegun.elsewhere (ConnectionId.leaves_on ⟨1⟩ (by decide) insertion)

/-- Statements on the connection that was given back are refused, also those of savepoints, and a
second release does nothing. -/
theorem stray_of_interleaved_refused :
    ∃ t, ConnectionId.Interleaved ⟨0⟩ ((ConnectionId.release ⟨0⟩).run lending).2
        [insertion, .begin, .begin, .commit, .release] [] t ∧
      ConnectionCall.Harmless 0 [insertion, .begin, .begin, .commit, .release] ∧
      (t.connection ⟨1⟩).level = 1 ∧ t.server.events = lent.server.events := by
  have hquery := interleaved_lent.call insertion [] rfl
  have hbegun := (hquery.call .begin [] rfl).call .begin [] rfl
  have hended := (hbegun.call .commit [] rfl).call .release [] rfl
  have hharmless := (stray_of_interleaved (s := lending) rfl hended).2.mp rfl
  exact ⟨_, hended, hharmless, rfl, rfl⟩

/-- A transaction begun and committed on the connection that was given back commits the transaction of
the second one, which is still in it. -/
theorem commits_other_transaction :
    ∃ t, (lending.connection ⟨0⟩).released = false ∧
      ConnectionId.Interleaved ⟨0⟩ ((ConnectionId.release ⟨0⟩).run lending).2 [.begin, .commit]
        [.committed (lending.connection ⟨0⟩).raw] t ∧
      (t.connection ⟨1⟩).released = false ∧
      (t.connection ⟨1⟩).raw = (lending.connection ⟨0⟩).raw ∧ (t.connection ⟨1⟩).level = 1 ∧
      t.server.events = [.opened 1 none, .executed 1 (.text "INSERT INTO Person VALUES (7)") [],
        .committed 1] := by
  have hbegun := interleaved_lent.call .begin [] rfl
  have hended := hbegun.call .commit [.committed 1] rfl
  exact ⟨_, rfl, hended, rfl, rfl, rfl, rfl⟩

end Session

end TableOps
