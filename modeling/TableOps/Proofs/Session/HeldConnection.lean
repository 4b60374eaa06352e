import TableOps.Proofs.Session.PoolEffect
import TableOps.Proofs.Session.Savepoints
import TableOps.Session.Transaction

/-!
# A connection that is held

What the calls on a connection that is not released ask of the server, and how they leave it.

* `View` — what matters to a connection in a session.
* `ConnectionId.view_execute`, `ConnectionId.view_queryRaw` — a statement, in a transaction or not.
* `ConnectionId.view_begin_nested`, `ConnectionId.view_finish_nested`, … — the two ends of a
  transaction.
* `Transaction.leads_transaction` — a block, from its two ends and the call inside it.
-/

namespace TableOps

open Session

/-! ## Calls that succeed -/

/-- A call that succeeds, and what follows it. -/
theorem Leads.run_bind_ok {α β : Type} {P M : Session → Prop} {Q : Except Failure β → Session → Prop}
    {x : SessionM α} {f : α → SessionM β} {a : α} (hx : Leads P x.run fun r s => r = .ok a ∧ M s)
    (hf : Leads M (f a).run Q) : Leads P (x >>= f).run Q := by
  refine .run_bind (M := fun a' s => a' = a ∧ M s) (fun s hs => ?_) fun a' => ?_
  · obtain ⟨hr, hM⟩ := hx s hs
    rw [hr]
    exact ⟨fun a' ha' => ⟨(Except.ok.inj ha').symm, hM⟩, fun _ he => nomatch he⟩
  · rintro s ⟨rfl, hM⟩
    exact hf s hM

/-- A call whose result is known, and what follows it when that is a success. -/
theorem Leads.run_bind_result {α β : Type} {P M : Session → Prop}
    {Q : Except Failure β → Session → Prop} {x : SessionM α} {f : α → SessionM β}
    {result : Except Failure α} (hx : Leads P x.run fun r s => r = result ∧ M s)
    (hfail : ∀ e, result = .error e → ∀ s, M s → Q (.error e) s)
    (hf : ∀ a, result = .ok a → Leads M (f a).run Q) : Leads P (x >>= f).run Q := by
  refine .run_bind (M := fun a s => result = .ok a ∧ M s) (fun s hs => ?_) fun a => ?_
  · obtain ⟨hr, hM⟩ := hx s hs
    exact ⟨fun a ha => ⟨hr.symm.trans ha, hM⟩, fun e he => hfail e (hr.symm.trans he) _ hM⟩
  · rintro s ⟨ha, hM⟩
    exact hf a ha s hM

/-- A call, and a cleanup that succeeds. -/
theorem Leads.run_always_ok {α : Type} {P M Q : Session → Prop} {x : SessionM α}
    {cleanup : SessionM Unit} {result : Except Failure α}
    (hx : Leads P x.run fun r s => r = result ∧ M s)
    (hcleanup : Leads M cleanup.run fun r s => r = .ok () ∧ Q s) :
    Leads P (x.always cleanup).run fun r s => r = result ∧ Q s := by
  unfold SessionM.always
  refine Leads.bind hx fun r => ?_
  rintro s ⟨rfl, hs⟩
  refine Leads.bind (P := M) (Q := fun out s => out = r ∧ Q s) hcleanup (fun done => ?_) s hs
  rintro s' ⟨rfl, hs'⟩
  exact ⟨rfl, hs'⟩

/-! ## What is seen of a session -/

/-- What matters to a connection in a session: how it stands, what was asked so far and the answers
to come. -/
structure View (c : ConnectionId) (x : Connection) (events : List Event) (replies : List Reply)
    (s : Session) : Prop where
  connection : s.connection c = x
  events : s.server.events = events
  replies : s.server.replies = replies

namespace View

variable {α : Type} {c : ConnectionId} {x : Connection} {events : List Event} {replies : List Reply}

theorem read_bind {Q : α → Session → Prop} {f : Connection → StateM Session α}
    (h : Leads (View c x events replies) (f x) Q) :
    Leads (View c x events replies) (c.read >>= f) Q :=
  ConnectionId.read_bind_at (fun _ hs => hs.connection) h

theorem run_read_bind {Q : Except Failure α → Session → Prop} {f : Connection → SessionM α}
    (h : Leads (View c x events replies) (f x).run Q) :
    Leads (View c x events replies) ((liftM c.read : SessionM Connection) >>= f).run Q :=
  ConnectionId.run_read_bind_at (fun _ hs => hs.connection) h

theorem run_inTransaction_bind {Q : Except Failure α → Session → Prop} {f : Bool → SessionM α}
    (h : Leads (View c x events replies) (f (0 < x.level)).run Q) :
    Leads (View c x events replies) ((liftM c.inTransaction : SessionM Bool) >>= f).run Q :=
  ConnectionId.run_inTransaction_bind_at (fun _ hs => hs.connection) h

theorem leads_note (level : LogLevel) (source : LogSource) (text : String) :
    Leads (View c x events replies) (note level source text) fun _ => View c x events replies :=
  ConnectionId.leads_note (fun _ _ hs => ⟨hs.connection, hs.events, hs.replies⟩) level source text

theorem leads_emit (e : Event) :
    Leads (View c x events replies) (emit e) fun _ => View c x (events ++ [e]) replies :=
  fun _ hs => ⟨hs.connection, congrArg (· ++ [e]) hs.events, hs.replies⟩

theorem leads_nextReply :
    Leads (View c x events replies) nextReply fun reply s =>
      reply = replies.headD .nothing ∧ View c x events replies.tail s := by
  unfold nextReply
  refine Leads.bind (M := fun t s => t.server.replies = replies ∧ View c x events replies s)
    (fun s hs => ⟨hs.replies, hs⟩) fun t => ?_
  rintro s ⟨ht, hs⟩
  rw [ht]
  cases replies with
  | nil => exact ⟨rfl, hs⟩
  | cons reply rest => exact ⟨rfl, hs.connection, hs.events, rfl⟩

/-- A connection that is not released can be changed. -/
theorem leads_update (hreleased : x.released = false) (f : Connection → Connection) :
    Leads (View c x events replies) (updateConnection c f) fun _ => View c (f x) events replies := by
  intro s hs
  refine ⟨?_, hs.events, hs.replies⟩
  rw [← hs.connection] at hreleased ⊢
  exact ConnectionId.connection_update hreleased f

end View

/-! ## Statements -/

namespace ConnectionId

variable {c : ConnectionId} {x : Connection} {events : List Event} {replies : List Reply}

/-- A statement is sent, and the next answer is its result. -/
theorem view_execute (hreleased : x.released = false) (statement : Value) (values : List Value) :
    Leads (View c x events replies) (c.execute statement values).run fun r s =>
      r = (replies.headD .nothing).result ∧
        View c x (events ++ [.executed x.raw statement values]) replies.tail s := by
  unfold execute
  refine View.run_read_bind ?_
  rw [hreleased]
  refine .run_liftM_bind (View.leads_note _ _ _) fun _ => ?_
  refine .run_liftM_bind (View.leads_emit _) fun _ => ?_
  refine .run_liftM_bind View.leads_nextReply fun reply => ?_
  rintro s ⟨rfl, hs⟩
  cases replies.headD .nothing with
  | refused reason => exact ⟨rfl, hs⟩
  | done columns rows rowCount lastInsertId => exact ⟨rfl, hs⟩

theorem view_rollbackHeld (hreleased : x.released = false) :
    Leads (View c x events replies) c.rollbackHeld fun _ =>
      View c x (events ++ [.rolledBack x.raw]) replies := by
  unfold rollbackHeld
  refine View.read_bind ?_
  rw [hreleased]
  exact View.leads_emit _

/-- A statement outside a transaction is sent like one inside, and then committed or rolled back. -/
theorem view_queryRaw (hreleased : x.released = false) (statement : Value) (values : List Value) :
    Leads (View c x events replies) (c.queryRaw statement values).run fun r s =>
      r = (replies.headD .nothing).result ∧
        ∃ ending, (ending = [] ∨ ending = [.committed x.raw] ∨ ending = [.rolledBack x.raw]) ∧
          View c x (events ++ .executed x.raw statement values :: ending) replies.tail s := by
  rw [queryRaw_eq_onFailure]
  refine View.run_inTransaction_bind ?_
  split
  · intro s hs
    obtain ⟨hr, hview⟩ := view_execute hreleased statement values s hs
    exact ⟨hr, [], .inl rfl, hview⟩
  · -- a failure is rolled back before the call ends, a success is committed
    refine .run_bind (M := fun a s => (replies.headD .nothing).result = .ok a ∧
      View c x (events ++ [.executed x.raw statement values]) replies.tail s) ?_ fun a => ?_
    · refine .run_onFailure (view_execute hreleased statement values) ?_ fun f => ?_
      · rintro a s ⟨hr, hview⟩
        refine ⟨fun b hb => ⟨hr.symm.trans hb, hview⟩, fun f hf => ?_⟩
        cases hf
      · rintro s ⟨hr, hview⟩
        have hrolled := view_rollbackHeld hreleased s hview
        rw [List.append_assoc] at hrolled
        refine ⟨fun b hb => ?_, fun e he => ⟨he ▸ hr, _, .inr (.inr rfl), hrolled⟩⟩
        cases hb
    · refine run_read_bind_at (fun _ hs => hs.2.connection) ?_
      rintro s ⟨hr, hview⟩
      have hcommitted := View.leads_emit (.committed x.raw) s hview
      rw [List.append_assoc] at hcommitted
      exact ⟨hr.symm, _, .inr (.inl rfl), hcommitted⟩

/-! ## Beginning and ending -/

/-- The outermost transaction sends nothing when it begins. -/
theorem view_begin_outer (hreleased : x.released = false) (hlevel : x.level = 0) :
    Leads (View c x events replies) c.begin.run fun r s =>
      r = .ok () ∧ View c { x with level := 1 } events replies s := by
  unfold begin
  refine .run_liftM_bind (View.leads_update hreleased _) fun _ => View.run_read_bind ?_
  rw [hlevel]
  exact .run_liftM fun s hs => ⟨rfl, View.leads_note _ _ _ s hs⟩

/-- A transaction inside another one asks for a savepoint when it begins. It counts even if the
savepoint is refused. -/
theorem view_begin_savepoint (hreleased : x.released = false) (hlevel : 0 < x.level) :
    Leads (View c x events replies) c.begin.run fun r s =>
      r = (replies.headD .nothing).result.map (fun _ => ()) ∧
        View c { x with level := x.level + 1 }
          (events ++
            [.executed x.raw (.text (SavepointCommand.set (savepoint (x.level + 1))).text) []])
          replies.tail s := by
  have hdeeper : 1 < x.level + 1 := Nat.succ_lt_succ hlevel
  unfold begin
  refine .run_liftM_bind (View.leads_update hreleased _) fun _ => View.run_read_bind ?_
  simp only [hdeeper, if_true]
  refine .run_bind_result (view_execute (x := { x with level := x.level + 1 }) hreleased _ [])
    (fun f hf s hs => ⟨by rw [hf]; rfl, hs⟩) fun a ha => .run_liftM fun s hs => ⟨by rw [ha]; rfl, ?_⟩
  exact View.leads_note _ _ _ s hs

/-- A transaction inside another one sets a savepoint when it begins. -/
theorem view_begin_nested (hreleased : x.released = false) (hlevel : 0 < x.level) {r : Result}
    (hreply : (replies.headD .nothing).result = .ok r) :
    Leads (View c x events replies) c.begin.run fun r s =>
      r = .ok () ∧ View c { x with level := x.level + 1 }
        (events ++
          [.executed x.raw (.text (SavepointCommand.set (savepoint (x.level + 1))).text) []])
        replies.tail s := by
  have hbegin : Leads (View c x events replies) c.begin.run _ :=
    view_begin_savepoint hreleased hlevel
  rw [hreply] at hbegin
  exact hbegin

/-- The outermost transaction ends with an event. -/
theorem view_finish_outer (hreleased : x.released = false) (hlevel : x.level = 1)
    (word verb : String) (event : RawId → Event) :
    Leads (View c x events replies) (c.finish word verb event).run fun r s =>
      r = .ok () ∧ View c { x with level := 0 } (events ++ [event x.raw]) replies s := by
  unfold finish finishWith
  refine View.run_read_bind ?_
  rw [hlevel]
  refine .run_liftM_bind (View.leads_emit _) fun _ => ?_
  refine .run_liftM_bind (View.leads_note _ _ _) fun _ => ?_
  refine .run_liftM fun s hs => ⟨rfl, ?_⟩
  have hupdate := View.leads_update hreleased (fun x => { x with level := x.level - 1 }) s hs
  rwa [hlevel] at hupdate

/-- A transaction inside another one ends with a command about its savepoint. It stays open if the
command is refused. -/
theorem view_finish_savepoint (hreleased : x.released = false) (hlevel : 1 < x.level)
    (word verb : String) (event : RawId → Event) :
    Leads (View c x events replies) (c.finish word verb event).run fun r s =>
      r = (replies.headD .nothing).result.map (fun _ => ()) ∧
        View c { x with level := x.level - if r.isOk then 1 else 0 }
          (events ++ [.executed x.raw (.text (verb ++ " SAVEPOINT " ++ savepoint x.level)) []])
          replies.tail s := by
  have hzero : x.level ≠ 0 := by omega
  unfold finish finishWith
  refine View.run_read_bind ?_
  simp only [hzero, hlevel, if_true, if_false]
  refine .run_bind_result (view_execute hreleased _ [])
    (fun f hf s hs => ⟨by rw [hf]; rfl, hs⟩) fun a ha => ?_
  refine .run_liftM_bind (View.leads_note _ _ _) fun _ => ?_
  refine .run_liftM fun s hs => ⟨by rw [ha]; rfl, ?_⟩
  exact View.leads_update hreleased (fun x => { x with level := x.level - 1 }) s hs

/-- A transaction inside another one ends with a command about its savepoint. -/
theorem view_finish_nested (hreleased : x.released = false) (hlevel : 1 < x.level)
    (word verb : String) (event : RawId → Event) {r : Result}
    (hreply : (replies.headD .nothing).result = .ok r) :
    Leads (View c x events replies) (c.finish word verb event).run fun r s =>
      r = .ok () ∧ View c { x with level := x.level - 1 }
        (events ++ [.executed x.raw (.text (verb ++ " SAVEPOINT " ++ savepoint x.level)) []])
        replies.tail s := by
  intro s hs
  obtain ⟨hr, hview⟩ := view_finish_savepoint hreleased hlevel word verb event s hs
  rw [hreply] at hr
  rw [hr] at hview ⊢
  exact ⟨rfl, hview⟩

/-! ## Giving back -/

/-- A driver connection that is taken back goes to the pool or is closed. -/
theorem view_takeBack (d : DatabaseId) (raw : RawId) :
    Leads (View c x events replies) (d.takeBack raw) fun _ s =>
      ∃ closing, (closing = [] ∨ closing = [.closed raw]) ∧
        View c x (events ++ closing) replies s := by
  intro s hs
  have hkept : ∃ closing, (closing = [] ∨ closing = [.closed raw]) ∧
      View c x (events ++ closing) replies s :=
    ⟨[], .inl rfl, hs.connection, by rw [List.append_nil, hs.events], hs.replies⟩
  have hclosed := View.leads_emit (.closed raw) s hs
  unfold DatabaseId.takeBack
  show ∃ closing, _ ∧ View c x _ replies ((if !(s.database d).closed ∧
    ((s.database d).idle.length : Int) < (s.database d).poolSize then _ else _ :
      StateM Session Unit).run s).2
  split
  · obtain ⟨closing, hclosing, hview⟩ := hkept
    exact ⟨closing, hclosing, hview.connection, hview.events, hview.replies⟩
  · exact ⟨_, .inr rfl, hclosed⟩

/-- What is asked of the driver for a transaction that is open when its connection is given back. -/
def undoing (x : Connection) : List Event :=
  if 0 < x.level then [.rolledBack x.raw] else []

theorem view_abandon (hreleased : x.released = false) :
    Leads (View c x events replies) c.abandon fun _ =>
      View c { x with level := 0 } (events ++ undoing x) replies := by
  intro s hs
  have hlevel : (s.connection c).level = x.level := congrArg Connection.level hs.connection
  have hrun : (c.abandon.run s) = (if decide (0 < (s.connection c).level) then (do
      note .warning .connection "Releasing a connection with an open transaction; rolling back"
      emit (.rolledBack (← c.read).raw)
      updateConnection c fun x => { x with level := 0 } : StateM Session Unit)
      else pure ()).run s := rfl
  rw [hrun, hlevel]
  unfold undoing
  by_cases hopen : 0 < x.level
  · rw [decide_eq_true hopen, if_pos rfl, if_pos hopen]
    have hundone : Leads (View c x events replies) (do
        note .warning .connection "Releasing a connection with an open transaction; rolling back"
        emit (.rolledBack (← c.read).raw)
        updateConnection c fun x => { x with level := 0 } : StateM Session Unit) fun _ =>
        View c { x with level := 0 } (events ++ [.rolledBack x.raw]) replies := by
      refine .bind (View.leads_note _ _ _) fun _ => View.read_bind ?_
      exact .bind (View.leads_emit _) fun _ => View.leads_update hreleased _
    exact hundone s hs
  · rw [decide_eq_false hopen, if_neg Bool.false_ne_true, if_neg hopen, List.append_nil]
    have hzero : x.level = 0 := Nat.eq_zero_of_not_pos hopen
    exact ⟨hs.connection.trans (by rw [← hzero]), hs.events, hs.replies⟩

/-- A connection that is given back goes to the pool or is closed; a transaction that is open is
rolled back before. -/
theorem view_release (hreleased : x.released = false) :
    Leads (View c x events replies) c.release fun _ s =>
      ∃ closing, (closing = [] ∨ closing = [.closed x.raw]) ∧
        View c { x with level := 0, released := true } (events ++ (undoing x ++ closing)) replies
          s := by
  unfold release
  refine View.read_bind ?_
  rw [hreleased]
  refine Leads.bind (view_abandon hreleased) fun _ => ?_
  refine .bind (View.leads_update (x := { x with level := 0 }) hreleased _) fun _ =>
    View.read_bind ?_
  simp only [← List.append_assoc]
  cases x.owner with
  | none => exact fun s hs => ⟨_, .inr rfl, View.leads_emit _ s hs⟩
  | some d => exact view_takeBack d x.raw

end ConnectionId

/-! ## Blocks -/

namespace Transaction

variable {α : Type} {P M Q : Session → Prop}

/-- A block is left by ending its transaction and then cleaning up. -/
theorem leads_leave {t : Transaction} {failure : Option Failure}
    (hend : Leads P (t.settle failure).run fun r s => r = .ok () ∧ M s)
    (hcleanup : Leads M t.cleanup.run fun r s => r = .ok () ∧ Q s) :
    Leads P (t.leave failure).run fun r s => r = .ok () ∧ Q s := by
  unfold leave
  exact .run_always_ok hend hcleanup

/-- A block is entered by beginning its transaction. -/
theorem leads_begin {t : Transaction}
    (hbegin : Leads P t.connection.begin.run fun r s => r = .ok () ∧ Q s) :
    Leads P (do
      t.connection.begin.onFailure (do
        let _ ← t.cleanup.run
        return ())
      return t : SessionM Transaction).run fun r s => r = .ok t ∧ Q s := by
  have hfirst : Leads P (t.connection.begin.onFailure (do
      let _ ← t.cleanup.run
      return ())).run fun r s => r = .ok () ∧ Q s := by
    refine .run_onFailure hbegin (fun _ _ h => h) fun f => ?_
    rintro s ⟨hr, -⟩
    cases hr
  exact .run_bind_ok hfirst (.run_pure fun s hs => ⟨rfl, hs⟩)

/-- The transaction of a block that succeeds, or fails with an error, is ended inside another one by
releasing a savepoint, or by going back to it. -/
theorem leads_settle_nested {t : Transaction} {x : Connection} {events : List Event}
    {replies : List Reply} (hreleased : x.released = false) (hlevel : 1 < x.level)
    {failure : Option Failure} (hended : ∀ f, failure = some f → f.isError = true)
    {r : Result} (hend : (replies.headD .nothing).result = .ok r) :
    Leads (View t.connection x events replies) (t.settle failure).run fun r s =>
      r = .ok () ∧ View t.connection { x with level := x.level - 1 }
        (events ++ [.executed x.raw (.text
          ((if failure.isSome then SavepointCommand.restore else SavepointCommand.release)
            (ConnectionId.savepoint x.level)).text) []]) replies.tail s := by
  unfold settle
  cases failure with
  | none =>
    exact ConnectionId.view_finish_nested hreleased hlevel "COMMIT" "RELEASE" _ hend
  | some f =>
    simp only [hended f rfl, if_true]
    exact ConnectionId.view_finish_nested hreleased hlevel "ROLLBACK" "ROLLBACK TO" _ hend

/-- The transaction of a block that is broken off is left open. -/
theorem leads_settle_broken {t : Transaction} {f : Failure} (hf : f.isError = false) :
    Leads P (t.settle (some f)).run fun r s => r = .ok () ∧ P s := by
  unfold settle
  simp only [hf, Bool.false_eq_true, if_false]
  exact .run_pure fun _ hs => ⟨rfl, hs⟩

/-- The failure that a call ends with, if it does. -/
def failure? : Except Failure α → Option Failure
  | .ok _ => none
  | .error f => some f

/-- A block around a call. -/
theorem leads_transaction {database : SessionM DatabaseId} {r : Route} {t : Transaction}
    {body : ConnectionId → SessionM α} {result : Except Failure α} {N : Session → Prop}
    (henter : Leads P (Transaction.enter database r).run fun r s => r = .ok t ∧ M s)
    (hbody : Leads M (body t.connection).run fun r s => r = result ∧ N s)
    (hleave : Leads N (t.leave (failure? result)).run fun r s => r = .ok () ∧ Q s) :
    Leads P (Session.transaction database r body).run fun r s => r = result ∧ Q s := by
  unfold Session.transaction
  refine .run_bind_ok henter ?_
  refine Leads.run_bind_ok (a := result) (M := N) ?_ ?_
  · refine .run_lift fun s hs => ?_
    obtain ⟨hr, hs'⟩ := hbody s hs
    exact ⟨congrArg Except.ok hr, hs'⟩
  · cases result with
    | ok a => exact .run_bind_ok hleave (.run_pure fun s hs => ⟨rfl, hs⟩)
    | error f => exact .run_bind_ok hleave (.run_throw fun s hs => ⟨rfl, hs⟩)

end Transaction

end TableOps
