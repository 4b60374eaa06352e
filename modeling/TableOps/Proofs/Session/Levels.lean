import TableOps.Proofs.Session.Blocks
import TableOps.Proofs.Session.Exchanges
import TableOps.Proofs.Session.Released

/-!
# Levels after failures

A transaction that is begun counts before its savepoint is set, and one that is ended stops counting
after its savepoint is released or restored. When the driver refuses the statement, the beginning has
therefore raised the level and the end has not lowered it. Either way the level is one too high
afterwards, and it stays so. A block that is broken off is not ended at all, with the same outcome.

* `Session.failedSavepoints` — how many statements about savepoints failed on a driver connection.
* `ConnectionId.leads_is_begin`, `ConnectionId.leads_is_finishWith` — how a call that begins or ends a
  transaction leaves the connection, whether it fails or not, also after a release.
* `Script.unended` — how many blocks of a body are broken off when it is run.
* `ConnectionId.Counts` — the level has grown by the number of these failures and blocks.
* `Script.counts_run` — bodies count, however their blocks are nested.

Main statement: `ConnectionId.levels_after_failures`, when a call or a block that fails leaves the
level as it was, and when the enclosing block still commits.
-/

namespace TableOps

open Session

/-! ## Whether a statement succeeds -/

/-- A statement on the connection succeeds when it is answered by `reply`. -/
def Connection.accepts (x : Connection) (reply : Reply) : Bool :=
  !x.released && reply.result.isOk

/-- There is a connection of the number, it is `x`, and `reply` is the next answer. -/
structure ConnectionId.Awaits (c : ConnectionId) (x : Connection) (reply : Reply) (s : Session) :
    Prop where
  connection : c.Is x s
  reply : s.server.replies.headD .nothing = reply

namespace ConnectionId

variable {c : ConnectionId} {x : Connection} {reply : Reply}

namespace Awaits

theorem connection_eq {s : Session} (h : c.Awaits x reply s) : s.connection c = x :=
  h.connection.connection_eq

theorem leads_note (level : LogLevel) (source : LogSource) (text : String) :
    Leads (c.Awaits x reply) (note level source text) fun _ => c.Awaits x reply :=
  ConnectionId.leads_note (fun _ _ hs => ⟨hs.connection, hs.reply⟩) level source text

theorem leads_nextReply :
    Leads (c.Awaits x reply) nextReply fun r s => r = reply ∧ c.Is x s := by
  unfold nextReply
  refine Leads.bind (M := fun t s => t.server.replies.headD .nothing = reply ∧ c.Is x s)
    (fun s hs => ⟨hs.reply, hs.connection⟩) fun t => ?_
  rintro s ⟨ht, hs⟩
  cases hreplies : t.server.replies with
  | nil =>
    rw [hreplies] at ht
    exact ⟨ht, hs⟩
  | cons r rest =>
    rw [hreplies] at ht
    exact ⟨ht, hs⟩

end Awaits

theorem leads_is_note (level : LogLevel) (source : LogSource) (text : String) :
    Leads (c.Is x) (note level source text) fun _ => c.Is x :=
  ConnectionId.leads_note (fun _ _ hs => hs) level source text

/-- A statement leaves its connection as it is, and succeeds unless it is refused. -/
theorem leads_is_execute (statement : Value) (values : List Value) :
    Leads (c.Awaits x reply) (c.execute statement values).run fun r s =>
      r.isOk = x.accepts reply ∧ c.Is x s := by
  unfold execute
  refine run_read_bind_at (fun _ hs => hs.connection_eq) ?_
  unfold Connection.accepts
  cases x.released with
  | true => exact fun s hs => ⟨rfl, hs.connection⟩
  | false =>
    refine .run_liftM_bind (Awaits.leads_note _ _ _) fun _ => ?_
    refine .run_liftM_bind (M := fun _ => c.Awaits x reply) (fun s hs => ⟨hs.connection, hs.reply⟩)
      fun _ => ?_
    refine .run_liftM_bind Awaits.leads_nextReply fun r => ?_
    rintro s ⟨rfl, hs⟩
    cases r with
    | refused reason => exact ⟨rfl, hs⟩
    | done columns rows rowCount lastInsertId => exact ⟨rfl, hs⟩

/-! ## Beginning and ending -/

/-- A transaction that is begun counts, whether or not its savepoint can be set. -/
theorem leads_is_begin :
    Leads (c.Awaits x reply) c.begin.run fun r s =>
      r.isOk = (x.level == 0 || x.accepts reply) ∧ c.Is { x with level := x.level + 1 } s := by
  unfold begin
  refine .run_liftM_bind (M := fun _ => c.Awaits { x with level := x.level + 1 } reply)
    (fun s hs => ⟨leads_is_update _ s hs.connection, hs.reply⟩) fun _ => ?_
  refine run_read_bind_at (fun _ hs => hs.connection_eq) ?_
  dsimp only
  by_cases hlevel : x.level = 0
  · have houter : ¬ 1 < x.level + 1 := by omega
    rw [if_neg houter, hlevel]
    exact .run_liftM fun s hs => ⟨rfl, leads_is_note _ _ _ s (hlevel ▸ hs.connection)⟩
  · have hdeeper : 1 < x.level + 1 := by omega
    have hopen : (x.level == 0) = false := beq_eq_false_iff_ne.mpr hlevel
    rw [if_pos hdeeper, hopen, Bool.false_or]
    refine .run_bind (M := fun _ s => x.accepts reply = true ∧ c.Is { x with level := x.level + 1 } s)
      (fun s hs => ?_) fun _ => .run_liftM fun s hs => ⟨hs.1.symm, leads_is_note _ _ _ s hs.2⟩
    obtain ⟨hr, hstands⟩ := leads_is_execute (x := { x with level := x.level + 1 })
      (.text ("SAVEPOINT " ++ savepoint (x.level + 1))) [] s hs
    refine ⟨fun a ha => ⟨?_, hstands⟩, fun f hf => ⟨?_, hstands⟩⟩
    · rw [ha] at hr
      exact hr.symm
    · rw [hf] at hr
      exact hr

/-- A transaction that cannot be ended stays open, whatever the driver does to end its own. -/
theorem leads_is_finishWith (word verb : String) {ending : RawId → SessionM Unit}
    (hending : ∀ raw, Leads (c.Is x) (ending raw).run fun _ => c.Is x) :
    Leads (c.Awaits x reply) (c.finishWith word verb ending).run fun r =>
      c.Is { x with level := x.level - if r.isOk then 1 else 0 } := by
  have hrest : Leads (c.Is x) (do
      note .debug .connection (levelText word x.level)
      updateConnection c fun x => { x with level := x.level - 1 } : SessionM Unit).run
      fun r => c.Is { x with level := x.level - if r.isOk then 1 else 0 } :=
    .run_liftM_bind (leads_is_note _ _ _) fun _ => .run_liftM
      (leads_is_update fun x => { x with level := x.level - 1 })
  have hafter {α : Type} {first : SessionM α} {P : Session → Prop}
      (hfirst : Leads P first.run fun _ => c.Is x) : Leads P (do
        let _ ← first
        note .debug .connection (levelText word x.level)
        updateConnection c fun x => { x with level := x.level - 1 } : SessionM Unit).run
        fun r => c.Is { x with level := x.level - if r.isOk then 1 else 0 } :=
    .run_bind (M := fun _ => c.Is x)
      (fun s hs => ⟨fun _ _ => hfirst s hs, fun _ _ => hfirst s hs⟩) fun _ => hrest
  unfold finishWith
  refine run_read_bind_at (fun _ hs => hs.connection_eq) ?_
  dsimp only
  by_cases hzero : x.level = 0
  · rw [if_pos hzero]
    exact fun s hs => hs.connection
  rw [if_neg hzero]
  by_cases hdeeper : 1 < x.level
  · rw [if_pos hdeeper]
    exact hafter fun s hs => (leads_is_execute _ [] s hs).2
  · rw [if_neg hdeeper]
    exact hafter fun s hs => hending x.raw s hs.connection

/-- The end of a transaction changes its connection when it succeeds. -/
theorem connection_finishWith (s : Session) (word verb : String) {ending : RawId → SessionM Unit}
    (hending : ∀ raw t, ((ending raw).run.run t).2.connections = t.connections) :
    let out := (c.finishWith word verb ending).run.run s
    out.2.connection c =
      { s.connection c with level := (s.connection c).level - if out.1.isOk then 1 else 0 } := by
  rcases connection_cases s c with hc | hc
  · have hkept (raw : RawId) : Leads (c.Is (s.connection c)) (ending raw).run fun _ =>
        c.Is (s.connection c) := by
      intro t ht
      rw [Is] at ht ⊢
      rwa [hending raw t]
    exact (leads_is_finishWith word verb hkept s ⟨hc, rfl⟩).connection_eq
  · -- a number without a connection is in no transaction
    have hrun : (c.finishWith word verb ending).run.run s =
        (.error (.transaction .noneInProgress), s) := by
      show (if (s.connection c).level = 0 then _ else _ : SessionM Unit).run.run s = _
      rw [hc]
      rfl
    dsimp only
    rw [hrun]
    rfl

theorem connection_finish (s : Session) (word verb : String) (event : RawId → Event) :
    let out := (c.finish word verb event).run.run s
    out.2.connection c =
      { s.connection c with level := (s.connection c).level - if out.1.isOk then 1 else 0 } :=
  connection_finishWith s word verb fun _ _ => rfl

end ConnectionId

/-! ## Failures on one connection -/

/-- A statement about a savepoint has failed on a driver connection. -/
def Exchange.failsSavepoint (raw : RawId) (e : Exchange) : Bool :=
  e.raw == raw && (SavepointCommand.ofStatement? e.statement).isSome && !e.reply.result.isOk

/-- How many statements about savepoints failed on a driver connection from a session to a later
one. -/
def Session.failedSavepoints (raw : RawId) (s t : Session) : Nat :=
  (s.exchanges t).countP (Exchange.failsSavepoint raw)

namespace ConnectionId

variable {c : ConnectionId} {α : Type}

/-- From a session to a later one the driver answered in order, and the connection is as it was but
for its level. -/
structure Levelled (c : ConnectionId) (level : Nat) (s t : Session) : Prop where
  proceeds : s.Proceeds t
  connection : t.connection c = { s.connection c with level := level }

/-- The level of a connection that is held has grown by the number of statements about savepoints
that failed on it, and by that of the blocks that were broken off. -/
def Counts (c : ConnectionId) (unended : Nat) (s t : Session) : Prop :=
  (s.connection c).released = false →
    c.Levelled ((s.connection c).level + failedSavepoints (s.connection c).raw s t + unended) s t

theorem Levelled.trans {s t u : Session} {level level' : Nat} (hst : c.Levelled level s t)
    (htu : c.Levelled level' t u) : c.Levelled level' s u where
  proceeds := chained_proceeds.trans hst.proceeds htu.proceeds
  connection := by rw [htu.connection, hst.connection]

theorem failedSavepoints_trans {s t u : Session} (hst : s.Proceeds t) (htu : t.Proceeds u)
    (raw : RawId) :
    failedSavepoints raw s u = failedSavepoints raw s t + failedSavepoints raw t u := by
  rw [failedSavepoints, hst.exchanges_trans htu, List.countP_append]
  rfl

theorem Counts.refl (s : Session) : c.Counts 0 s s := by
  intro _
  rw [failedSavepoints, exchanges_of_eq rfl]
  exact ⟨chained_proceeds.refl s, rfl⟩

theorem Counts.trans {s t u : Session} {m n : Nat} (hst : c.Counts m s t) (htu : c.Counts n t u) :
    c.Counts (m + n) s u := by
  intro hreleased
  have hfirst := hst hreleased
  have hconnection := hfirst.connection
  have hrest := htu (by rw [hconnection, hreleased])
  rw [hconnection] at hrest
  have hlevel : (s.connection c).level + failedSavepoints (s.connection c).raw s u + (m + n) =
      (s.connection c).level + failedSavepoints (s.connection c).raw s t + m +
        failedSavepoints (s.connection c).raw t u + n := by
    rw [failedSavepoints_trans hfirst.proceeds hrest.proceeds]
    omega
  rw [hlevel]
  exact hfirst.trans hrest

/-- What a held connection comes to is read off what it has asked for. -/
theorem levelled_of_view {s t : Session} (added : List Event) (level : Nat)
    (ht : View c { s.connection c with level := level } (s.server.events ++ added)
      (remaining added s.server.replies) t) :
    c.Levelled level s t ∧ failedSavepoints (s.connection c).raw s t =
      (exchanges added s.server.replies).countP (Exchange.failsSavepoint (s.connection c).raw) :=
  ⟨⟨(View.self c s).proceeds ht, ht.connection⟩,
    by rw [failedSavepoints, (View.self c s).exchanges_eq ht]⟩

/-- A command about a savepoint fails when its answer is a failure. -/
theorem countP_command (raw : RawId) (command : SavepointCommand) (replies : List Reply) :
    (exchanges [.executed raw (.text command.text) []] replies).countP
        (Exchange.failsSavepoint raw) =
      if (replies.headD .nothing).result.isOk then 0 else 1 := by
  have hfails : Exchange.failsSavepoint raw
      ⟨raw, .text command.text, [], replies.headD .nothing⟩ =
      !(replies.headD .nothing).result.isOk := by
    rw [Exchange.failsSavepoint, SavepointCommand.ofStatement?_text]
    simp
  rw [exchanges, exchanges, List.countP_singleton, hfails]
  cases (replies.headD .nothing).result.isOk <;> rfl

theorem isOk_map_unit {r : Except Failure Result} :
    (r.map fun _ => ()).isOk = r.isOk := by
  cases r <;> rfl

/-- Beginning a transaction raises the level; it fails with the statement that sets its savepoint. -/
theorem levelled_begin {s : Session} (hreleased : (s.connection c).released = false) :
    let out := c.begin.run.run s
    c.Levelled ((s.connection c).level + 1) s out.2 ∧
      failedSavepoints (s.connection c).raw s out.2 = if out.1.isOk then 0 else 1 := by
  dsimp only
  by_cases hlevel : (s.connection c).level = 0
  · obtain ⟨hr, hview⟩ := view_begin_outer hreleased hlevel s (View.self c s)
    rw [hr, hlevel]
    exact levelled_of_view [] 1 (by rwa [List.append_nil])
  · obtain ⟨hr, hview⟩ :=
      view_begin_savepoint hreleased (Nat.pos_of_ne_zero hlevel) s (View.self c s)
    have hlevelled := levelled_of_view _ _ hview
    rw [countP_command] at hlevelled
    rw [hr, isOk_map_unit]
    exact hlevelled

/-- Ending a transaction lowers the level, unless the statement about its savepoint fails. -/
theorem levelled_finish {s : Session} (hreleased : (s.connection c).released = false)
    (hlevel : 0 < (s.connection c).level) (word verb : String) {event : RawId → Event}
    (hevent : ∀ raw, (event raw).Ends raw)
    (hcommand : ∀ name, ∃ command : SavepointCommand,
      command.text = verb ++ " SAVEPOINT " ++ name) :
    let out := (c.finish word verb event).run.run s
    c.Levelled ((s.connection c).level - if out.1.isOk then 1 else 0) s out.2 ∧
      failedSavepoints (s.connection c).raw s out.2 = if out.1.isOk then 0 else 1 := by
  dsimp only
  by_cases hone : (s.connection c).level = 1
  · obtain ⟨hr, hview⟩ := view_finish_outer hreleased hone word verb event s (View.self c s)
    rw [hr, hone]
    have hquiet : ∀ replies, exchanges [event (s.connection c).raw] replies = [] ∧
        remaining [event (s.connection c).raw] replies = replies := by
      intro replies
      rcases hevent (s.connection c).raw with he | he <;> rw [he] <;> exact ⟨rfl, rfl⟩
    have hlevelled := levelled_of_view [event (s.connection c).raw] 0 (by
      rwa [(hquiet s.server.replies).2])
    rw [(hquiet s.server.replies).1] at hlevelled
    exact hlevelled
  · obtain ⟨hr, hview⟩ := view_finish_savepoint hreleased (by omega) word verb event s (View.self c s)
    obtain ⟨command, htext⟩ := hcommand (savepoint (s.connection c).level)
    rw [← htext] at hview
    have hlevelled := levelled_of_view _ _ hview
    rw [countP_command] at hlevelled
    rw [hr, isOk_map_unit] at hlevelled ⊢
    exact hlevelled

theorem levelled_commit {s : Session} (hreleased : (s.connection c).released = false)
    (hlevel : 0 < (s.connection c).level) :
    let out := c.commit.run.run s
    c.Levelled ((s.connection c).level - if out.1.isOk then 1 else 0) s out.2 ∧
      failedSavepoints (s.connection c).raw s out.2 = if out.1.isOk then 0 else 1 :=
  levelled_finish hreleased hlevel "COMMIT" "RELEASE" (fun _ => .inl rfl) fun name =>
    ⟨.release name, rfl⟩

theorem levelled_rollback {s : Session} (hreleased : (s.connection c).released = false)
    (hlevel : 0 < (s.connection c).level) :
    let out := c.rollback.run.run s
    c.Levelled ((s.connection c).level - if out.1.isOk then 1 else 0) s out.2 ∧
      failedSavepoints (s.connection c).raw s out.2 = if out.1.isOk then 0 else 1 :=
  levelled_finish hreleased hlevel "ROLLBACK" "ROLLBACK TO" (fun _ => .inr rfl) fun name =>
    ⟨.restore name, rfl⟩

end ConnectionId

/-! ## Blocks -/

/-- A call that succeeds takes no further step. -/
theorem SessionM.run_onFailure_of_ok {α : Type} {x : SessionM α} {s s' : Session} {a : α}
    (h : x.run.run s = (.ok a, s')) (step : StateM Session Unit) :
    (x.onFailure step).run.run s = (.ok a, s') := by
  unfold SessionM.onFailure
  rw [ExceptT.run_mk, StateT.run_bind, h]
  rfl

/-- A call that fails takes the step from where it stopped. -/
theorem SessionM.run_onFailure_of_error {α : Type} {x : SessionM α} {s s' : Session} {f : Failure}
    (h : x.run.run s = (.error f, s')) (step : StateM Session Unit) :
    (x.onFailure step).run.run s = (.error f, (step.run s').2) := by
  unfold SessionM.onFailure
  rw [ExceptT.run_mk, StateT.run_bind, h]
  rfl

/-- A block that is left without anything to clean up settles its transaction. -/
theorem Transaction.run_leave_own (c : ConnectionId) (failure : Option Failure) (s : Session) :
    ((⟨c, false⟩ : Transaction).leave failure).run.run s =
      ((⟨c, false⟩ : Transaction).settle failure).run.run s := by
  have h : ((⟨c, false⟩ : Transaction).leave failure).run.run s =
      (match ((⟨c, false⟩ : Transaction).settle failure).run.run s with
      | (r, s') => (r, s')) := rfl
  exact h

/-- A block on the caller's connection begins its transaction, runs what is inside and settles the
transaction by its result. A failure of either end takes the place of that result. -/
theorem Session.run_transaction_own {α : Type} (database : SessionM DatabaseId) (c : ConnectionId)
    (body : ConnectionId → SessionM α) (s : Session) :
    (Session.transaction database (.own c) body).run.run s =
      match c.begin.run.run s with
      | (.error f, s₁) => (.error f, s₁)
      | (.ok (), s₁) =>
        let inside := (body c).run.run s₁
        let settled := (Transaction.settle ⟨c, false⟩ (Transaction.failure? inside.1)).run.run inside.2
        (settled.1.bind fun _ => inside.1, settled.2) := by
  have henter : (Transaction.enter database (.own c)).run.run s =
      match c.begin.run.run s with
      | (.ok (), s₁) => (.ok ⟨c, false⟩, s₁)
      | (.error f, s₁) => (.error f, s₁) := by
    show ((c.begin.onFailure _ >>= fun _ => pure ⟨c, false⟩ : SessionM Transaction)).run.run s = _
    rw [run_bind]
    cases hbegin : c.begin.run.run s with
    | mk r s₁ =>
      cases r with
      | ok => rw [SessionM.run_onFailure_of_ok hbegin]; rfl
      | error f => rw [SessionM.run_onFailure_of_error hbegin]; rfl
  unfold Session.transaction
  rw [run_bind, henter]
  obtain ⟨r, s₁⟩ := c.begin.run.run s
  cases r with
  | error f => rfl
  | ok u =>
    have hbody : (SessionM.lift (body c).run).run.run s₁ =
        (.ok ((body c).run.run s₁).1, ((body c).run.run s₁).2) := rfl
    dsimp only
    rw [run_bind, hbody]
    obtain ⟨inside, s₂⟩ := (body c).run.run s₁
    cases inside with
    | ok a =>
      dsimp only
      rw [run_bind, Transaction.run_leave_own]
      unfold Transaction.failure?
      obtain ⟨settled, s₃⟩ := ((⟨c, false⟩ : Transaction).settle none).run.run s₂
      cases settled <;> rfl
    | error f =>
      dsimp only
      rw [run_bind, Transaction.run_leave_own]
      unfold Transaction.failure?
      obtain ⟨settled, s₃⟩ := ((⟨c, false⟩ : Transaction).settle (some f)).run.run s₂
      cases settled <;> rfl

/-- A block was broken off: what its body ended with is a failure, and no error. -/
def brokenOff {α : Type} : Except Failure α → Bool
  | .ok _ => false
  | .error f => !f.isError

/-- A block that is not broken off is committed, or rolled back. -/
theorem Transaction.settle_eq_of_not_broken {α : Type} {c : ConnectionId} {r : Except Failure α}
    (h : brokenOff r = false) :
    (⟨c, false⟩ : Transaction).settle (failure? r) = if r.isOk then c.commit else c.rollback := by
  cases r with
  | ok a => rfl
  | error f =>
    have hf : f.isError = true := by simpa [brokenOff] using h
    simp only [settle, failure?, hf, if_true]
    rfl

theorem Transaction.run_settle_of_broken {α : Type} {c : ConnectionId} {r : Except Failure α}
    (h : brokenOff r = true) (s : Session) :
    ((⟨c, false⟩ : Transaction).settle (failure? r)).run.run s = (.ok (), s) := by
  cases r with
  | ok a => cases h
  | error f =>
    have hf : f.isError = false := by simpa [brokenOff] using h
    simp only [settle, failure?, hf, Bool.false_eq_true, if_false]
    rfl

namespace ConnectionId

variable {c : ConnectionId} {α : Type}

/-- The end of a block leaves the level one too high when it fails, and when the block is broken
off. -/
theorem levelled_settle {s : Session} (hreleased : (s.connection c).released = false)
    (hlevel : 0 < (s.connection c).level) (r : Except Failure α) :
    let t := (((⟨c, false⟩ : Transaction).settle (Transaction.failure? r)).run.run s).2
    c.Levelled ((s.connection c).level - 1 + failedSavepoints (s.connection c).raw s t +
      if brokenOff r then 1 else 0) s t := by
  intro t
  cases hbroken : brokenOff r with
  | true =>
    have ht : t = s := congrArg Prod.snd (Transaction.run_settle_of_broken hbroken s)
    have hlevelled := Counts.refl (c := c) s hreleased
    rw [ht, if_pos rfl]
    convert hlevelled using 1
    omega
  | false =>
    have hended : ∃ ended : Bool, c.Levelled ((s.connection c).level - if ended then 1 else 0) s t ∧
        failedSavepoints (s.connection c).raw s t = if ended then 0 else 1 := by
      subst t
      rw [Transaction.settle_eq_of_not_broken hbroken]
      split
      · exact ⟨_, levelled_commit hreleased hlevel⟩
      · exact ⟨_, levelled_rollback hreleased hlevel⟩
    obtain ⟨ended, hlevelled, hfailed⟩ := hended
    rw [hfailed]
    convert hlevelled using 1
    cases ended <;> simp only [if_true, Bool.false_eq_true, if_false] <;> omega

/-- A block around what counts counts, and one more if it is broken off. -/
theorem counts_transaction (database : SessionM DatabaseId) {body : ConnectionId → SessionM α}
    {unended : Session → Nat} (hbody : ∀ s, c.Counts (unended s) s ((body c).run.run s).2)
    (s : Session) :
    c.Counts
      (match c.begin.run.run s with
      | (.ok _, s₁) => unended s₁ + if brokenOff ((body c).run.run s₁).1 then 1 else 0
      | (.error _, _) => 0) s ((Session.transaction database (.own c) body).run.run s).2 := by
  intro hreleased
  have hbegin := levelled_begin hreleased
  rw [Session.run_transaction_own]
  dsimp only at hbegin ⊢
  generalize c.begin.run.run s = begun at hbegin ⊢
  obtain ⟨r, s₁⟩ := begun
  obtain ⟨hbegun, hset⟩ := hbegin
  cases r with
  | error f =>
    dsimp only at hset ⊢
    rw [hset]
    exact hbegun
  | ok u =>
    dsimp only at hset ⊢
    generalize ((body c).run.run s₁).1 = r
    have hinner := hbody s₁ (by rw [hbegun.connection, hreleased])
    generalize ((body c).run.run s₁).2 = s₂ at hinner ⊢
    -- the body runs one level deeper, and the end takes that level back
    have houter := hbegun.trans hinner
    have hconnection := houter.connection
    rw [hbegun.connection] at hinner hconnection
    have hended := levelled_settle (s := s₂) (by rw [hconnection, hreleased])
      (by rw [hconnection]; simp only; omega) r
    rw [hconnection] at hended
    have hall := houter.trans hended
    convert hall using 1
    have hnone : failedSavepoints (s.connection c).raw s s₁ = 0 := hset
    rw [failedSavepoints_trans houter.proceeds hended.proceeds,
      failedSavepoints_trans hbegun.proceeds hinner.proceeds, hnone]
    dsimp only
    omega

theorem onlyErrors_transaction (database : SessionM DatabaseId) {body : ConnectionId → SessionM α}
    (hbody : (body c).OnlyErrors) : (Session.transaction database (.own c) body).OnlyErrors := by
  intro s f hf
  rw [Session.run_transaction_own] at hf
  have hbegin := c.onlyErrors_begin s
  generalize c.begin.run.run s = begun at hbegin hf
  obtain ⟨r, s₁⟩ := begun
  cases r with
  | error e =>
    cases hf
    exact hbegin f rfl
  | ok u =>
    have hsettle : ((⟨c, false⟩ : Transaction).settle
        (Transaction.failure? ((body c).run.run s₁).1)).OnlyErrors := by
      unfold Transaction.settle
      split
      · exact c.onlyErrors_finish _ _ _
      · split
        · exact c.onlyErrors_finish _ _ _
        · exact SessionM.onlyErrors_pure ()
    rcases error_of_bind hf with h | ⟨_, -, h⟩
    · exact hsettle _ _ h
    · exact hbody s₁ f h

end ConnectionId

namespace Script

variable {α : Type} {c : ConnectionId}

/-- How many blocks are broken off when a body is run on a connection. -/
def unended (c : ConnectionId) {α : Type} : Script α → Session → Nat
  | .done _, _ | .raise _, _ | .statement .., _ => 0
  | .andThen first next, s =>
    match (first.run c).run.run s with
    | (.ok a, t) => first.unended c s + (next a).unended c t
    | (.error _, _) => first.unended c s
  | .rescue body handler, s =>
    match (body.run c).run.run s with
    | (.ok _, _) => body.unended c s
    | (.error f, t) => body.unended c s + (handler f).unended c t
  | .block _ body, s =>
    match c.begin.run.run s with
    | (.ok _, s₁) =>
      body.unended c s₁ + if brokenOff ((body.run c).run.run s₁).1 then 1 else 0
    | (.error _, _) => 0

theorem counts_statement {text : Value} (values : List Value)
    (hordinary : SavepointCommand.ofStatement? text = none) (s : Session) :
    c.Counts 0 s ((c.queryRaw text values).run.run s).2 := by
  intro hreleased
  obtain ⟨-, added, hadded, hview⟩ :=
    ConnectionId.view_exchange hreleased text values s (View.self c s)
  obtain ⟨hlevelled, hfailed⟩ := ConnectionId.levelled_of_view added (s.connection c).level hview
  have hnone : Exchange.failsSavepoint (s.connection c).raw
      ⟨(s.connection c).raw, text, values, s.server.replies.headD .nothing⟩ = false := by
    rw [Exchange.failsSavepoint, hordinary]
    simp
  rw [hadded, List.countP_singleton, hnone] at hfailed
  rw [hfailed]
  exact hlevelled

/-- Every body counts, whether its connection is in a transaction or not. -/
theorem counts_run (script : Script α) (s : Session) :
    c.Counts (script.unended c s) s ((script.run c).run.run s).2 := by
  induction script generalizing s with
  | done a => exact .refl s
  | raise f => exact .refl s
  | statement text values ordinary => exact counts_statement values ordinary s
  | andThen first next hfirst hnext =>
    have hs := hfirst s
    rw [Script.run, run_bind, unended]
    generalize (first.run c).run.run s = out at hs ⊢
    obtain ⟨r, t⟩ := out
    cases r with
    | ok a => exact hs.trans (hnext a t)
    | error f => exact hs
  | rescue body handler hbody hhandler =>
    have hs := hbody s
    rw [Script.run, run_tryCatch, unended]
    generalize (body.run c).run.run s = out at hs ⊢
    obtain ⟨r, t⟩ := out
    cases r with
    | ok a => exact hs
    | error f => exact hs.trans (hhandler f t)
  | block database body hbody => exact ConnectionId.counts_transaction _ hbody s

/-- A body that is never broken off fails with errors only. -/
theorem Uninterrupted.onlyErrors {script : Script α} (h : script.Uninterrupted) :
    (script.run c).OnlyErrors := by
  induction script with
  | done a => exact SessionM.onlyErrors_pure a
  | raise f => exact SessionM.onlyErrors_throw h
  | statement text values ordinary => exact c.onlyErrors_queryRaw text values
  | andThen first next hfirst hnext => exact (hfirst h.1).bind fun a => hnext a (h.2 a)
  | rescue body handler hbody hhandler =>
    exact (hbody h.1).tryCatch fun f hf => hhandler f (h.2 f hf)
  | block database body hbody => exact ConnectionId.onlyErrors_transaction _ (hbody h)

/-- No block of such a body is broken off. -/
theorem Uninterrupted.unended_eq {script : Script α} (h : script.Uninterrupted) (s : Session) :
    script.unended c s = 0 := by
  induction script generalizing s with
  | done a => rfl
  | raise f => rfl
  | statement text values ordinary => rfl
  | andThen first next hfirst hnext =>
    rw [unended]
    split
    · rw [hfirst h.1, hnext _ (h.2 _)]
    · exact hfirst h.1 s
  | rescue body handler hbody hhandler =>
    rw [unended]
    split
    · exact hbody h.1 s
    · rename_i f t hrun
      have hf : f.isError = true := h.1.onlyErrors (c := c) s f (by rw [hrun])
      rw [hbody h.1, hhandler f (h.2 f hf)]
  | block database body hbody =>
    have hwhole (s : Session) : brokenOff ((body.run c).run.run s).1 = false := by
      have hbody : body.Uninterrupted := h
      have honly := hbody.onlyErrors (c := c) s
      cases hr : ((body.run c).run.run s).1 with
      | ok a => rfl
      | error f =>
        rw [brokenOff, honly f hr]
        rfl
    rw [unended]
    split
    · rw [hbody h, hwhole]
      rfl
    · rfl

end Script

/-! ## What failures leave behind -/

namespace ConnectionId

variable {c : ConnectionId}

/-- A commit ends the driver's transaction exactly when it ends the only one in progress. -/
theorem events_commit {s : Session} (hreleased : (s.connection c).released = false)
    (hlevel : 0 < (s.connection c).level) :
    (c.commit.run.run s).2.server.events =
        s.server.events ++ [.committed (s.connection c).raw] ↔ (s.connection c).level = 1 := by
  by_cases hone : (s.connection c).level = 1
  · obtain ⟨-, hview⟩ := view_finish_outer hreleased hone "COMMIT" "RELEASE" .committed s
      (View.self c s)
    exact ⟨fun _ => hone, fun _ => hview.events⟩
  · obtain ⟨-, hview⟩ := view_finish_savepoint hreleased (by omega) "COMMIT" "RELEASE" .committed s
      (View.self c s)
    refine ⟨fun h => ?_, fun h => absurd h hone⟩
    have hsame := List.append_cancel_left (hview.events.symm.trans h)
    cases hsame

/-- A connection that there is awaits the next answer. -/
theorem awaits_self {s : Session} (hc : c.index < s.connections.length) :
    c.Awaits (s.connection c) (s.server.replies.headD .nothing) s := by
  have hget := List.getElem?_eq_getElem hc
  refine ⟨?_, rfl⟩
  rw [Is, connection_of_getElem? hget]
  exact hget

/-- Beginning a transaction fails with the statement that sets its savepoint, and raises the level in
any case. -/
theorem connection_begin {s : Session} (hc : c.index < s.connections.length) :
    let x := s.connection c
    (c.begin.run.run s).1.isOk = (x.level == 0 || x.accepts (s.server.replies.headD .nothing)) ∧
      (c.begin.run.run s).2.connection c = { x with level := x.level + 1 } := by
  obtain ⟨hr, hstands⟩ := leads_is_begin s (awaits_self hc)
  exact ⟨hr, hstands.connection_eq⟩

/-- A beginning that fails is one inside a transaction. -/
theorem level_pos_of_begin_error {s s' : Session} {f : Failure}
    (hc : c.index < s.connections.length) (h : c.begin.run.run s = (.error f, s')) :
    0 < (s.connection c).level := by
  have hr := (connection_begin hc).1
  rw [h] at hr
  refine Nat.pos_of_ne_zero fun hzero => ?_
  rw [hzero] at hr
  cases hr

/-- An end that fails leaves the connection as it was, whatever the driver does to end its own
transaction. -/
theorem connection_of_finishWith_error {s s' : Session} {f : Failure} {word verb : String}
    {ending : RawId → SessionM Unit}
    (hending : ∀ raw t, ((ending raw).run.run t).2.connections = t.connections)
    (h : (c.finishWith word verb ending).run.run s = (.error f, s')) :
    s'.connection c = s.connection c := by
  have hfinish := connection_finishWith (c := c) s word verb hending
  rw [h] at hfinish
  exact hfinish

theorem connection_of_end_error {s s' : Session} {f : Failure} (undo : Bool)
    (h : (if undo then c.rollback else c.commit).run.run s = (.error f, s')) :
    s'.connection c = s.connection c := by
  have hending (event : RawId → Event) (raw : RawId) (t : Session) :
      ((emit (event raw) : SessionM Unit).run.run t).2.connections = t.connections := rfl
  cases undo with
  | true => exact connection_of_finishWith_error (hending .rolledBack) h
  | false => exact connection_of_finishWith_error (hending .committed) h

/-- A block leaves the connection as its body does, one level lower if it can be ended. When it
cannot be begun, it leaves it one level higher. -/
theorem connection_transaction {α : Type} {s : Session} (hc : c.index < s.connections.length)
    (database : SessionM DatabaseId) (body : ConnectionId → SessionM α) :
    let x := s.connection c
    let begun := c.begin.run.run s
    let inside := (body c).run.run begun.2
    let ended := (if inside.1.isOk then c.commit else c.rollback).run.run inside.2
    let y := inside.2.connection c
    ((Session.transaction database (.own c) body).run.run s).2.connection c =
      if begun.1.isOk then
        if brokenOff inside.1 then y
        else { y with level := y.level - if ended.1.isOk then 1 else 0 }
      else { x with level := x.level + 1 } := by
  have hbegin := (connection_begin hc).2
  rw [Session.run_transaction_own]
  dsimp only at hbegin ⊢
  generalize c.begin.run.run s = begun at hbegin ⊢
  obtain ⟨r, s₁⟩ := begun
  cases r with
  | error f => exact hbegin
  | ok u =>
    dsimp only
    generalize (body c).run.run s₁ = inside
    show _ = if brokenOff inside.1 then _ else _
    cases hbroken : brokenOff inside.1 with
    | true =>
      rw [Transaction.run_settle_of_broken hbroken]
      rfl
    | false =>
      rw [Transaction.settle_eq_of_not_broken hbroken]
      cases inside.1.isOk with
      | true => exact connection_finish _ "COMMIT" "RELEASE" .committed
      | false => exact connection_finish _ "ROLLBACK" "ROLLBACK TO" .rolledBack

/-- A block on a connection that is held raises the level by the number of statements about
savepoints that fail and that of the blocks that are broken off, and the transaction around it can be
committed exactly when there are none. -/
theorem connection_block {α : Type} {s : Session} (hreleased : (s.connection c).released = false)
    (database : Value) (script : Script α) :
    let t := (((Script.block database script).run c).run.run s).2
    let failed := failedSavepoints (s.connection c).raw s t
    let unended := (Script.block database script).unended c s
    t.connection c = { s.connection c with level := (s.connection c).level + failed + unended } ∧
      ((s.connection c).level = 1 → ((c.commit.run.run t).2.server.events =
        t.server.events ++ [.committed (s.connection c).raw] ↔ failed = 0 ∧ unended = 0)) := by
  dsimp only
  have hconnection := ((Script.block database script).counts_run s hreleased).connection
  generalize (((Script.block database script).run c).run.run s).2 = t at hconnection ⊢
  refine ⟨hconnection, fun hone => ?_⟩
  have hlevel : (t.connection c).level = (s.connection c).level +
      failedSavepoints (s.connection c).raw s t + (Script.block database script).unended c s :=
    congrArg Connection.level hconnection
  have hraw : (t.connection c).raw = (s.connection c).raw := by rw [hconnection]
  have hcommit := events_commit (s := t) (by rw [hconnection]; exact hreleased) (by omega)
  rw [hlevel, hraw] at hcommit
  rw [hcommit]
  omega

/-- What failures leave behind on a connection. A beginning only fails inside a transaction, and has
raised the level then; an end that fails leaves the connection as it was, also where the driver fails
to end its own transaction. A block is at the level where its body ends, or one below if it can be
ended and is not broken off, and one too high when it cannot be begun. Where the body of a block is
made of statements and further blocks, the level has grown by the number of statements about
savepoints that failed and that of the blocks that were broken off, so that an enclosing block commits
exactly when there were none. -/
theorem levels_after_failures {s : Session} {c : ConnectionId} (hc : c.index < s.connections.length) :
    let x := s.connection c
    (∀ (f : Failure) (s' : Session), c.begin.run.run s = (.error f, s') →
      0 < x.level ∧ s'.connection c = { x with level := x.level + 1 }) ∧
    (∀ (undo : Bool) (f : Failure) (s' : Session),
      (if undo then c.rollback else c.commit).run.run s = (.error f, s') → s'.connection c = x) ∧
    (∀ (word verb : String) (ending : RawId → SessionM Unit),
      (∀ raw t, ((ending raw).run.run t).2.connections = t.connections) →
      ∀ (f : Failure) (s' : Session),
        (c.finishWith word verb ending).run.run s = (.error f, s') → s'.connection c = x) ∧
    (∀ {α : Type} (database : SessionM DatabaseId) (body : ConnectionId → SessionM α),
      let begun := c.begin.run.run s
      let inside := (body c).run.run begun.2
      let ended := (if inside.1.isOk then c.commit else c.rollback).run.run inside.2
      let y := inside.2.connection c
      ((Session.transaction database (.own c) body).run.run s).2.connection c =
        if begun.1.isOk then
          if brokenOff inside.1 then y
          else { y with level := y.level - if ended.1.isOk then 1 else 0 }
        else { x with level := x.level + 1 }) ∧
    ∀ {α : Type} (database : Value) (script : Script α),
      let t := (((Script.block database script).run c).run.run s).2
      let failed := failedSavepoints x.raw s t
      let unended := (Script.block database script).unended c s
      (script.Uninterrupted → unended = 0) ∧
      (x.released = true → 0 < x.level → t.connection c = { x with level := x.level + 1 }) ∧
      (x.released = false → t.connection c = { x with level := x.level + failed + unended } ∧
        (x.level = 1 → ((c.commit.run.run t).2.server.events = t.server.events ++ [.committed x.raw] ↔
          failed = 0 ∧ unended = 0))) := by
  intro x
  refine ⟨fun f s' h => ⟨level_pos_of_begin_error hc h, ?_⟩,
    fun undo f s' h => connection_of_end_error undo h,
    fun word verb ending hending f s' h => connection_of_finishWith_error hending h,
    fun database body => connection_transaction hc database body,
    fun {α} database script => ⟨fun h => ?_, fun hreleased hlevel => ?_, fun hreleased => ?_⟩⟩
  · rw [← (connection_begin hc).2, h]
  · have hwhole : (Script.block database script).Uninterrupted := h
    exact hwhole.unended_eq s
  · -- after a release the savepoint is refused before it is asked for
    have hbegun : (c.begin.run.run s).1.isOk = false := by
      rw [(connection_begin hc).1, Connection.accepts, hreleased,
        beq_eq_false_iff_ne.mpr (Nat.ne_of_gt hlevel)]
      rfl
    have hblock := connection_transaction hc (databaseOf database) fun _ => script.run c
    dsimp only at hblock
    rw [hbegun, if_neg Bool.false_ne_true] at hblock
    exact hblock
  · exact connection_block hreleased database script

/-- A connection in its outermost transaction; the driver refuses the second and the third statement,
and then answers. -/
def nesting : Session :=
  { empty .empty with
    databases := [.fresh (some "shop") (.standard .mysql) .factory ⟨none, none, 10, .null, none⟩]
    connections := [⟨1, some ⟨0⟩, 1, false⟩]
    server := ⟨1, [.opened 1 none], [.nothing, .refused "no savepoint", .refused "no savepoint"]⟩ }

/-- A block whose inner block cannot be begun, which is caught, and which cannot be ended then. -/
def nested : Script Unit :=
  .rescue (.block .null (.done ())) fun _ => .done ()

/-- Two failures in nested blocks leave the level two too high. -/
theorem levels_after_failures_nested :
    (0 : Nat) < nesting.connections.length ∧ (nesting.connection ⟨0⟩).released = false ∧
      failedSavepoints 1 nesting (((Script.block .null nested).run ⟨0⟩).run.run nesting).2 = 2 ∧
      ((((Script.block .null nested).run ⟨0⟩).run.run nesting).2.connection ⟨0⟩).level = 3 := by
  have hfailed : failedSavepoints 1 nesting
      (((Script.block .null nested).run ⟨0⟩).run.run nesting).2 = 2 := by decide +kernel
  obtain ⟨-, -, -, -, hblocks⟩ := levels_after_failures (s := nesting) (c := ⟨0⟩) (by decide)
  obtain ⟨hwhole, -, hheld⟩ := hblocks .null nested
  have hlevel := congrArg Connection.level (hheld rfl).1
  refine ⟨by decide, rfl, hfailed, ?_⟩
  rw [hlevel, hwhole ⟨trivial, fun _ _ => trivial⟩]
  exact congrArg (1 + ·) hfailed

/-- A block whose savepoint is refused leaves its connection one level too high, and the commit of the
transaction around it asks for the release of the savepoint that was never set. -/
theorem begin_refused_raises :
    let s : Session := { nesting with server := { nesting.server with
      replies := [.refused "no savepoint"] } }
    let out := (Session.transaction (databaseOf .null) (.own ⟨0⟩) fun _ => pure ()).run.run s
    let committed := ((ConnectionId.commit ⟨0⟩).run.run out.2).2
    (s.connection ⟨0⟩).level = 1 ∧ (s.connection ⟨0⟩).released = false ∧
      out.1.isOk = false ∧ (out.2.connection ⟨0⟩).level = 2 ∧
      committed.server.events = [.opened 1 none, .executed 1 (.text "SAVEPOINT savepoint_2") [],
        .executed 1 (.text "RELEASE SAVEPOINT savepoint_2") []] ∧
      (committed.connection ⟨0⟩).level = 1 :=
  ⟨rfl, rfl, rfl, rfl, rfl, rfl⟩

end ConnectionId

end TableOps
