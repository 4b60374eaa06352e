import TableOps.Proofs.Session.Accounting
import TableOps.Proofs.Session.Effect

/-!
# Calls that keep account

The calls on connections and databases leave every driver connection accounted for, whatever the
driver answers.

* `Leads` — what holds of the session after a call when something held of it before.
* `ConnectionId.leads_execute`, `ConnectionId.leads_release`, `DatabaseId.leads_connect` — the calls
  that move a driver connection or leave something pending on it.
* `Session.accounted_management` — all basic calls keep account.
-/

namespace TableOps

variable {α β : Type}

/-! ## What a call leads to -/

/-- From every session with `P` a call leads to a result and a session with `Q`. -/
def Leads (P : Session → Prop) (x : StateM Session α) (Q : α → Session → Prop) : Prop :=
  ∀ s, P s → Q (x.run s).1 (x.run s).2

namespace Leads

variable {P : Session → Prop} {Q : β → Session → Prop} {M : α → Session → Prop}

theorem pure {Q : α → Session → Prop} {a : α} (h : ∀ s, P s → Q a s) :
    Leads P (Pure.pure a : StateM Session α) Q :=
  h

theorem bind {x : StateM Session α} {f : α → StateM Session β} (hx : Leads P x M)
    (hf : ∀ a, Leads (M a) (f a) Q) : Leads P (x >>= f) Q :=
  fun s hs => hf _ _ (hx s hs)

theorem run_pure {Q : Except Failure α → Session → Prop} {a : α} (h : ∀ s, P s → Q (.ok a) s) :
    Leads P (Pure.pure a : SessionM α).run Q :=
  h

theorem run_throw {Q : Except Failure α → Session → Prop} {f : Failure}
    (h : ∀ s, P s → Q (.error f) s) : Leads P (throw f : SessionM α).run Q :=
  h

theorem run_liftM {Q : Except Failure α → Session → Prop} {x : StateM Session α}
    (hx : Leads P x fun a => Q (.ok a)) : Leads P (liftM x : SessionM α).run Q :=
  fun s hs => hx s hs

theorem run_lift {Q : Except Failure α → Session → Prop} {x : StateM Session α}
    (hx : Leads P x fun a => Q (.ok a)) : Leads P (SessionM.lift x).run Q :=
  fun s hs => hx s hs

/-- Calls in a row; where the first one fails, what it leads to is what both lead to. -/
theorem run_bind {Q : Except Failure β → Session → Prop} {x : SessionM α} {f : α → SessionM β}
    (hx : Leads P x.run fun r s => (∀ a, r = .ok a → M a s) ∧ ∀ e, r = .error e → Q (.error e) s)
    (hf : ∀ a, Leads (M a) (f a).run Q) : Leads P (x >>= f).run Q := by
  intro s hs
  have hfirst := hx s hs
  rw [TableOps.run_bind]
  cases hrun : x.run.run s with
  | mk r s' =>
    rw [hrun] at hfirst
    cases r with
    | ok a => exact hf a s' (hfirst.1 a rfl)
    | error e => exact hfirst.2 e rfl

/-- A step that cannot fail, and what follows it. -/
theorem run_liftM_bind {Q : Except Failure β → Session → Prop} {x : StateM Session α}
    {f : α → SessionM β} (hx : Leads P x M) (hf : ∀ a, Leads (M a) (f a).run Q) :
    Leads P ((liftM x : SessionM α) >>= f).run Q :=
  fun s hs => hf _ _ (hx s hs)

/-- A call and a step that is taken when it fails. -/
theorem run_onFailure {M Q : Except Failure α → Session → Prop} {x : SessionM α}
    {step : StateM Session Unit} (hx : Leads P x.run M) (hok : ∀ a s, M (.ok a) s → Q (.ok a) s)
    (hfail : ∀ f, Leads (M (.error f)) step fun _ => Q (.error f)) :
    Leads P (x.onFailure step).run Q := by
  refine .bind hx fun r => ?_
  cases r with
  | ok a => exact .pure (hok a)
  | error f => exact .bind (hfail f) fun _ => .pure fun _ hs => hs

end Leads

namespace Session

/-! ## The account, with one connection looked at -/

/-- The account is kept, and the connection of a number is `x`. -/
def Keeps (hands pending : List RawId) (c : ConnectionId) (x : Connection) (s : Session) : Prop :=
  s.Accounted hands pending ∧ s.connection c = x

namespace Accounted

variable {hands pending : List RawId} {s : Session}

/-- A driver connection that is held was opened. -/
theorem le_opened (h : s.Accounted hands pending) {c : ConnectionId}
    (hreleased : (s.connection c).released = false) :
    (s.connection c).raw ≤ s.server.opened := by
  have hheld := heldCount_pos hreleased
  have hplaces := h.places (s.connection c).raw
  have hnumbered := h.numbered (s.connection c).raw
  by_cases hin : 1 ≤ (s.connection c).raw ∧ (s.connection c).raw ≤ s.server.opened
  · exact hin.2
  · -- it would be held without having been opened
    rw [if_neg hin] at hnumbered
    omega

/-- What is pending on the driver connection of a transaction is pending nowhere else. -/
theorem within_transaction {c : ConnectionId} (h : s.Accounted [] [(s.connection c).raw])
    (hreleased : (s.connection c).released = false) (hlevel : 0 < (s.connection c).level) :
    s.Accounted [] [] := by
  refine ⟨h.places, h.numbered, h.known, h.pools, fun raw _ hraw => ?_⟩
  by_cases hown : raw = (s.connection c).raw
  · exfalso
    subst hown
    have hplaces := h.places (s.connection c).raw
    have hopened := h.openedCount_le (s.connection c).raw
    have hheld := heldCount_pos hreleased
    rcases hraw with hidle | ⟨y, hy, hreleased', hraw', hlevel'⟩
    · omega
    · -- a second connection outside a transaction would hold it as well
      obtain ⟨j, hj⟩ := List.mem_iff_getElem?.mp hy
      rcases connection_cases s c with hc | hc
      · have hne : c.index ≠ j := by
          rintro rfl
          rw [hc, Option.some.injEq] at hj
          rw [hj] at hlevel
          omega
        have hholds : 0 < (s.connection c).holds (s.connection c).raw :=
          holds_pos_iff.mpr ⟨hreleased, rfl⟩
        have hholds' : 0 < y.holds (s.connection c).raw :=
          holds_pos_iff.mpr ⟨hreleased', hraw'⟩
        have htwo : 2 ≤ s.heldCount (s.connection c).raw := by
          rcases Nat.lt_or_gt_of_ne hne with hij | hij
          · have hadd := add_le_sum_map (Connection.holds (s.connection c).raw) hij hc hj
            exact Nat.le_trans (Nat.add_le_add hholds hholds') hadd
          · have hadd := add_le_sum_map (Connection.holds (s.connection c).raw) hij hj hc
            exact Nat.le_trans (Nat.add_le_add hholds' hholds) hadd
        omega
      · rw [hc] at hreleased
        cases hreleased
  · refine h.settled raw ?_ hraw
    rw [List.mem_singleton]
    exact hown

end Accounted

end Session

namespace ConnectionId

open Session

variable {c : ConnectionId} {x : Connection} {hands pending : List RawId}

/-! ## Steps that look or write to the log -/

section Looking

variable {P : Session → Prop}

/-- What follows a look at a connection sees it as it is known to stand. -/
theorem read_bind_at (hP : ∀ s, P s → s.connection c = x) {Q : β → Session → Prop}
    {f : Connection → StateM Session β} (h : Leads P (f x) Q) : Leads P (c.read >>= f) Q := by
  intro s hs
  have hrun : (c.read >>= f).run s = (f (s.connection c)).run s := rfl
  rw [hrun, hP s hs]
  exact h s hs

theorem run_read_bind_at (hP : ∀ s, P s → s.connection c = x)
    {Q : Except Failure β → Session → Prop} {f : Connection → SessionM β}
    (h : Leads P (f x).run Q) : Leads P ((liftM c.read : SessionM Connection) >>= f).run Q := by
  intro s hs
  have hrun : ((liftM c.read : SessionM Connection) >>= f).run.run s =
      (f (s.connection c)).run.run s := rfl
  rw [hrun, hP s hs]
  exact h s hs

theorem inTransaction_bind_at (hP : ∀ s, P s → s.connection c = x) {Q : β → Session → Prop}
    {f : Bool → StateM Session β} (h : Leads P (f (0 < x.level)) Q) :
    Leads P (c.inTransaction >>= f) Q := by
  intro s hs
  have hrun : (c.inTransaction >>= f).run s = (f (0 < (s.connection c).level)).run s := rfl
  rw [hrun, hP s hs]
  exact h s hs

theorem run_inTransaction_bind_at (hP : ∀ s, P s → s.connection c = x)
    {Q : Except Failure β → Session → Prop} {f : Bool → SessionM β}
    (h : Leads P (f (0 < x.level)).run Q) :
    Leads P ((liftM c.inTransaction : SessionM Bool) >>= f).run Q := by
  intro s hs
  have hrun : ((liftM c.inTransaction : SessionM Bool) >>= f).run.run s =
      (f (0 < (s.connection c).level)).run.run s := rfl
  rw [hrun, hP s hs]
  exact h s hs

end Looking

theorem keeps_read_bind {Q : β → Session → Prop} {f : Connection → StateM Session β}
    (h : Leads (Keeps hands pending c x) (f x) Q) :
    Leads (Keeps hands pending c x) (c.read >>= f) Q :=
  read_bind_at (fun _ hs => hs.2) h

theorem keeps_run_read_bind {Q : Except Failure β → Session → Prop} {f : Connection → SessionM β}
    (h : Leads (Keeps hands pending c x) (f x).run Q) :
    Leads (Keeps hands pending c x) ((liftM c.read : SessionM Connection) >>= f).run Q :=
  run_read_bind_at (fun _ hs => hs.2) h

theorem keeps_inTransaction_bind {Q : β → Session → Prop} {f : Bool → StateM Session β}
    (h : Leads (Keeps hands pending c x) (f (0 < x.level)) Q) :
    Leads (Keeps hands pending c x) (c.inTransaction >>= f) Q :=
  inTransaction_bind_at (fun _ hs => hs.2) h

theorem keeps_run_inTransaction_bind {Q : Except Failure β → Session → Prop} {f : Bool → SessionM β}
    (h : Leads (Keeps hands pending c x) (f (0 < x.level)).run Q) :
    Leads (Keeps hands pending c x) ((liftM c.inTransaction : SessionM Bool) >>= f).run Q :=
  run_inTransaction_bind_at (fun _ hs => hs.2) h

/-- Writing to the log changes nothing else. -/
theorem leads_note {P : Session → Prop} (hP : ∀ s log, P s → P { s with log := log })
    (level : LogLevel) (source : LogSource) (text : String) :
    Leads P (note level source text) fun _ => P := by
  intro s hs
  show P (if _ then _ else _)
  split
  · exact hP s _ hs
  · exact hs

theorem keeps_note (level : LogLevel) (source : LogSource) (text : String) :
    Leads (Keeps hands pending c x) (note level source text)
      fun _ => Keeps hands pending c x :=
  leads_note (fun _ _ hs => ⟨hs.1.of_places rfl rfl rfl rfl, hs.2⟩) level source text

theorem keeps_nextReply :
    Leads (Keeps hands pending c x) nextReply fun _ => Keeps hands pending c x := by
  unfold nextReply
  refine Leads.bind (M := fun _ => Keeps hands pending c x) (fun s hs => hs) fun s => ?_
  split
  · exact .pure fun _ hs => hs
  · refine Leads.bind (M := fun _ => Keeps hands pending c x) (fun s hs => ?_) fun _ =>
      .pure fun _ hs => hs
    exact ⟨hs.1.of_places rfl rfl rfl rfl, hs.2⟩

/-! ## Statements -/

/-- A statement is pending afterwards, unless the connection was released. -/
def Executed (c : ConnectionId) (x : Connection) (r : Except Failure α) (s : Session) : Prop :=
  (x.released = true ∧ Keeps [] [] c x s ∧ ∃ f, r = .error f) ∨
    (x.released = false ∧ Keeps [] [x.raw] c x s)

theorem leads_execute (statement : Value) (values : List Value) :
    Leads (Keeps [] [] c x) (c.execute statement values).run (Executed c x) := by
  unfold execute
  refine keeps_run_read_bind ?_
  dsimp only
  cases hreleased : x.released with
  | true => exact fun s hs => Or.inl ⟨hreleased, hs, _, rfl⟩
  | false =>
    have hsend : Leads (Keeps [] [] c x) (emit (.executed x.raw statement values))
        fun _ => Keeps [] [x.raw] c x := by
      rintro s ⟨haccount, rfl⟩
      exact ⟨haccount.emit_executed (haccount.le_opened hreleased) statement values, rfl⟩
    refine .run_liftM_bind (keeps_note _ _ _) fun _ => ?_
    refine .run_liftM_bind hsend fun _ => ?_
    refine .run_liftM_bind keeps_nextReply fun reply => ?_
    cases reply with
    | refused reason => exact fun s hs => Or.inr ⟨hreleased, hs⟩
    | done columns rows rowCount lastInsertId => exact fun s hs => Or.inr ⟨hreleased, hs⟩

/-- A commit or a rollback on the connection leaves nothing pending. -/
theorem keeps_emit {e : Event} (he : e.Ends x.raw) (hpending : ∀ r ∈ pending, r = x.raw) :
    Leads (Keeps hands pending c x) (emit e) fun _ => Keeps hands [] c x :=
  fun _ hs => ⟨hs.1.emit_ends hpending he, hs.2⟩

/-- What is pending is rolled back, unless the connection was released. -/
theorem leads_rollbackHeld (hreleased : x.released = true → pending = [])
    (hpending : x.released = false → ∀ r ∈ pending, r = x.raw) :
    Leads (Keeps [] pending c x) c.rollbackHeld fun _ => Keeps [] [] c x := by
  unfold rollbackHeld
  refine keeps_read_bind ?_
  cases h : x.released with
  | true =>
    rw [hreleased h]
    exact .pure fun _ hs => hs
  | false => exact keeps_emit (Or.inr rfl) (hpending h)

/-- In a transaction nothing else is left pending by a statement. -/
theorem keeps_of_executed {r : Except Failure α} {s : Session} (hlevel : 0 < x.level)
    (hs : Executed c x r s) : Keeps [] [] c x s := by
  rcases hs with ⟨hreleased, hs, -⟩ | ⟨hreleased, haccount, rfl⟩
  · exact hs
  · exact ⟨haccount.within_transaction hreleased hlevel, rfl⟩

/-- A statement in a transaction stays pending there; outside of one it is committed or rolled
back. -/
theorem leads_queryRaw (statement : Value) (values : List Value) :
    Leads (Keeps [] [] c x) (c.queryRaw statement values).run fun _ => Keeps [] [] c x := by
  rw [queryRaw_eq_onFailure]
  refine keeps_run_inTransaction_bind ?_
  by_cases hlevel : 0 < x.level
  · simp only [hlevel, decide_true, if_true]
    exact fun s hs => keeps_of_executed hlevel (leads_execute statement values s hs)
  · simp only [hlevel, decide_false]
    -- a failure before anything was sent leaves nothing to roll back
    have hfirst : Leads (Keeps [] [] c x)
        ((c.execute statement values).onFailure c.rollbackHeld).run
        fun r s => (∀ a, r = .ok a → Keeps [] [x.raw] c x s) ∧
          ∀ f, r = .error f → Keeps [] [] c x s := by
      refine .run_onFailure (leads_execute statement values) ?_ ?_
      · rintro a s (⟨-, -, f, hf⟩ | ⟨-, hs⟩)
        · cases hf
        · exact ⟨fun _ _ => hs, fun _ hf => by cases hf⟩
      · intro f s hs
        have hrolled : Keeps [] [] c x (c.rollbackHeld.run s).2 := by
          rcases hs with ⟨hreleased, hs, -⟩ | ⟨hreleased, hs⟩
          · exact leads_rollbackHeld (fun _ => rfl) (by simp) s hs
          · exact leads_rollbackHeld (by simp [hreleased]) (by simp) s hs
        exact ⟨fun _ ha => (by cases ha), fun _ _ => hrolled⟩
    refine .run_bind hfirst fun r => ?_
    refine keeps_run_read_bind ?_
    refine .run_liftM_bind (keeps_emit (Or.inl rfl) (by simp)) fun _ => ?_
    exact .run_pure fun _ hs => hs

/-- A refused statement is not sent, and what may be pending outside a transaction is rolled back. -/
theorem leads_refuse (f : Failure) :
    Leads (Keeps [] [] c x) (c.refuse f).run fun _ => Keeps [] [] c x := by
  unfold refuse
  refine keeps_run_read_bind ?_
  dsimp only
  cases hreleased : x.released with
  | true => exact .run_throw fun _ hs => hs
  | false =>
    refine keeps_run_inTransaction_bind ?_
    by_cases hlevel : 0 < x.level
    · simp only [hlevel, decide_true]
      exact .run_throw fun _ hs => hs
    · simp only [hlevel, decide_false]
      exact .run_liftM_bind (leads_rollbackHeld (fun _ => rfl) (by simp)) fun _ =>
        .run_throw fun _ hs => hs

/-! ## Transactions -/

/-- The account is kept by what keeps it whatever the connection of a number is. -/
theorem accounted_of_keeps {Q : β → Session → Prop} {y : StateM Session β}
    (h : ∀ x, Leads (Keeps hands pending c x) y Q) :
    Leads (fun s => s.Accounted hands pending) y Q :=
  fun s hs => h _ s ⟨hs, rfl⟩

theorem leads_begin :
    Leads (fun s => s.Accounted [] []) c.begin.run fun _ s => s.Accounted [] [] := by
  unfold begin
  refine .run_liftM_bind (M := fun _ s => s.Accounted [] []) ?_ fun _ => ?_
  · intro s hs
    exact hs.setLevel c (· + 1) fun _ hlevel => absurd hlevel (Nat.succ_ne_zero _)
  · refine accounted_of_keeps (c := c) fun x => ?_
    refine keeps_run_read_bind ?_
    dsimp only
    have hnote : Leads (Keeps [] [] c x)
        (liftM (note .debug .connection (levelText "BEGIN" x.level)) : SessionM Unit).run
        fun _ s => s.Accounted [] [] :=
      .run_liftM fun s hs => (keeps_note _ _ _ s hs).1
    -- a savepoint is a statement of the transaction around it
    split
    · rename_i hlevel
      refine .run_bind (M := fun _ => Keeps [] [] c x) ?_ fun _ => hnote
      intro s hs
      have hexecuted := leads_execute (.text ("SAVEPOINT " ++ savepoint x.level)) [] s hs
      have hkept := keeps_of_executed (by omega) hexecuted
      exact ⟨fun _ _ => hkept, fun _ _ => hkept.1⟩
    · exact hnote

/-- Ending a transaction leaves nothing pending outside of it. -/
theorem leads_finish (word verb : String) {event : RawId → Event}
    (hevent : ∀ raw, (event raw).Ends raw) :
    Leads (fun s => s.Accounted [] []) (c.finish word verb event).run
      fun _ s => s.Accounted [] [] := by
  unfold finish finishWith
  refine accounted_of_keeps (c := c) fun x => ?_
  refine keeps_run_read_bind ?_
  dsimp only
  split
  · exact .run_throw fun _ hs => hs.1
  · rename_i hlevel
    -- the level may go down once nothing is pending, or when it does not reach 0
    have hrest : Leads (fun s => Keeps [] [] c x s ∧
        (x.level - 1 = 0 → Settled x.raw s.server.events))
        (do
          note .debug .connection (levelText word x.level)
          updateConnection c fun x => { x with level := x.level - 1 } : SessionM Unit).run
        fun _ s => s.Accounted [] [] := by
      refine .run_liftM_bind (leads_note ?_ _ _ _) fun _ => .run_liftM ?_
      · exact fun s log hs => ⟨⟨hs.1.1.of_places rfl rfl rfl rfl, hs.1.2⟩, hs.2⟩
      · rintro s ⟨⟨haccount, rfl⟩, hsettled⟩
        exact haccount.setLevel c (· - 1) fun _ hzero _ => hsettled hzero
    split
    · rename_i hnested
      refine .run_bind (M := fun _ s => Keeps [] [] c x s ∧
        (x.level - 1 = 0 → Settled x.raw s.server.events)) ?_ fun _ => hrest
      intro s hs
      have hexecuted := leads_execute (.text (verb ++ " SAVEPOINT " ++ savepoint x.level)) [] s hs
      have hkept := keeps_of_executed (by omega) hexecuted
      exact ⟨fun _ _ => ⟨hkept, fun hzero => absurd hzero (by omega)⟩, fun _ _ => hkept.1⟩
    · refine .run_liftM_bind ?_ fun _ => hrest
      intro s hs
      have hemitted := keeps_emit (hevent x.raw) (by simp) s hs
      exact ⟨hemitted, fun _ => Settled.append_ends (hevent x.raw)⟩

/-! ## Giving back -/

/-- A connection that is not released is there, and is what it is changed to afterwards. -/
theorem connection_update {s : Session} (hreleased : (s.connection c).released = false)
    (f : Connection → Connection) :
    ((updateConnection c f).run s).2.connection c = f (s.connection c) := by
  rcases connection_cases s c with hc | hc
  · rw [connection_updateConnection, if_pos ⟨rfl, (List.getElem?_eq_some_iff.mp hc).1⟩]
  · rw [hc] at hreleased
    cases hreleased

/-- Abandoning a connection ends its transaction. -/
theorem leads_abandon (hreleased : x.released = false) :
    Leads (Keeps [] [] c x) c.abandon fun _ => Keeps [] [] c { x with level := 0 } := by
  unfold abandon
  refine keeps_inTransaction_bind ?_
  by_cases hlevel : 0 < x.level
  · simp only [hlevel, decide_true, if_true]
    refine .bind (keeps_note _ _ _) fun _ => ?_
    refine keeps_read_bind ?_
    refine Leads.bind (M := fun _ s => Keeps [] [] c x s ∧ Settled x.raw s.server.events) ?_
      fun _ => ?_
    · intro s hs
      exact ⟨keeps_emit (Or.inr rfl) (by simp) s hs, Settled.append_ends (Or.inr rfl)⟩
    · rintro s ⟨⟨haccount, rfl⟩, hsettled⟩
      refine ⟨haccount.setLevel c (fun _ => 0) fun _ _ _ => hsettled, ?_⟩
      exact connection_update hreleased fun x => { x with level := 0 }
  · simp only [hlevel, decide_false]
    have hzero : { x with level := 0 } = x := by
      cases x
      simp at hlevel
      simp [hlevel]
    rw [hzero]
    exact .pure fun _ hs => hs

end ConnectionId

namespace DatabaseId

open Session

/-- A database that is not closed is there. -/
theorem getElem?_of_open {s : Session} {id : DatabaseId} (h : (s.database id).closed = false) :
    s.databases[id.index]? = some (s.database id) := by
  rcases database_cases s id with hd | hd
  · exact hd
  · rw [hd] at h
    cases h

/-- A driver connection at hand goes into the pool, or is closed. -/
theorem leads_takeBack (id : DatabaseId) (raw : RawId) :
    Leads (fun s => s.Accounted [raw] []) (id.takeBack raw) fun _ s => s.Accounted [] [] := by
  intro s hs
  unfold takeBack
  show ((if !(s.database id).closed ∧ ((s.database id).idle.length : Int) <
    (s.database id).poolSize then _ else _ : StateM Session Unit).run s).2.Accounted [] []
  -- there is room in the pool, or the driver connection is closed
  split
  · rename_i hroom
    have hopen : (s.database id).closed = false := by simpa using hroom.1
    refine hs.updateDatabase (getElem?_of_open hopen) _ ?_ ?_
    · intro r
      simp only [List.count_cons, List.count_nil]
      omega
    · constructor
      · show (((s.database id).idle.length + 1 : Nat) : Int) ≤ max (s.database id).poolSize 0
        omega
      · intro hclosed
        rw [hopen] at hclosed
        cases hclosed
  · exact hs.emit_closed

end DatabaseId

namespace ConnectionId

open Session

variable {c : ConnectionId}

/-- Giving a connection back leaves its driver connection idle or closed. -/
theorem leads_release :
    Leads (fun s => s.Accounted [] []) c.release fun _ s => s.Accounted [] [] := by
  unfold release
  refine accounted_of_keeps (c := c) fun x => ?_
  refine keeps_read_bind ?_
  cases hreleased : x.released with
  | true => exact .pure fun _ hs => hs.1
  | false =>
    refine .bind (leads_abandon hreleased) fun _ => ?_
    refine Leads.bind (M := fun _ => Keeps [x.raw] [] c { x with level := 0, released := true }) ?_
      fun _ => ?_
    · rintro s ⟨haccount, hx⟩
      have hfalse : (s.connection c).released = false := by rw [hx, hreleased]
      have hletGo := haccount.letGo hfalse (by rw [hx])
      refine ⟨?_, ?_⟩
      · rw [hx] at hletGo
        exact hletGo
      · rw [connection_update hfalse, hx]
    · refine keeps_read_bind ?_
      dsimp only
      cases x.owner with
      | none => exact fun s hs => hs.1.emit_closed
      | some d => exact fun s hs => d.leads_takeBack x.raw s hs.1

end ConnectionId

namespace DatabaseId

open Session

/-! ## Databases -/

/-- A call on what a database is like sees the database as it stands. -/
theorem leads_read_bind {P : Session → Prop} {Q : Except Failure β → Session → Prop}
    {id : DatabaseId} {f : Database → SessionM β}
    (h : ∀ s, P s → Q ((f (s.database id)).run.run s).1 ((f (s.database id)).run.run s).2) :
    Leads P ((liftM id.read : SessionM Database) >>= f).run Q :=
  h

/-- The account is kept, with the driver connection that a call has yielded at hand. -/
def AtHand (r : Except Failure RawId) (s : Session) : Prop :=
  (∀ raw, r = .ok raw → s.Accounted [raw] []) ∧ ∀ f, r = .error f → s.Accounted [] []

/-- An opened driver connection is at hand. -/
theorem leads_openRaw (id : DatabaseId) :
    Leads (fun s => s.Accounted [] []) id.openRaw.run AtHand := by
  have hopen : ∀ arguments, Leads (fun s => s.Accounted [] [])
      (SessionM.lift (Session.openRaw arguments)).run AtHand := by
    intro arguments s hs
    have hopened := hs.openRaw arguments
    refine ⟨fun raw hraw => ?_, fun f hf => by cases hf⟩
    injection hraw with hraw
    rw [← hraw]
    exact hopened.2
  unfold openRaw
  refine leads_read_bind fun s hs => ?_
  refine Leads.run_liftM_bind (P := fun s => s.Accounted [] []) (M := fun _ s => s.Accounted [] [])
    (Q := AtHand) (ConnectionId.leads_note ?_ _ _ _) (fun _ => ?_) s hs
  · exact fun s log hs => hs.of_places rfl rfl rfl rfl
  · cases (s.database id).origin with
    | factory => exact hopen none
    | url text =>
      refine .run_bind (M := fun _ s => s.Accounted [] []) ?_ fun l => hopen _
      exact fun s hs => ⟨fun _ _ => hs, fun _ _ => ⟨fun _ hraw => (by cases hraw), fun _ _ => hs⟩⟩

/-- Taking a driver connection, from the pool or a new one, brings it to hand. -/
theorem leads_takeRaw (id : DatabaseId) :
    Leads (fun s => s.Accounted [] []) id.takeRaw.run AtHand := by
  unfold takeRaw
  refine leads_read_bind fun s hs => ?_
  cases hidle : (s.database id).idle with
  | nil => exact leads_openRaw id s hs
  | cons raw rest =>
    have hthere : s.databases[id.index]? = some (s.database id) := by
      rcases database_cases s id with hd | hd
      · exact hd
      · rw [hd] at hidle
        cases hidle
    have hpool := hs.pools _ (List.mem_of_getElem? hthere)
    -- the head of the pool comes to hand
    have hkept : ((updateDatabase id fun d => { d with idle := rest }).run s).2.Accounted
        [raw] [] := by
      refine hs.updateDatabase hthere _ ?_ ?_
      · intro r
        rw [hidle]
        simp only [List.count_cons, List.count_nil]
        omega
      · rw [hidle] at hpool
        constructor
        · have hlength := hpool.1
          rw [List.length_cons] at hlength
          show (rest.length : Int) ≤ max (s.database id).poolSize 0
          omega
        · intro hclosed
          have hempty := hpool.2 hclosed
          cases hempty
    refine ⟨fun raw' hraw => ?_, fun f hf => by cases hf⟩
    injection hraw with hraw
    rw [← hraw]
    exact hkept

/-- A connection that is taken holds its driver connection. -/
theorem leads_connect (id : DatabaseId) :
    Leads (fun s => s.Accounted [] []) id.connect.run fun _ s => s.Accounted [] [] := by
  unfold connect
  refine leads_read_bind fun s hs => ?_
  cases (s.database id).closed with
  | true => exact hs
  | false =>
    have hrest : Leads (fun s => s.Accounted [] [])
        (do SessionM.lift (addConnection ⟨← id.takeRaw, some id, 0, false⟩) :
          SessionM ConnectionId).run fun _ s => s.Accounted [] [] := by
      refine .run_bind (leads_takeRaw id) fun raw => .run_lift ?_
      exact fun s hs => hs.addConnection (some id)
    exact hrest s hs

/-- Closing a database down closes its idle connections. -/
theorem leads_closeDown (id : DatabaseId) :
    Leads (fun s => s.Accounted [] []) id.closeDown fun _ s => s.Accounted [] [] := by
  -- the pool is emptied first, so that its connections are at hand while they are closed
  have hclose : ∀ raws : List RawId, Leads (fun s => s.Accounted raws [])
      (raws.forM fun raw => emit (.closed raw)) fun _ s => s.Accounted [] [] := by
    intro raws
    induction raws with
    | nil => exact .pure fun _ hs => hs
    | cons raw raws ih => exact .bind (fun s hs => hs.emit_closed) fun _ => ih
  unfold closeDown
  intro s hs
  have hrest : ∀ d : Database, Leads (fun s => s.Accounted d.idle [])
      (do
        d.idle.forM fun raw => emit (.closed raw)
        note .info .database ("Database `" ++ d.name ++ "` closed down"))
      fun _ s => s.Accounted [] [] := by
    intro d
    refine .bind (hclose d.idle) fun _ => ConnectionId.leads_note ?_ _ _ _
    exact fun s log hs => hs.of_places rfl rfl rfl rfl
  refine hrest (s.database id) _ ?_
  cases hd : s.databases[id.index]? with
  | some d =>
    rw [database_of_getElem? hd]
    refine hs.updateDatabase hd _ ?_ ?_
    · intro r
      simp only [List.count_nil]
      omega
    · exact ⟨Int.le_max_right _ _, fun _ => rfl⟩
  | none =>
    -- a number without a database has nothing to close
    rw [database_of_length_le (List.getElem?_eq_none_iff.mp hd)]
    show Accounted [] [] { s with databases := s.databases.modify id.index _ }
    rw [List.modify_eq_self (List.getElem?_eq_none_iff.mp hd)]
    exact hs

end DatabaseId

/-! ## The basic calls -/

/-- A call on commands, transactions, pools or the registry keeps account. -/
theorem Session.accounted_management :
    Management fun s s' => s.Accounted [] [] → s'.Accounted [] [] where
  refl _ hs := hs
  trans hst htu hs := htu (hst hs)
  note level source text :=
    ConnectionId.leads_note (fun _ _ hs => hs.of_places rfl rfl rfl rfl) level source text
  queryRaw c statement values _ := by
    intro s hs
    exact (ConnectionId.leads_queryRaw statement values s ⟨hs, rfl⟩).1
  refuse c f := by
    intro s hs
    exact (ConnectionId.leads_refuse f s ⟨hs, rfl⟩).1
  release c := ConnectionId.leads_release
  connect id := id.leads_connect
  schemas id f := by
    intro s hs
    refine hs.of_places ?_ rfl rfl rfl
    have hpool : ∀ d : Database, Database.pool { d with schemas := f d.schemas } = d.pool :=
      fun d => rfl
    exact map_modify_eq hpool s.databases id.index
  updateCache id f := fun s hs => hs.of_places rfl rfl rfl rfl
  addCache := fun s hs => hs.of_places rfl rfl rfl rfl
  addShared d cache := fun s hs => hs.of_places rfl rfl rfl rfl
  begin c := ConnectionId.leads_begin
  commit c := ConnectionId.leads_finish _ _ fun _ => Or.inl rfl
  rollback c := ConnectionId.leads_finish _ _ fun _ => Or.inr rfl
  closeDown id := id.leads_closeDown
  updateShared id d := fun s hs => hs.of_places rfl rfl rfl rfl
  addDatabase d h := fun s hs => hs.addDatabase h
  registry f := fun s hs => hs.of_places rfl rfl rfl rfl

end TableOps
