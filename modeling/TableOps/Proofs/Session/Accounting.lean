import TableOps.Proofs.Session.Pool

/-!
# Keeping account of driver connections

What the smallest steps of a session do to the account of its driver connections.

* `Session.Accounted.of_places` — steps that touch no connection.
* `Session.Accounted.emit_ends`, `Session.Accounted.emit_executed`, … — what is asked of the driver.
* `Session.Accounted.setLevel`, `Session.Accounted.letGo`, … — connections and pools.
-/

namespace TableOps

/-- What a database says about its pool. -/
def Database.pool (d : Database) : Int × List RawId × Bool :=
  (d.poolSize, d.idle, d.closed)

namespace Session.Accounted

variable {hands pending : List RawId} {s s' : Session} {raw : RawId}

/-- The account only depends on pools, connections and what was asked of the driver. -/
theorem of_places (h : s.Accounted hands pending)
    (hpools : s'.databases.map Database.pool = s.databases.map Database.pool)
    (hconnections : s'.connections = s.connections)
    (hopened : s'.server.opened = s.server.opened)
    (hevents : s'.server.events = s.server.events) : s'.Accounted hands pending := by
  -- every count is read off a part that stays as it is
  have hidle : ∀ raw, s'.idleCount raw = s.idleCount raw := by
    intro raw
    have hcount := congrArg (fun pools => (pools.map fun p => p.2.1.count raw).sum) hpools
    simp only [List.map_map] at hcount
    exact hcount
  have hheld : ∀ raw, s'.heldCount raw = s.heldCount raw := by
    intro raw
    rw [heldCount, hconnections, heldCount]
  have hclosed : ∀ raw, s'.closedCount raw = s.closedCount raw := by
    intro raw
    rw [closedCount, hevents, closedCount]
  have hopenedCount : ∀ raw, s'.openedCount raw = s.openedCount raw := by
    intro raw
    rw [openedCount, hevents, openedCount]
  constructor
  · intro raw
    rw [hidle, hheld, hclosed, hopenedCount]
    exact h.places raw
  · intro raw
    rw [hopenedCount, hopened]
    exact h.numbered raw
  · rw [hopened, hevents]
    exact h.known
  · have hall : ∀ p ∈ s'.databases.map Database.pool,
        (p.2.1.length : Int) ≤ max p.1 0 ∧ (p.2.2 → p.2.1 = []) := by
      rw [hpools]
      exact List.forall_mem_map.mpr h.pools
    exact List.forall_mem_map.mp hall
  · intro raw
    rw [hidle, hconnections, hevents]
    exact h.settled raw

/-! ## What is asked of the driver -/

/-- How events are counted after one more of them. -/
theorem countP_emit (read : Event → Bool) (e : Event) (s : Session) :
    ((emit e).run s).2.server.events.countP read =
      s.server.events.countP read + if read e then 1 else 0 := by
  show (s.server.events ++ [e]).countP read = _
  rw [List.countP_append, List.countP_singleton]

theorem closedCount_emit (e : Event) (s : Session) (raw : RawId) :
    ((emit e).run s).2.closedCount raw = s.closedCount raw + if e.closes raw then 1 else 0 :=
  countP_emit _ e s

theorem openedCount_emit (e : Event) (s : Session) (raw : RawId) :
    ((emit e).run s).2.openedCount raw = s.openedCount raw + if e.opens raw then 1 else 0 :=
  countP_emit _ e s

/-- An event that executes nothing on a driver connection leaves it as untouched as it is. -/
theorem known_emit (h : s.Accounted hands pending) {e : Event} (hraw : s.server.opened < raw)
    (he : ¬ e.executes raw) : ∀ e' ∈ ((emit e).run s).2.server.events, ¬ e'.executes raw := by
  intro e' hmem
  rcases List.mem_append.mp hmem with hmem | hmem
  · exact h.known raw hraw e' hmem
  · rw [List.mem_singleton.mp hmem]
    exact he

/-- An event that neither opens nor closes anything keeps the counts; what it leaves pending has to
be named. -/
theorem emit {e : Event} {pending' : List RawId} (h : s.Accounted hands pending)
    (hopens : ∀ raw, e.opens raw = false) (hcloses : ∀ raw, e.closes raw = false)
    (hexecutes : ∀ raw, e.executes raw → raw ≤ s.server.opened)
    (hsettled : ∀ raw ∉ pending', (raw ∉ pending → Settled raw s.server.events) →
      Settled raw (s.server.events ++ [e])) :
    ((Session.emit e).run s).2.Accounted hands pending' := by
  constructor
  · intro raw
    rw [closedCount_emit, openedCount_emit, hcloses, hopens]
    exact h.places raw
  · intro raw
    rw [openedCount_emit, hopens]
    exact h.numbered raw
  · intro raw hraw
    exact h.known_emit hraw fun he => absurd hraw (Nat.not_lt.mpr (hexecutes raw he))
  · exact h.pools
  · intro raw hpending hraw
    exact hsettled raw hpending fun hnot => h.settled raw hnot hraw

/-- A commit or a rollback settles the driver connection it is about. -/
theorem emit_ends (h : s.Accounted hands pending) (hpending : ∀ r ∈ pending, r = raw) {e : Event}
    (he : e.Ends raw) : ((Session.emit e).run s).2.Accounted hands [] := by
  have hquiet : ∀ r, e.executes r = false := by
    rcases he with rfl | rfl <;> exact fun r => rfl
  refine h.emit ?_ ?_ ?_ ?_
  · rcases he with rfl | rfl <;> exact fun r => rfl
  · rcases he with rfl | rfl <;> exact fun r => rfl
  · intro r hr
    rw [hquiet r] at hr
    cases hr
  · intro r _ hr
    by_cases hraw : r = raw
    · rw [hraw]
      exact Settled.append_ends he
    · have hnot : r ∉ pending := fun hmem => hraw (hpending r hmem)
      refine (hr hnot).append ?_
      rw [hquiet r]
      decide

/-- A statement is pending until it is committed or rolled back. -/
theorem emit_executed (h : s.Accounted hands []) (hraw : raw ≤ s.server.opened)
    (statement : Value) (values : List Value) :
    ((Session.emit (.executed raw statement values)).run s).2.Accounted hands [raw] := by
  refine h.emit (fun r => rfl) (fun r => rfl) ?_ ?_
  · intro r hr
    have heq : raw = r := by simpa [Event.executes] using hr
    rw [← heq]
    exact hraw
  · intro r hpending hr
    refine (hr List.not_mem_nil).append ?_
    have hne : raw ≠ r := fun heq => hpending (List.mem_singleton.mpr heq.symm)
    simpa [Event.executes] using hne

/-- A driver connection that is at hand may be closed. -/
theorem emit_closed (h : s.Accounted (raw :: hands) []) :
    ((Session.emit (.closed raw)).run s).2.Accounted hands [] := by
  have hclosed : ∀ r, ((Session.emit (.closed raw)).run s).2.closedCount r =
      s.closedCount r + if raw = r then 1 else 0 := by
    intro r
    rw [closedCount_emit]
    simp only [Event.closes, beq_iff_eq]
  have hopened : ∀ r, ((Session.emit (.closed raw)).run s).2.openedCount r = s.openedCount r :=
    fun r => openedCount_emit _ s r
  constructor
  · intro r
    have hplaces := h.places r
    rw [List.count_cons] at hplaces
    simp only [beq_iff_eq] at hplaces
    rw [hclosed, hopened]
    -- it leaves the hands and is counted among the closed ones
    show hands.count r + s.idleCount r + s.heldCount r + _ = _
    omega
  · intro r
    rw [hopened]
    exact h.numbered r
  · intro r hr
    exact h.known_emit hr (by simp [Event.executes])
  · exact h.pools
  · intro r hpending hr
    refine (h.settled r hpending ?_).append (by simp [Event.executes])
    rw [List.count_cons]
    exact hr.imp_left fun hcount => by
      show 0 < _
      have : 0 < hands.count r + s.idleCount r := hcount
      omega

/-- A driver connection that is opened is at hand. -/
theorem openRaw (h : s.Accounted hands []) (arguments : Option (Entries Value)) :
    ((Session.openRaw arguments).run s).1 = s.server.opened + 1 ∧
      ((Session.openRaw arguments).run s).2.Accounted ((s.server.opened + 1) :: hands) [] := by
  refine ⟨rfl, ?_⟩
  have hrun : ((Session.openRaw arguments).run s).2 =
      ((Session.emit (.opened (s.server.opened + 1) arguments)).run
        { s with server := { s.server with opened := s.server.opened + 1 } }).2 := rfl
  rw [hrun]
  have hclosed : ∀ r, ((Session.emit (.opened (s.server.opened + 1) arguments)).run
      { s with server := { s.server with opened := s.server.opened + 1 } }).2.closedCount r =
      s.closedCount r :=
    fun r => closedCount_emit _ _ r
  have hopened : ∀ r : Nat, ((Session.emit (.opened (s.server.opened + 1) arguments)).run
      { s with server := { s.server with opened := s.server.opened + 1 } }).2.openedCount r =
      s.openedCount r + if s.server.opened + 1 = r then 1 else 0 := by
    intro r
    rw [openedCount_emit]
    simp only [Event.opens, beq_iff_eq]
    rfl
  constructor
  · intro r
    have hplaces := h.places r
    rw [hclosed, hopened, List.count_cons]
    simp only [beq_iff_eq]
    show _ + s.idleCount r + s.heldCount r + _ = _
    omega
  · intro r
    -- the new one takes the next number
    have hnext : ∀ m n : Nat, ((if 1 ≤ m ∧ m ≤ n then 1 else 0) + if n + 1 = m then 1 else 0) =
        if 1 ≤ m ∧ m ≤ n + 1 then 1 else 0 := by
      intro m n
      split <;> split <;> split <;> omega
    rw [hopened, h.numbered r]
    exact hnext r s.server.opened
  · intro r hr e he hexecutes
    have hr' : s.server.opened + 1 < r := hr
    rcases List.mem_append.mp he with he | he
    · exact h.known r (by omega) e he hexecutes
    · rw [List.mem_singleton.mp he] at hexecutes
      cases hexecutes
  · exact h.pools
  · intro r hpending hr
    refine Settled.append ?_ (by simp [Event.executes])
    by_cases hnew : s.server.opened + 1 = (r : Nat)
    · -- nothing was executed yet on the new one
      refine Settled.of_absent fun e he => h.known r ?_ e he
      omega
    · refine h.settled r hpending ?_
      rw [List.count_cons, if_neg (by simpa using hnew)] at hr
      exact hr

/-! ## Connections -/

/-- What is at hand is settled. -/
theorem settled_of_mem (h : s.Accounted hands pending) (hpending : raw ∉ pending)
    (hraw : raw ∈ hands) : Settled raw s.server.events := by
  have hcount := List.count_pos_iff.mpr hraw
  refine h.settled raw hpending (Or.inl ?_)
  omega

/-- A changed connection: what it no longer holds is at hand, and it holds nothing pending unless in
a transaction. -/
theorem updateConnection {hands' : List RawId} {c : ConnectionId} {x : Connection}
    (h : s.Accounted hands pending) (hx : s.connections[c.index]? = some x)
    (f : Connection → Connection)
    (hcount : ∀ r, hands'.count r + (f x).holds r = hands.count r + x.holds r)
    (hhands : ∀ r ∉ pending, r ∈ hands' → Settled r s.server.events)
    (hlevel : (f x).released = false → (f x).level = 0 → (f x).raw ∉ pending →
      Settled (f x).raw s.server.events) :
    ((Session.updateConnection c f).run s).2.Accounted hands' pending := by
  have hheld : ∀ r, ((Session.updateConnection c f).run s).2.heldCount r + x.holds r =
      s.heldCount r + (f x).holds r :=
    fun r => sum_map_modify (Connection.holds r) f s.connections c.index hx
  constructor
  · intro r
    have hplaces := h.places r
    have hheld := hheld r
    have hcount := hcount r
    show hands'.count r + s.idleCount r + _ + s.closedCount r = s.openedCount r
    omega
  · exact h.numbered
  · exact h.known
  · exact h.pools
  · intro r hpending hr
    show Settled r s.server.events
    by_cases hmem : r ∈ hands'
    · exact hhands r hpending hmem
    · rcases hr with hr | hr
      · have hidle : 0 < s.idleCount r := by
          rw [List.count_eq_zero_of_not_mem hmem] at hr
          have hsame : ((Session.updateConnection c f).run s).2.idleCount r = s.idleCount r := rfl
          omega
        refine h.settled r hpending (Or.inl ?_)
        omega
      · -- the changed connection is looked at on its own
        have hall : ∀ y ∈ s.connections.modify c.index f, y.released = false → y.raw = r →
            y.level = 0 → Settled r s.server.events := by
          refine forall_mem_modify ?_ ?_
          · intro y hy hreleased hraw hlevel
            exact h.settled r hpending (Or.inr ⟨y, hy, hreleased, hraw, hlevel⟩)
          · intro y hy hreleased hraw hzero
            rw [hx, Option.some.injEq] at hy
            subst hy
            rw [← hraw] at hpending ⊢
            exact hlevel hreleased hzero hpending
        obtain ⟨y, hy, hreleased, hraw, hzero⟩ := hr
        exact hall y hy hreleased hraw hzero

/-- A number without a connection is not changed. -/
theorem updateConnection_none {c : ConnectionId} (hx : s.connections[c.index]? = none)
    (f : Connection → Connection) : ((Session.updateConnection c f).run s).2 = s := by
  show { s with connections := s.connections.modify c.index f } = s
  rw [List.modify_eq_self (List.getElem?_eq_none_iff.mp hx)]

/-- A connection changes its level; outside a transaction it leaves nothing pending. -/
theorem setLevel (h : s.Accounted hands pending) (c : ConnectionId) (f : Nat → Nat)
    (hlevel : (s.connection c).released = false → f (s.connection c).level = 0 →
      (s.connection c).raw ∉ pending → Settled (s.connection c).raw s.server.events) :
    ((Session.updateConnection c fun x => { x with level := f x.level }).run s).2.Accounted hands
      pending := by
  cases hx : s.connections[c.index]? with
  | none =>
    rw [updateConnection_none hx]
    exact h
  | some x =>
    rw [connection_of_getElem? hx] at hlevel
    refine h.updateConnection hx _ (fun r => rfl) ?_ hlevel
    exact fun r hpending hr => h.settled_of_mem hpending hr

/-- A connection outside a transaction lets go of its driver connection, which is then at hand. -/
theorem letGo (h : s.Accounted hands []) {c : ConnectionId}
    (hreleased : (s.connection c).released = false) (hlevel : (s.connection c).level = 0) :
    ((Session.updateConnection c fun x => { x with released := true }).run s).2.Accounted
      ((s.connection c).raw :: hands) [] := by
  rcases connection_cases s c with hx | hx
  · have hsettled : Settled (s.connection c).raw s.server.events :=
      h.settled _ List.not_mem_nil (Or.inr ⟨_, List.mem_of_getElem? hx, hreleased, rfl, hlevel⟩)
    refine h.updateConnection hx _ ?_ ?_ ?_
    · intro r
      rw [List.count_cons]
      simp [Connection.holds, hreleased]
    · intro r hpending hr
      rcases List.mem_cons.mp hr with rfl | hr
      · exact hsettled
      · exact h.settled_of_mem hpending hr
    · intro hreleased'
      cases hreleased'
  · rw [hx] at hreleased
    cases hreleased

/-- A new connection takes over a driver connection that is at hand. -/
theorem addConnection (h : s.Accounted (raw :: hands) []) (owner : Option DatabaseId) :
    ((Session.addConnection ⟨raw, owner, 0, false⟩).run s).2.Accounted hands [] := by
  have hheld : ∀ r, ((Session.addConnection ⟨raw, owner, 0, false⟩).run s).2.heldCount r =
      s.heldCount r + if raw = r then 1 else 0 := by
    intro r
    show ((s.connections ++ [_]).map (Connection.holds r)).sum = _
    rw [List.map_append, List.sum_append_nat]
    simp [heldCount, Connection.holds]
  constructor
  · intro r
    have hplaces := h.places r
    have hheld := hheld r
    rw [List.count_cons] at hplaces
    simp only [beq_iff_eq] at hplaces
    show hands.count r + s.idleCount r + _ + s.closedCount r = s.openedCount r
    omega
  · exact h.numbered
  · exact h.known
  · exact h.pools
  · intro r hpending hr
    show Settled r s.server.events
    -- the driver connection of the new connection was at hand before
    rcases hr with hr | ⟨y, hy, hreleased, hraw, hlevel⟩
    · refine h.settled r hpending (Or.inl ?_)
      have hcount : 0 < hands.count r + s.idleCount r := hr
      rw [List.count_cons]
      omega
    · rcases List.mem_append.mp hy with hy | hy
      · exact h.settled r hpending (Or.inr ⟨y, hy, hreleased, hraw, hlevel⟩)
      · rw [List.mem_singleton.mp hy] at hraw
        exact h.settled_of_mem hpending (hraw ▸ List.mem_cons_self)

/-! ## Pools -/

/-- A changed pool: what it no longer has is at hand. -/
theorem updateDatabase {hands' : List RawId} {id : DatabaseId} {d : Database}
    (h : s.Accounted hands []) (hd : s.databases[id.index]? = some d) (f : Database → Database)
    (hcount : ∀ r, hands'.count r + (f d).idle.count r = hands.count r + d.idle.count r)
    (hpool : ((f d).idle.length : Int) ≤ max (f d).poolSize 0 ∧ ((f d).closed → (f d).idle = [])) :
    ((Session.updateDatabase id f).run s).2.Accounted hands' [] := by
  have hidle : ∀ r, ((Session.updateDatabase id f).run s).2.idleCount r + d.idle.count r =
      s.idleCount r + (f d).idle.count r :=
    fun r => sum_map_modify (fun d => d.idle.count r) f s.databases id.index hd
  constructor
  · intro r
    have hplaces := h.places r
    have hidle := hidle r
    have hcount := hcount r
    show hands'.count r + _ + s.heldCount r + s.closedCount r = s.openedCount r
    omega
  · exact h.numbered
  · exact h.known
  · refine forall_mem_modify h.pools ?_
    intro d' hd'
    rw [hd, Option.some.injEq] at hd'
    rw [← hd']
    exact hpool
  · intro r hpending hr
    show Settled r s.server.events
    -- what is idle or at hand now was one or the other before
    refine h.settled r hpending (hr.imp_left fun hr => ?_)
    have hidle := hidle r
    have hcount := hcount r
    have hle := le_sum_map (fun d => d.idle.count r) hd
    have hsum : d.idle.count r ≤ s.idleCount r := hle
    omega

/-- A new database without idle connections. -/
theorem addDatabase (h : s.Accounted hands []) {d : Database} (hd : d.idle = []) :
    ((Session.addDatabase d).run s).2.Accounted hands [] := by
  have hidle : ∀ r, ((Session.addDatabase d).run s).2.idleCount r = s.idleCount r := by
    intro r
    show ((s.databases ++ [d]).map fun d => d.idle.count r).sum = _
    rw [List.map_append, List.sum_append_nat]
    simp [idleCount, hd]
  constructor
  · intro r
    rw [hidle]
    exact h.places r
  · exact h.numbered
  · exact h.known
  · intro d' hd'
    rcases List.mem_append.mp hd' with hd' | hd'
    · exact h.pools d' hd'
    · rw [List.mem_singleton.mp hd', hd]
      exact ⟨Int.le_max_right _ _, fun _ => rfl⟩
  · intro r hpending hr
    rw [hidle] at hr
    exact h.settled r hpending hr

end Session.Accounted

end TableOps
