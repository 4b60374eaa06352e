import TableOps.Proofs.Session.HeldConnection

/-!
# Nested transactions

A block on a connection of the pool is committed as a whole, and the blocks inside it are
savepoints. What is committed in the end is what a reading of the nested blocks says, which knows of
no savepoints. A block that is broken off is the exception: it is never ended, so that every end
behind it is that of another block than it was meant for.

* `Script` — the body of a block; `Script.run` runs it on a connection.
* `Script.meaning` — what a body comes to by the answers of the server.
* `Stacked` — the savepoints of blocks that are broken off.
* `Carried` — what a call does to a transaction in progress: its effects are appended, and the only
  savepoints it may leave behind are those of deeper levels.
* `Script.runsOn` — every body comes to its meaning.

Main statement: `Script.commits_kept_effects`, what is committed when the outermost block exits.
-/

namespace TableOps

open Session

/-! ## Bodies -/

/-- What is done inside a block on its connection. -/
inductive Script : Type → Type 1 where
  | done {α : Type} (a : α) : Script α
  /-- An error is raised, or the body is broken off. -/
  | raise {α : Type} (f : Failure) : Script α
  /-- A statement, which is not about a savepoint. -/
  | statement (text : Value) (values : List Value)
      (ordinary : SavepointCommand.ofStatement? text = none) : Script Result
  | andThen {α β : Type} (first : Script α) (next : α → Script β) : Script β
  /-- A failure is caught; the handler may raise it again. -/
  | rescue {α : Type} (body : Script α) (handler : Failure → Script α) : Script α
  /-- A block on the same connection; a database may be named and is not looked at. -/
  | block {α : Type} (database : Value) (body : Script α) : Script α

/-- Runs a body on a connection. -/
def Script.run (c : ConnectionId) {α : Type} : Script α → SessionM α
  | .done a => return a
  | .raise f => throw f
  | .statement text values _ => c.queryRaw text values
  | .andThen first next => do (next (← first.run c)).run c
  | .rescue body handler => tryCatch (body.run c) fun f => (handler f).run c
  | .block database body => Session.transaction (databaseOf database) (.own c) fun _ => body.run c

/-! ## What bodies mean -/

/-- What a body comes to. -/
structure Meaning (α : Type) where
  result : Except Failure α
  /-- The effects that are kept unless a block around the body fails. -/
  kept : List Sent
  /-- The blocks that were begun and not ended, the last one first: for each the effects that were
  kept before it. -/
  unended : List (List Sent)
  /-- The answers given to the statements that are about savepoints. -/
  controls : List Reply
  /-- The answers that are left. -/
  replies : List Reply

namespace Meaning

variable {α β : Type}

/-- A body and what is run after it, the answers that are left going on. -/
def before (first : Meaning α) (next : List Reply → Meaning β) : Meaning β :=
  let second := next first.replies
  { result := second.result
    kept := first.kept ++ second.kept
    unended := second.unended.map (first.kept ++ ·) ++ first.unended
    controls := first.controls ++ second.controls
    replies := second.replies }

/-- A body with the beginning of a block around it, which is answered with `set`. -/
def inside (m : Meaning α) (set : Reply) : Meaning α :=
  { m with unended := m.unended ++ [[]], controls := set :: m.controls }

/-- The last block that was begun is ended. -/
def ended (m : Meaning α) (kept : List Sent) : Meaning α :=
  { m with
    kept := kept
    unended := m.unended.tail
    controls := m.controls ++ [m.replies.headD .nothing]
    replies := m.replies.tail }

/-- The end of a block is that of the last one that was begun: it keeps what its body keeps, or goes
back to what was kept before it. A block that is broken off is not ended. -/
def left (m : Meaning α) : Meaning α :=
  match m.result with
  | .ok _ => m.ended m.kept
  | .error f => if f.isError then m.ended (m.unended.headD []) else m

@[simp] theorem left_result (m : Meaning α) : m.left.result = m.result := by
  unfold left
  split
  · rfl
  · split <;> rfl

/-- The end of the outermost block is that of the last block that was begun too, and no statement
where that is the outermost one itself. -/
def outermost (m : Meaning α) : Meaning α :=
  if m.unended = [] then m else m.left

/-- No statement that is about a savepoint fails. -/
def ControlsSucceed (m : Meaning α) : Prop :=
  ∀ reply ∈ m.controls, ∃ r, reply.result = .ok r

end Meaning

/-- What a body comes to when the statements are answered by `replies`. Statements are answered in
order, and so are the beginning and the end of each block; a block that fails keeps nothing. -/
def Script.meaning {α : Type} : Script α → List Reply → Meaning α
  | .done a, replies => ⟨.ok a, [], [], [], replies⟩
  | .raise f, replies => ⟨.error f, [], [], [], replies⟩
  | .statement text values _, replies =>
    let reply := replies.headD .nothing
    ⟨reply.result, reply.effects text values, [], [], replies.tail⟩
  | .andThen first next, replies =>
    let m := first.meaning replies
    match m.result with
    | .ok a => m.before (next a).meaning
    | .error f => { m with result := .error f }
  | .rescue body handler, replies =>
    let m := body.meaning replies
    match m.result with
    | .ok a => { m with result := .ok a }
    | .error f => m.before (handler f).meaning
  | .block _ body, replies => ((body.meaning replies.tail).inside (replies.headD .nothing)).left

/-- A body that is never broken off: what it raises are errors. -/
def Script.Uninterrupted {α : Type} : Script α → Prop
  | .done _ | .statement .. => True
  | .raise f => f.isError = true
  | .andThen first next => first.Uninterrupted ∧ ∀ a, (next a).Uninterrupted
  | .rescue body handler =>
    body.Uninterrupted ∧ ∀ f, f.isError = true → (handler f).Uninterrupted
  | .block _ body => body.Uninterrupted

/-! ## What a body does to a transaction in progress -/

/-- Levels have different savepoints. -/
theorem ConnectionId.eq_of_savepoint_eq {k l : Nat}
    (h : ConnectionId.savepoint k = ConnectionId.savepoint l) : k = l := by
  have hdigits : (toString k).toList = (toString l).toList := by
    have happend := congrArg String.toList h
    rw [savepoint, savepoint, String.toList_append, String.toList_append] at happend
    exact List.append_cancel_left happend
  rw [Nat.toString_eq_ofList_toDigits, Nat.toString_eq_ofList_toDigits, String.toList_ofList,
    String.toList_ofList] at hdigits
  rw [← Nat.ofDigitChars_ten_toDigits (n := k), hdigits, Nat.ofDigitChars_ten_toDigits]

/-- All of the savepoints are those of levels deeper than one. -/
def Deeper (level : Nat) (savepoints : Entries (List Sent)) : Prop :=
  ∀ entry ∈ savepoints, ∃ k, level < k ∧ entry.1 = ConnectionId.savepoint k

namespace Deeper

variable {level : Nat} {first rest : Entries (List Sent)}

theorem nil : Deeper level [] :=
  fun _ h => nomatch h

theorem append (hfirst : Deeper level first) (hrest : Deeper level rest) :
    Deeper level (first ++ rest) :=
  fun entry h => (List.mem_append.mp h).elim (hfirst entry) (hrest entry)

/-- The savepoint of a level is none of those of deeper levels. -/
theorem ne (h : Deeper level first) : ∀ entry ∈ first, entry.1 ≠ ConnectionId.savepoint level := by
  intro entry hentry heq
  obtain ⟨k, hk, hname⟩ := h entry hentry
  have hlevel : k = level := ConnectionId.eq_of_savepoint_eq (hname.symm.trans heq)
  omega

/-- Some of the savepoints that are deeper than the next level. -/
theorem of_subset (h : Deeper (level + 1) first) (hsubset : rest ⊆ first) : Deeper level rest := by
  intro entry hentry
  obtain ⟨k, hk, hname⟩ := h entry (hsubset hentry)
  exact ⟨k, Nat.lt_of_succ_lt hk, hname⟩

end Deeper

theorem Deeper.next (level : Nat) (saved : List Sent) :
    Deeper level [(ConnectionId.savepoint (level + 1), saved)] := by
  intro entry hentry
  rw [List.mem_singleton.mp hentry]
  exact ⟨level + 1, Nat.lt_succ_self level, rfl⟩

/-- The savepoints set since `pending` was pending at a level, when some blocks were begun there and
not ended. Each of these has its own, with what was kept before it, below some of deeper levels. -/
inductive Stacked (level : Nat) (pending : List Sent) :
    List (List Sent) → Entries (List Sent) → Prop where
  | nil {newer : Entries (List Sent)} (hnewer : Deeper level newer) : Stacked level pending [] newer
  | cons {saved : List Sent} {unended : List (List Sent)} {newer older : Entries (List Sent)}
      (hnewer : Deeper (level + unended.length + 1) newer)
      (holder : Stacked level pending unended older) :
      Stacked level pending (saved :: unended)
        (newer ++ (ConnectionId.savepoint (level + unended.length + 1), pending ++ saved) :: older)

namespace Stacked

variable {level : Nat} {pending kept saved : List Sent} {unended later : List (List Sent)}
  {newer newest : Entries (List Sent)}

/-- Savepoints of levels that are deeper than the blocks may stand before theirs. -/
theorem prepend (hnewest : Deeper (level + unended.length) newest)
    (h : Stacked level pending unended newer) :
    Stacked level pending unended (newest ++ newer) := by
  cases h with
  | nil hnewer => exact .nil (hnewest.append hnewer)
  | cons hnewer holder =>
    rw [← List.append_assoc]
    exact .cons (Deeper.append hnewest hnewer) holder

/-- Blocks that are begun behind some others. -/
theorem append (hlater : Stacked (level + unended.length) (pending ++ kept) later newest)
    (h : Stacked level pending unended newer) :
    Stacked level pending (later.map (kept ++ ·) ++ unended) (newest ++ newer) := by
  induction hlater with
  | nil hnewest => exact h.prepend hnewest
  | @cons saved later newest older hnewest holder ih =>
    have hlevel : level + unended.length + later.length + 1 =
        level + (later.map (kept ++ ·) ++ unended).length + 1 := by
      rw [List.length_append, List.length_map]
      omega
    rw [hlevel] at hnewest ⊢
    rw [List.append_assoc, List.append_assoc pending kept saved]
    exact .cons hnewest ih

/-- A block around the others, whose savepoint is the oldest. -/
theorem inside (h : Stacked (level + 1) pending unended newer) :
    Stacked level pending (unended ++ [[]])
      (newer ++ [(ConnectionId.savepoint (level + 1), pending)]) := by
  induction h with
  | nil hnewer =>
    have hnone : Stacked level pending [] [] := .nil .nil
    have hone : Stacked level pending [[]] _ := .cons (by simpa using hnewer) hnone
    simpa using hone
  | @cons saved unended newer older hnewer holder ih =>
    have hlevel : level + 1 + unended.length + 1 = level + (unended ++ [[]]).length + 1 := by
      rw [List.length_append, List.length_singleton]
      omega
    rw [hlevel] at hnewer ⊢
    rw [List.append_assoc]
    exact .cons hnewer ih

/-- Releasing the savepoint of the last block leaves those of the others. -/
theorem release (h : Stacked level pending (saved :: unended) newer) (later : Later)
    (old : Entries (List Sent)) (w : Ledger) (hw : w.savepoints = newer ++ old) :
    ∃ remaining, Stacked level pending unended remaining ∧
      w.release later (ConnectionId.savepoint (level + unended.length + 1)) =
        { w with savepoints := remaining ++ old } := by
  cases h with
  | @cons _ _ newer older hnewer holder =>
    rw [List.append_assoc, List.cons_append] at hw
    obtain ⟨remaining, hsubset, hrelease⟩ :=
      Ledger.release_append hnewer.ne later _ (older ++ old) w hw
    refine ⟨remaining ++ older, holder.prepend (hnewer.of_subset hsubset), ?_⟩
    rw [hrelease, List.append_assoc]

/-- Going back to the savepoint of the last block takes the effects back to what was kept before
it. The savepoint stays behind. -/
theorem restore (h : Stacked level pending (saved :: unended) newer) (later : Later)
    (old : Entries (List Sent)) (w : Ledger) (hw : w.savepoints = newer ++ old) :
    ∃ remaining, Stacked level pending unended remaining ∧
      w.restore later (ConnectionId.savepoint (level + unended.length + 1)) =
        { w with pending := pending ++ saved, savepoints := remaining ++ old } := by
  cases h with
  | @cons _ _ newer older hnewer holder =>
    rw [List.append_assoc, List.cons_append] at hw
    obtain ⟨remaining, hsubset, hrestore⟩ :=
      Ledger.restore_append hnewer.ne later _ (older ++ old) w hw
    refine ⟨remaining ++ [(ConnectionId.savepoint (level + unended.length + 1), pending ++ saved)] ++
      older, holder.prepend ((hnewer.of_subset hsubset).append (.next _ _)), ?_⟩
    rw [hrestore, List.append_assoc, List.append_assoc, List.singleton_append]

end Stacked

/-- The events, answered from `replies` on until `left` is left, append the effects `kept` to what
is pending on a connection. They leave its savepoints as they were, below those of the blocks that
were begun and not ended. -/
def Carried (x : Connection) (added : List Event) (kept : List Sent) (unended : List (List Sent))
    (replies left : List Reply) : Prop :=
  ∀ later (w : Ledger), w.replies = replies → ∃ newer, Stacked x.level w.pending unended newer ∧
    w.read later x.raw added =
      { w with
        pending := w.pending ++ kept
        savepoints := newer ++ w.savepoints
        replies := left }

namespace Carried

variable {x : Connection} {replies between left : List Reply} {unended unended' : List (List Sent)}

theorem nil : Carried x [] [] [] replies replies := by
  rintro later w rfl
  refine ⟨[], .nil .nil, ?_⟩
  rw [Ledger.read, List.foldl_nil, List.append_nil, List.nil_append]

theorem append {first rest : List Event} {kept kept' : List Sent}
    (hfirst : Carried x first kept unended replies between)
    (hrest : Carried { x with level := x.level + unended.length } rest kept' unended' between left) :
    Carried x (first ++ rest) (kept ++ kept') (unended'.map (kept ++ ·) ++ unended) replies
      left := by
  intro later w hw
  obtain ⟨newer, hnewer, hread⟩ := hfirst later w hw
  obtain ⟨newest, hnewest, hread'⟩ := hrest later (w.read later x.raw first) (by rw [hread])
  rw [hread] at hnewest
  refine ⟨newest ++ newer, hnewest.append hnewer, ?_⟩
  rw [Ledger.read_append, hread', hread]
  simp only [List.append_assoc]

/-- A statement that is about no savepoint. -/
theorem statement {text : Value} (hordinary : SavepointCommand.ofStatement? text = none)
    (values : List Value) (replies : List Reply) :
    Carried x [.executed x.raw text values] ((replies.headD .nothing).effects text values) []
      replies replies.tail := by
  rintro later w rfl
  exact ⟨[], .nil .nil, Ledger.step_ordinary hordinary later x.raw values w⟩

variable {added : List Event} {kept saved : List Sent} {r : Result}

/-- The inside of a block, behind its beginning. -/
theorem inside (hset : (replies.headD .nothing).result = .ok r)
    (hbody : Carried { x with level := x.level + 1 } added kept unended replies.tail left) :
    Carried x
      (.executed x.raw
        (.text (SavepointCommand.set (ConnectionId.savepoint (x.level + 1))).text) [] :: added)
      kept (unended ++ [[]]) replies left := by
  intro later w hw
  have hstep := Ledger.step_command (w := w) (by rw [hw]; exact hset) later x.raw
    (.set (ConnectionId.savepoint (x.level + 1)))
  obtain ⟨newer, hnewer, hread⟩ := hbody later
    ({ w with replies := w.replies.tail }.command later
      (.set (ConnectionId.savepoint (x.level + 1)))) (by rw [← hw]; rfl)
  refine ⟨newer ++ [(ConnectionId.savepoint (x.level + 1), w.pending)], hnewer.inside, ?_⟩
  rw [Ledger.read, List.foldl_cons, hstep, List.append_assoc]
  exact hread

/-- A command about the savepoint of the last block that was begun. -/
theorem command (h : Carried x added kept (saved :: unended) replies left)
    (hend : (left.headD .nothing).result = .ok r) {command : SavepointCommand} {kept' : List Sent}
    (hcommand : ∀ later (w : Ledger) newer pending old,
      Stacked x.level pending (saved :: unended) newer → w.savepoints = newer ++ old →
      w.pending = pending ++ kept → ∃ remaining, Stacked x.level pending unended remaining ∧
        w.command later command =
          { w with pending := pending ++ kept', savepoints := remaining ++ old }) :
    Carried x (added ++ [.executed x.raw (.text command.text) []]) kept' unended replies
      left.tail := by
  intro later w hw
  obtain ⟨newer, hnewer, hread⟩ := h later w hw
  obtain ⟨remaining, hremaining, hended⟩ := hcommand later
    { w with
      pending := w.pending ++ kept
      savepoints := newer ++ w.savepoints
      replies := left.tail } newer w.pending w.savepoints hnewer rfl rfl
  refine ⟨remaining, hremaining, ?_⟩
  rw [Ledger.read_append, hread]
  exact (Ledger.step_command (by exact hend) later x.raw command).trans hended

/-- A block that is released keeps the effects inside it. -/
theorem released (h : Carried x added kept (saved :: unended) replies left)
    (hend : (left.headD .nothing).result = .ok r) :
    Carried x (added ++ [.executed x.raw (.text (SavepointCommand.release
      (ConnectionId.savepoint (x.level + unended.length + 1))).text) []]) kept unended replies
      left.tail := by
  refine h.command hend fun later w newer pending old hnewer hsavepoints hpending => ?_
  obtain ⟨remaining, hremaining, hrelease⟩ := hnewer.release later old w hsavepoints
  exact ⟨remaining, hremaining, by rw [Ledger.command, hrelease, hpending]⟩

/-- A block that is rolled back keeps what was kept before it. -/
theorem restored (h : Carried x added kept (saved :: unended) replies left)
    (hend : (left.headD .nothing).result = .ok r) :
    Carried x (added ++ [.executed x.raw (.text (SavepointCommand.restore
      (ConnectionId.savepoint (x.level + unended.length + 1))).text) []]) saved unended replies
      left.tail :=
  h.command hend fun later w _ _ old hnewer hsavepoints _ =>
    hnewer.restore later old w hsavepoints

end Carried

/-! ## Running a body -/

namespace Meaning

variable {α β : Type}

/-- What a body comes to has been carried out on a connection, which has the level of the blocks that
were not ended. -/
def Stands (m : Meaning α) (c : ConnectionId) (x : Connection) (events : List Event)
    (replies : List Reply) (s : Session) : Prop :=
  ∃ added, Carried x added m.kept m.unended replies m.replies ∧
    View c { x with level := x.level + m.unended.length } (events ++ added) m.replies s

/-- What holds when a body that was run on a connection comes to its meaning. -/
def RunOn (m : Meaning α) (c : ConnectionId) (x : Connection) (events : List Event)
    (replies : List Reply) (r : Except Failure α) (s : Session) : Prop :=
  r = m.result ∧ m.Stands c x events replies s

variable {c : ConnectionId} {x : Connection} {events added : List Event} {kept : List Sent}
  {unended : List (List Sent)} {replies rest : List Reply} {r : Except Failure α} {s : Session}

/-- What was carried before a body is carried with it. -/
theorem RunOn.after {m : Meaning α} (hcarried : Carried x added kept unended replies rest)
    (h : m.RunOn c { x with level := x.level + unended.length } (events ++ added) rest r s)
    {controls : List Reply} :
    (Meaning.mk m.result (kept ++ m.kept) (m.unended.map (kept ++ ·) ++ unended) controls
      m.replies).RunOn c x events replies r s := by
  obtain ⟨hr, later, hlater, hs⟩ := h
  refine ⟨hr, added ++ later, hcarried.append hlater, ?_⟩
  rw [List.length_append, List.length_map, Nat.add_comm m.unended.length, ← Nat.add_assoc,
    ← List.append_assoc]
  exact hs

theorem ControlsSucceed.left {m : Meaning α} {next : List Reply → Meaning β}
    (h : (m.before next).ControlsSucceed) : m.ControlsSucceed :=
  fun reply hreply => h reply (List.mem_append_left _ hreply)

theorem ControlsSucceed.right {m : Meaning α} {next : List Reply → Meaning β}
    (h : (m.before next).ControlsSucceed) : (next m.replies).ControlsSucceed :=
  fun reply hreply => h reply (List.mem_append_right _ hreply)

/-- A block is ended by an answer that is no failure. -/
theorem ControlsSucceed.of_ended {m : Meaning α} (h : (m.ended kept).ControlsSucceed) :
    ∃ r, (m.replies.headD .nothing).result = .ok r :=
  h _ (List.mem_append_right _ List.mem_cons_self)

theorem ControlsSucceed.of_left {m : Meaning α} (h : m.left.ControlsSucceed) :
    m.ControlsSucceed := by
  unfold Meaning.left at h
  split at h
  · exact fun reply hreply => h reply (List.mem_append_left _ hreply)
  · split at h
    · exact fun reply hreply => h reply (List.mem_append_left _ hreply)
    · exact h

theorem ControlsSucceed.of_outermost {m : Meaning α} (h : m.outermost.ControlsSucceed) :
    m.ControlsSucceed := by
  unfold Meaning.outermost at h
  split at h
  · exact h
  · exact h.of_left

/-- The last block that was begun is ended by a command about its savepoint, after which the effects
`kept` are kept. -/
theorem leads_ended {m : Meaning α} {t : Transaction} {saved : List Sent}
    (hreleased : x.released = false) (hlevel : 1 < x.level + m.unended.length)
    (hstack : m.unended = saved :: unended) {failure : Option Failure}
    (hended : ∀ f, failure = some f → f.isError = true) {r : Result}
    (hend : (m.replies.headD .nothing).result = .ok r)
    (hcarries : ∀ {added}, Carried x added m.kept (saved :: unended) replies m.replies →
      Carried x (added ++ [.executed x.raw (.text
        ((if failure.isSome then SavepointCommand.restore else SavepointCommand.release)
          (ConnectionId.savepoint (x.level + unended.length + 1))).text) []]) kept unended replies
        m.replies.tail) :
    Leads (m.Stands t.connection x events replies) (t.settle failure).run fun r s =>
      r = .ok () ∧ (m.ended kept).Stands t.connection x events replies s := by
  have hlength : x.level + m.unended.length = x.level + unended.length + 1 := by
    rw [hstack, List.length_cons, Nat.add_assoc]
  rintro s ⟨added, hcarried, hs⟩
  obtain ⟨hr, hs'⟩ := Transaction.leads_settle_nested (by exact hreleased) hlevel hended hend s hs
  rw [hstack] at hcarried
  simp only [hlength, List.append_assoc, Nat.add_sub_cancel] at hs'
  have hended := hcarries hcarried
  rw [Stands, ended, hstack]
  exact ⟨hr, _, hended, hs'⟩

/-- The last block that was begun is left as the result of its body says, and stays open if it is
broken off. -/
theorem leads_settle {m : Meaning α} {t : Transaction} (hreleased : x.released = false)
    (hlevel : 1 < x.level + m.unended.length) (hunended : m.unended ≠ [])
    (hcontrols : m.left.ControlsSucceed) :
    Leads (m.Stands t.connection x events replies)
      (t.settle (Transaction.failure? m.result)).run fun r s =>
        r = .ok () ∧ m.left.Stands t.connection x events replies s := by
  obtain ⟨saved, unended, hstack⟩ := List.exists_cons_of_ne_nil hunended
  unfold Meaning.left at hcontrols ⊢
  cases hresult : m.result with
  | ok a =>
    simp only [hresult] at hcontrols ⊢
    obtain ⟨_, hend⟩ := hcontrols.of_ended
    exact leads_ended hreleased hlevel hstack (fun _ hf => nomatch hf) hend
      fun hcarried => hcarried.released hend
  | error f =>
    simp only [hresult] at hcontrols ⊢
    cases hf : f.isError with
    | true =>
      simp only [hf, if_true] at hcontrols ⊢
      obtain ⟨_, hend⟩ := hcontrols.of_ended
      rw [hstack]
      exact leads_ended hreleased hlevel hstack (fun _ h => Option.some.inj h ▸ hf) hend
        fun hcarried => hcarried.restored hend
    | false =>
      simp only [Bool.false_eq_true, if_false]
      exact Transaction.leads_settle_broken hf

end Meaning

namespace Script

variable {α β : Type} {c : ConnectionId}

/-- From a connection in a transaction a body comes to its meaning, if no statement about a savepoint
fails on the way. -/
def RunsOn (c : ConnectionId) (script : Script α) : Prop :=
  ∀ (x : Connection) events replies, x.released = false → 0 < x.level →
    (script.meaning replies).ControlsSucceed →
    Leads (View c x events replies) (script.run c).run
      ((script.meaning replies).RunOn c x events replies)

theorem runsOn_done (a : α) : (Script.done a).RunsOn c :=
  fun _ _ _ _ _ _ => .run_pure fun _ hs => ⟨rfl, [], .nil, by rwa [List.append_nil]⟩

theorem runsOn_raise (f : Failure) : (Script.raise f : Script α).RunsOn c :=
  fun _ _ _ _ _ _ => .run_throw fun _ hs => ⟨rfl, [], .nil, by rwa [List.append_nil]⟩

theorem runsOn_statement {text : Value} (values : List Value)
    (hordinary : SavepointCommand.ofStatement? text = none) :
    (Script.statement text values hordinary).RunsOn c := by
  intro x events replies hreleased hlevel _
  refine View.run_inTransaction_bind ?_
  rw [decide_eq_true hlevel]
  intro s hs
  obtain ⟨hr, hs'⟩ := ConnectionId.view_execute hreleased text values s hs
  exact ⟨hr, _, .statement hordinary values replies, hs'⟩

theorem runsOn_andThen {first : Script α} {next : α → Script β} (hfirst : first.RunsOn c)
    (hnext : ∀ a, (next a).RunsOn c) : (first.andThen next).RunsOn c := by
  intro x events replies hreleased hlevel hcontrols s hs
  rw [meaning] at hcontrols ⊢
  rw [Script.run, run_bind]
  cases hresult : (first.meaning replies).result with
  | ok a =>
    simp only [hresult] at hcontrols ⊢
    obtain ⟨hr, added, hcarried, hs'⟩ :=
      hfirst x events replies hreleased hlevel hcontrols.left s hs
    have hrun : (first.run c).run.run s = (.ok a, ((first.run c).run.run s).2) :=
      Prod.ext (hr.trans hresult) rfl
    rw [hrun]
    exact .after hcarried (hnext a { x with level := x.level + (first.meaning replies).unended.length }
      _ _ hreleased (Nat.add_pos_left hlevel _) hcontrols.right _ hs')
  | error f =>
    simp only [hresult] at hcontrols ⊢
    obtain ⟨hr, hadded⟩ := hfirst x events replies hreleased hlevel hcontrols s hs
    have hrun : (first.run c).run.run s = (.error f, ((first.run c).run.run s).2) :=
      Prod.ext (hr.trans hresult) rfl
    rw [hrun]
    exact ⟨rfl, hadded⟩

theorem runsOn_rescue {body : Script α} {handler : Failure → Script α} (hbody : body.RunsOn c)
    (hhandler : ∀ f, (handler f).RunsOn c) : (body.rescue handler).RunsOn c := by
  intro x events replies hreleased hlevel hcontrols s hs
  rw [meaning] at hcontrols ⊢
  rw [Script.run, run_tryCatch]
  cases hresult : (body.meaning replies).result with
  | ok a =>
    simp only [hresult] at hcontrols ⊢
    obtain ⟨hr, hadded⟩ := hbody x events replies hreleased hlevel hcontrols s hs
    have hfirst : (body.run c).run.run s = (.ok a, ((body.run c).run.run s).2) :=
      Prod.ext (hr.trans hresult) rfl
    rw [hfirst]
    exact ⟨rfl, hadded⟩
  | error f =>
    simp only [hresult] at hcontrols ⊢
    obtain ⟨hr, added, hcarried, hs'⟩ :=
      hbody x events replies hreleased hlevel hcontrols.left s hs
    have hfirst : (body.run c).run.run s = (.error f, ((body.run c).run.run s).2) :=
      Prod.ext (hr.trans hresult) rfl
    rw [hfirst]
    exact .after hcarried (hhandler f { x with level := x.level + (body.meaning replies).unended.length }
      _ _ hreleased (Nat.add_pos_left hlevel _) hcontrols.right _ hs')

/-- A block on the same connection: between its two ends the body runs one level deeper. -/
theorem runsOn_block (database : Value) {body : Script α} (hbody : body.RunsOn c) :
    (Script.block database body).RunsOn c := by
  intro x events replies hreleased hlevel hcontrols
  rw [meaning] at hcontrols ⊢
  generalize hset : replies.headD .nothing = set at hcontrols ⊢
  have hinside := hcontrols.of_left
  obtain ⟨_, hanswer⟩ : ∃ r, set.result = .ok r := hinside set List.mem_cons_self
  rw [← hset] at hanswer
  have hlength : x.level + ((body.meaning replies.tail).inside set).unended.length =
      x.level + 1 + (body.meaning replies.tail).unended.length := by
    rw [Meaning.inside, List.length_append, List.length_singleton]
    omega
  have hrun : Leads (View c x events replies) ((Script.block database body).run c).run fun r s =>
      r = (body.meaning replies.tail).result ∧
        ((body.meaning replies.tail).inside set).left.Stands c x events replies s := by
    refine Transaction.leads_transaction (t := ⟨c, false⟩)
      (Transaction.leads_begin (ConnectionId.view_begin_nested hreleased hlevel hanswer))
      (N := ((body.meaning replies.tail).inside set).Stands c x events replies) ?_ ?_
    · intro s hs
      obtain ⟨hr, added, hcarried, hs'⟩ := hbody { x with level := x.level + 1 } _ replies.tail
        hreleased (Nat.succ_pos _) (fun reply h => hinside reply (List.mem_cons_of_mem _ h)) s hs
      refine ⟨hr, _, hcarried.inside hanswer, ?_⟩
      rw [hlength]
      rwa [List.append_assoc] at hs'
    · refine Transaction.leads_leave
        (Meaning.leads_settle (t := ⟨c, false⟩) (m := (body.meaning replies.tail).inside set)
          hreleased ?_ (by simp [Meaning.inside]) hcontrols)
        (.run_pure fun _ hs => ⟨rfl, hs⟩)
      rw [hlength]
      omega
  intro s hs
  obtain ⟨hr, hstands⟩ := hrun s hs
  exact ⟨hr.trans ((body.meaning replies.tail).inside set).left_result.symm, hstands⟩

/-- Every body comes to its meaning. -/
theorem runsOn (c : ConnectionId) (script : Script α) : script.RunsOn c := by
  induction script with
  | done a => exact runsOn_done a
  | raise f => exact runsOn_raise f
  | statement text values ordinary => exact runsOn_statement values ordinary
  | andThen first next hfirst hnext => exact runsOn_andThen hfirst hnext
  | rescue body handler hbody hhandler => exact runsOn_rescue hbody hhandler
  | block database body hbody => exact runsOn_block database hbody

end Script

/-! ## The outermost block -/

namespace Meaning

variable {α : Type}

/-- The outermost block ends by a commit of the driver: its body succeeds, and every block inside was
ended. -/
def Commits (m : Meaning α) : Prop :=
  m.result.isOk = true ∧ m.unended = []

instance (m : Meaning α) : Decidable m.Commits :=
  inferInstanceAs (Decidable (_ ∧ _))

theorem commits_of_ok {m : Meaning α} {a : α} (h : m.result = .ok a) (hunended : m.unended = []) :
    m.Commits :=
  ⟨by rw [h]; rfl, hunended⟩

theorem not_commits_of_error {m : Meaning α} {f : Failure} (h : m.result = .error f) :
    ¬ m.Commits := by
  rintro ⟨hok, -⟩
  rw [h] at hok
  cases hok

/-- What is committed of the effects that were pending before a body and of its own when the
outermost block exits. -/
def commits (m : Meaning α) (pending : List Sent) : List Sent :=
  if m.Commits then pending ++ m.kept else []

/-- The end of the outermost block commits what is kept then. -/
theorem commits_outermost (m : Meaning α) (pending : List Sent) :
    (if m.Commits then pending ++ m.outermost.kept else []) = m.commits pending := by
  unfold commits outermost
  split
  · rename_i hcommits
    rw [if_pos hcommits.2]
  · rfl

/-- Every block that was begun was ended, and what fails is an error. -/
def Whole (m : Meaning α) : Prop :=
  m.unended = [] ∧ ∀ f, m.result = .error f → f.isError = true

namespace Whole

variable {β : Type} {m : Meaning α}

theorem before (hm : m.Whole) {next : List Reply → Meaning β} (hnext : (next m.replies).Whole) :
    (m.before next).Whole := by
  refine ⟨?_, hnext.2⟩
  rw [Meaning.before, hnext.1, hm.1]
  rfl

/-- A block that is not broken off keeps what its body keeps, or nothing. -/
theorem left_inside (hm : m.Whole) (set : Reply) :
    (m.inside set).left =
      ⟨m.result, if m.result.isOk then m.kept else [], [],
        set :: m.controls ++ [m.replies.headD .nothing], m.replies.tail⟩ := by
  obtain ⟨hunended, herror⟩ := hm
  unfold left inside ended
  cases hresult : m.result with
  | ok a =>
    rw [hunended]
    rfl
  | error f =>
    rw [hunended]
    simp only [herror f hresult, if_true]
    rfl

theorem commits (hm : m.Whole) (pending : List Sent) :
    m.commits pending =
      match m.result with
      | .ok _ => pending ++ m.kept
      | .error _ => [] := by
  unfold Meaning.commits
  cases hresult : m.result with
  | ok a => exact if_pos (commits_of_ok hresult hm.1)
  | error f => exact if_neg (not_commits_of_error hresult)

end Whole

end Meaning

/-- A body that is never broken off ends every block that it begins. -/
theorem Script.Uninterrupted.meaning {α : Type} {script : Script α} (h : script.Uninterrupted)
    (replies : List Reply) : (script.meaning replies).Whole := by
  induction script generalizing replies with
  | done a => exact ⟨rfl, fun _ hf => nomatch hf⟩
  | raise f => exact ⟨rfl, fun _ hf => Except.error.inj hf ▸ h⟩
  | statement text values ordinary =>
    refine ⟨rfl, fun f hf => ?_⟩
    have hreply : (replies.headD .nothing).result = .error f := hf
    cases hanswer : replies.headD .nothing with
    | refused reason =>
      rw [hanswer] at hreply
      cases hreply
      rfl
    | done columns rows rowCount lastInsertId =>
      rw [hanswer] at hreply
      exact Result.isError_of_ofReport hreply
  | andThen first next hfirst hnext =>
    have hm := hfirst h.1 replies
    rw [Script.meaning]
    cases hresult : (first.meaning replies).result with
    | ok a => exact hm.before (hnext a (h.2 a) _)
    | error f => exact ⟨hm.1, fun f' hf' => hm.2 f' (hresult.trans (Except.error.inj hf' ▸ rfl))⟩
  | rescue body handler hbody hhandler =>
    have hm := hbody h.1 replies
    rw [Script.meaning]
    cases hresult : (body.meaning replies).result with
    | ok a => exact ⟨hm.1, fun _ hf => nomatch hf⟩
    | error f => exact hm.before (hhandler f (h.2 f (hm.2 f hresult)) _)
  | block database body hbody =>
    have hm := hbody h replies.tail
    rw [Script.meaning, hm.left_inside]
    exact ⟨rfl, hm.2⟩

/-- A new connection of a database is outside any transaction. -/
theorem DatabaseId.fresh_of_connect {d : DatabaseId} {s s' : Session} {c : ConnectionId}
    (h : d.connect.run.run s = (.ok c, s')) :
    (s'.connection c).level = 0 ∧ (s'.connection c).released = false := by
  rw [connect] at h
  obtain ⟨database, _, -, h⟩ := ok_of_run_bind h
  split at h
  · cases h
  · obtain ⟨raw, t, -, hadded⟩ := ok_of_run_bind h
    cases hadded
    have hfound : (t.connections ++ [(⟨raw, some d, 0, false⟩ : Connection)]).getD
        t.connections.length noConnection = ⟨raw, some d, 0, false⟩ := by
      rw [List.getD_eq_getElem?_getD, List.getElem?_concat_length, Option.getD_some]
    rw [connection, hfound]
    exact ⟨rfl, rfl⟩

/-- A transaction that a database or a name stands for begins on a new connection. -/
theorem fresh_of_connect {database : Value} {s s' : Session} {c : ConnectionId}
    (h : (databaseOf database >>= DatabaseId.connect).run.run s = (.ok c, s')) :
    (s'.connection c).level = 0 ∧ (s'.connection c).released = false := by
  obtain ⟨d, t, -, hconnect⟩ := ok_of_run_bind h
  exact d.fresh_of_connect hconnect

namespace Transaction

variable {α : Type} {c : ConnectionId} {x : Connection} {events : List Event}
  {replies : List Reply} {failure : Option Failure}

/-- A block on a connection of its own gives it back. -/
theorem leads_cleanup (hreleased : x.released = false) :
    Leads (View c x events replies) (cleanup ⟨c, true⟩).run fun r s => r = .ok () ∧
      ∃ closing, (closing = [] ∨ closing = [.closed x.raw]) ∧
        View c { x with level := 0, released := true }
          (events ++ (ConnectionId.undoing x ++ closing)) replies s :=
  .run_lift fun s hs => ⟨rfl, ConnectionId.view_release hreleased s hs⟩

/-- The outermost block ends by a commit or a rollback, and gives its connection back. -/
theorem leads_leave_ended {m : Meaning α} (hreleased : x.released = false) (hlevel : x.level = 1)
    (hunended : m.unended = []) (hended : ∀ f, failure = some f → f.isError = true) :
    Leads (m.Stands c x events replies) ((⟨c, true⟩ : Transaction).leave failure).run fun r s =>
      r = .ok () ∧ ∃ added closing, Carried x added m.kept m.unended replies m.replies ∧
        (closing = [] ∨ closing = [.closed x.raw]) ∧
        View c { x with level := 0, released := true }
          (events ++
            (added ++ (if failure.isSome then .rolledBack x.raw else .committed x.raw) :: closing))
          m.replies s := by
  rintro s ⟨added, hcarried, hs⟩
  rw [hunended] at hs
  have hsettle : Leads (View c x (events ++ added) m.replies) (settle ⟨c, true⟩ failure).run
      fun r s => r = .ok () ∧ View c { x with level := 0 }
        (events ++ added ++
          [if failure.isSome then .rolledBack x.raw else .committed x.raw]) m.replies s := by
    unfold settle
    cases failure with
    | none => exact ConnectionId.view_finish_outer hreleased hlevel "COMMIT" "RELEASE" .committed
    | some f =>
      simp only [hended f rfl, if_true]
      exact ConnectionId.view_finish_outer hreleased hlevel "ROLLBACK" "ROLLBACK TO" .rolledBack
  obtain ⟨hr, closing, hclosing, hs'⟩ :=
    leads_leave hsettle (leads_cleanup (by exact hreleased)) s hs
  simp only [List.append_assoc] at hs'
  exact ⟨hr, added, closing, hcarried, hclosing, hs'⟩

/-- A block whose transaction is still open when its connection is given back is rolled back. -/
theorem leads_leave_open {m : Meaning α} {P : Session → Prop} (hreleased : x.released = false)
    (hlevel : 0 < x.level)
    (hsettle : Leads P (settle ⟨c, true⟩ failure).run fun r s =>
      r = .ok () ∧ m.Stands c x events replies s) :
    Leads P ((⟨c, true⟩ : Transaction).leave failure).run fun r s => r = .ok () ∧
      ∃ added closing, Carried x added m.kept m.unended replies m.replies ∧
        (closing = [] ∨ closing = [.closed x.raw]) ∧
        View c { x with level := 0, released := true }
          (events ++ (added ++ .rolledBack x.raw :: closing)) m.replies s := by
  refine leads_leave hsettle ?_
  rintro s ⟨added, hcarried, hs⟩
  have hopen : 0 < x.level + m.unended.length := Nat.add_pos_left hlevel _
  obtain ⟨hr, closing, hclosing, hs'⟩ := leads_cleanup (by exact hreleased) s hs
  rw [ConnectionId.undoing, if_pos hopen, List.append_assoc] at hs'
  exact ⟨hr, added, closing, hcarried, hclosing, hs'⟩

/-- The outermost block leaves by a commit or a rollback, and gives the connection back. -/
theorem leads_leave_outer {m : Meaning α} (hreleased : x.released = false) (hlevel : x.level = 1)
    (hcontrols : m.outermost.ControlsSucceed) :
    Leads (m.Stands c x events replies)
      ((⟨c, true⟩ : Transaction).leave (failure? m.result)).run fun r s => r = .ok () ∧
        ∃ added closing,
          Carried x added m.outermost.kept m.outermost.unended replies m.outermost.replies ∧
          (closing = [] ∨ closing = [.closed x.raw]) ∧
          View c { x with level := 0, released := true }
            (events ++
              (added ++ (if m.Commits then .committed x.raw else .rolledBack x.raw) :: closing))
            m.outermost.replies s := by
  have hpositive : 0 < x.level := by omega
  by_cases hunended : m.unended = []
  · rw [Meaning.outermost, if_pos hunended]
    cases hresult : m.result with
    | ok a =>
      simp only [if_pos (Meaning.commits_of_ok hresult hunended)]
      exact leads_leave_ended hreleased hlevel hunended fun _ h => nomatch h
    | error f =>
      simp only [if_neg (Meaning.not_commits_of_error hresult)]
      cases hf : f.isError with
      | true =>
        exact leads_leave_ended hreleased hlevel hunended fun _ h => Option.some.inj h ▸ hf
      | false => exact leads_leave_open hreleased hpositive (leads_settle_broken hf)
  · have hnot : ¬ m.Commits := fun h => hunended h.2
    rw [Meaning.outermost, if_neg hunended] at hcontrols ⊢
    simp only [if_neg hnot]
    have hdeeper : 1 < x.level + m.unended.length := by
      have hsome := List.length_pos_of_ne_nil hunended
      omega
    exact leads_leave_open hreleased hpositive
      (Meaning.leads_settle (t := ⟨c, true⟩) hreleased hdeeper hunended hcontrols)

end Transaction

/-- A block on a new connection of a database is entered by beginning its transaction. -/
theorem Transaction.leads_enter_pool {database : SessionM DatabaseId} {s s₁ : Session}
    {c : ConnectionId} {Q : Session → Prop}
    (hconnect : (database >>= DatabaseId.connect).run.run s = (.ok c, s₁))
    (hbegin : Leads (· = s₁) c.begin.run fun r s => r = .ok () ∧ Q s) :
    Leads (· = s) (Transaction.enter database .pool).run fun r s => r = .ok ⟨c, true⟩ ∧ Q s := by
  rintro _ rfl
  rw [enter]
  dsimp only
  rw [← bind_assoc, run_bind, hconnect]
  exact leads_begin (t := ⟨c, true⟩) hbegin s₁ rfl

/-- The end of the outermost block settles what is pending on its driver connection. -/
theorem Ledger.read_ending (later : Later) (raw : RawId) (w : Ledger) (commits : Prop)
    [Decidable commits] {closing : List Event} (hclosing : closing = [] ∨ closing = [.closed raw]) :
    w.read later raw ((if commits then .committed raw else .rolledBack raw) :: closing) =
      w.settle (w.committed ++ if commits then w.pending else []) := by
  rcases hclosing with rfl | rfl
  · split <;> simp [read, step]
  · split <;> simp [read, step, settle]

namespace Script

variable {α : Type}

/-- The outermost block runs its body one level deep, ends its transaction and gives its connection
back. -/
theorem run_outermost (script : Script α) {database : Value} {s s₁ : Session} {c : ConnectionId}
    {x : Connection} (hconnect : (databaseOf database >>= DatabaseId.connect).run.run s = (.ok c, s₁))
    (hx : s₁.connection c = x) {m : Meaning α} (hm : script.meaning s₁.server.replies = m)
    (hcontrols : m.outermost.ControlsSucceed) :
    Leads (· = s) (Session.transaction (databaseOf database) .pool fun c => script.run c).run
      fun r s => r = m.result ∧ ∃ added closing,
        Carried { x with level := 1 } added m.outermost.kept m.outermost.unended s₁.server.replies
          m.outermost.replies ∧
        (closing = [] ∨ closing = [.closed x.raw]) ∧
        View c { x with level := 0, released := true }
          (s₁.server.events ++
            (added ++ (if m.Commits then .committed x.raw else .rolledBack x.raw) :: closing))
          m.outermost.replies s := by
  subst hx hm
  obtain ⟨hlevel, hreleased⟩ := fresh_of_connect hconnect
  have hbegin : Leads (· = s₁) c.begin.run fun r s =>
      r = .ok () ∧ View c { s₁.connection c with level := 1 } s₁.server.events s₁.server.replies s := by
    rintro _ rfl
    exact ConnectionId.view_begin_outer hreleased hlevel _ ⟨rfl, rfl, rfl⟩
  exact Transaction.leads_transaction (Transaction.leads_enter_pool hconnect hbegin)
    (script.runsOn c { s₁.connection c with level := 1 } _ _ hreleased Nat.one_pos
      hcontrols.of_outermost)
    (Transaction.leads_leave_outer (by exact hreleased) rfl hcontrols)

/-- A block that fails around one that succeeds, a statement that is refused, and a block that uses
the name of the first one's savepoint again. -/
def siblings : Script Unit :=
  let send := fun text (h : SavepointCommand.ofStatement? (.text text) = none) =>
    (Script.statement (.text text) [] h).andThen fun _ => .done ()
  (send "A" rfl).andThen fun _ =>
  (Script.rescue (.block .null
    ((send "B" rfl).andThen fun _ =>
      (Script.block .null (send "C" rfl)).andThen fun _ => .raise .wrongKind))
    fun _ => .done ()).andThen fun _ =>
  (Script.rescue (send "D" rfl) fun _ => .done ()).andThen fun _ =>
  .block .null (send "E" rfl)

/-- A block that is broken off inside, which is caught around it, makes the outermost block release
its savepoint where it was to commit. -/
example :
    let m := ((Script.statement (.text "A") [] rfl).andThen fun _ =>
      (Script.block .null (.raise (.interrupted "KeyboardInterrupt" "") : Script Unit)).rescue
        fun _ => .done ()).meaning [.nothing, .nothing, .nothing]
    m.result = .ok () ∧ m.unended = [[⟨.text "A", []⟩]] ∧ m.commits [] = [] :=
  ⟨by cbv, by cbv, by cbv⟩

end Script

end TableOps
