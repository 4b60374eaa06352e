import TableOps.Proofs.Session.Effect

/-!
# The effects of single steps

The basic calls are made of steps that ask the driver for one thing, or change one part of a
session. A relation that holds for every step, and not only for the steps of a call together, holds
for the basic calls.

* `ConnectionSteps`, `PoolSteps`, `SteadySteps`, `StepEffects` — a relation that can be chained and
  holds for single steps: those of the calls on one connection, of handing out a connection, of
  commands, and all.
* `Within.note`, `Within.nextReply`, `Within.openRaw` — the steps made of simpler ones.
* `ConnectionSteps.execute`, `ConnectionSteps.release`, `PoolSteps.connect`, … — then it holds for
  the calls on the connection, and for handing one out.
* `QuietEffects.ofSteps`, `SteadySteps.steadyEffects`, `StepEffects.callEffects` — and for the basic
  calls of commands.
* `StepEffects.management` — and for those of transactions and pools.
-/

namespace TableOps

open Session

variable {R : Session → Session → Prop} {allowed : Value → Prop} {α : Type}

/-- A relation that can be chained and holds for the single steps of calls on one connection, when
these steps send only allowed statements. -/
structure ConnectionSteps (R : Session → Session → Prop) (allowed : Value → Prop)
    (c : ConnectionId) : Prop extends Chained R where
  executed (raw : RawId) {statement : Value} (values : List Value) (h : allowed statement) :
    Within R (emit (.executed raw statement values))
  quiet (e : Event) (h : ∀ raw statement values, e ≠ .executed raw statement values) :
    Within R (emit e)
  nextReply : Within R nextReply
  note (level : LogLevel) (source : LogSource) (text : String) : Within R (note level source text)
  updateConnection (f : Connection → Connection) : Within R (updateConnection c f)
  idle (id : DatabaseId) (f : List RawId → List RawId) :
    Within R (updateDatabase id fun d => { d with idle := f d.idle })

/-- A relation that can be chained and holds for the single steps in which a database hands out a
connection. -/
structure PoolSteps (R : Session → Session → Prop) : Prop extends Chained R where
  openRaw (arguments : Option (Entries Value)) : Within R (Session.openRaw arguments)
  note (level : LogLevel) (source : LogSource) (text : String) : Within R (note level source text)
  addConnection (c : Connection) : Within R (addConnection c)
  idle (id : DatabaseId) (f : List RawId → List RawId) :
    Within R (updateDatabase id fun d => { d with idle := f d.idle })

/-- A relation that can be chained and holds for single steps that leave the expressions and the
remembered totals as they are, when these steps send only allowed statements. -/
structure SteadySteps (R : Session → Session → Prop) (allowed : Value → Prop) : Prop
    extends Chained R where
  executed (raw : RawId) {statement : Value} (values : List Value) (h : allowed statement) :
    Within R (emit (.executed raw statement values))
  quiet (e : Event) (h : ∀ raw statement values, e ≠ .executed raw statement values) :
    Within R (emit e)
  openRaw (arguments : Option (Entries Value)) : Within R (Session.openRaw arguments)
  nextReply : Within R nextReply
  note (level : LogLevel) (source : LogSource) (text : String) : Within R (note level source text)
  updateConnection (c : ConnectionId) (f : Connection → Connection) :
    Within R (updateConnection c f)
  addConnection (c : Connection) : Within R (addConnection c)
  idle (id : DatabaseId) (f : List RawId → List RawId) :
    Within R (updateDatabase id fun d => { d with idle := f d.idle })
  schemas (id : DatabaseId) (f : Entries TableSchema → Entries TableSchema) :
    Within R (updateDatabase id fun d => { d with schemas := f d.schemas })
  addCache : Within R addCache

/-- A relation that holds for all single steps. -/
structure StepEffects (R : Session → Session → Prop) (allowed : Value → Prop) : Prop
    extends SteadySteps R allowed where
  updateCache (id : CacheId) (f : CountCache Int → CountCache Int) : Within R (updateCache id f)
  addShared (d : Draft) (cache : CacheId) : Within R (addShared d cache)
  updateShared (id : ExpressionId) (d : Draft) : Within R (updateShared id d)

/-! ## Steps that change one part of a session -/

namespace Within

/-- A note changes the log, or nothing. -/
theorem note (h : Chained R) (hlog : ∀ s log, R s { s with log := log }) (level : LogLevel)
    (source : LogSource) (text : String) : Within R (note level source text) := by
  intro s
  show R s (if _ then { s with log := s.log ++ [_] } else s)
  split
  · exact hlog s _
  · exact h.refl s

/-- An answer is taken from those to come. -/
theorem nextReply (h : Chained R)
    (hreplies : ∀ s replies, R s { s with server := { s.server with replies := replies } }) :
    Within R nextReply := by
  unfold Session.nextReply
  refine .bind h (.get h) fun s => ?_
  split
  · exact .pure h _
  · exact .bind h (fun s => hreplies s _) fun _ => .pure h _

/-- A driver connection that is opened is counted and recorded. -/
theorem openRaw (h : Chained R)
    (hopened : ∀ s opened, R s { s with server := { s.server with opened := opened } })
    {arguments : Option (Entries Value)} (hemit : ∀ raw, Within R (emit (.opened raw arguments))) :
    Within R (Session.openRaw arguments) := by
  unfold Session.openRaw
  refine .bind h (.get h) fun s => ?_
  refine .bind h (fun s => hopened s _) fun _ => ?_
  exact .bind h (hemit _) fun _ => .pure h _

end Within

namespace ConnectionSteps

/-! ## Calls on one connection -/

variable {c : ConnectionId}

theorem read (H : ConnectionSteps R allowed c) : Within R c.read :=
  fun s => H.refl s

theorem inTransaction (H : ConnectionSteps R allowed c) : Within R c.inTransaction :=
  fun s => H.refl s

theorem execute (H : ConnectionSteps R allowed c) {statement : Value}
    (values : List Value) (h : allowed statement) :
    Within R (c.execute statement values).run := by
  have hC := H.toChained
  unfold ConnectionId.execute
  refine .run_bind hC (.run_liftM H.read) fun connection => ?_
  dsimp only
  split
  · exact .run_throw_bind hC _ _
  · refine .run_bind hC (.run_liftM (H.note _ _ _)) fun _ => ?_
    refine .run_bind hC (.run_liftM (H.executed _ values h)) fun _ => ?_
    refine .run_bind hC (.run_liftM H.nextReply) fun reply => ?_
    cases reply with
    | refused reason => exact .run_throw hC _
    | done columns rows rowCount lastInsertId => exact .run_ofExcept hC _

theorem rollbackHeld (H : ConnectionSteps R allowed c) :
    Within R c.rollbackHeld := by
  have hC := H.toChained
  unfold ConnectionId.rollbackHeld
  refine .bind hC H.read fun connection => ?_
  split
  · exact H.quiet _ fun _ _ _ he => by cases he
  · exact .pure hC _

theorem queryRaw (H : ConnectionSteps R allowed c) {statement : Value}
    (values : List Value) (h : allowed statement) :
    Within R (c.queryRaw statement values).run := by
  have hC := H.toChained
  rw [ConnectionId.queryRaw_eq_onFailure]
  -- outside a transaction the statement is committed, or rolled back when it fails
  refine .run_bind hC (.run_liftM H.inTransaction) fun within => ?_
  split
  · exact H.execute values h
  · refine .run_bind hC (.run_onFailure hC (H.execute values h) H.rollbackHeld) fun r => ?_
    refine .run_bind hC (.run_liftM H.read) fun connection => ?_
    refine .run_bind hC (.run_liftM (H.quiet _ fun _ _ _ he => by cases he)) fun _ => ?_
    exact .run_pure hC _

theorem refuse (H : ConnectionSteps R allowed c) (f : Failure) :
    Within R (c.refuse f).run := by
  have hC := H.toChained
  unfold ConnectionId.refuse
  refine .run_bind hC (.run_liftM H.read) fun connection => ?_
  dsimp only
  split
  · exact .run_throw_bind hC _ _
  · refine .run_bind hC (.run_liftM H.inTransaction) fun within => ?_
    split
    · exact .run_bind hC (.run_liftM H.rollbackHeld) fun _ => .run_throw hC _
    · exact .run_throw hC _

theorem abandon (H : ConnectionSteps R allowed c) : Within R c.abandon := by
  have hC := H.toChained
  unfold ConnectionId.abandon
  refine .bind hC H.inTransaction fun within => ?_
  split
  · refine .bind hC (H.note _ _ _) fun _ => ?_
    refine .bind hC H.read fun connection => ?_
    refine .bind hC (H.quiet _ fun _ _ _ he => by cases he) fun _ => ?_
    exact H.updateConnection _
  · exact .pure hC _

theorem takeBack (H : ConnectionSteps R allowed c) (id : DatabaseId) (raw : RawId) :
    Within R (id.takeBack raw) := by
  have hC := H.toChained
  unfold DatabaseId.takeBack
  refine .bind hC (.get hC) fun s => ?_
  dsimp only
  split
  · exact H.idle id (raw :: ·)
  · exact H.quiet _ fun _ _ _ he => by cases he

theorem release (H : ConnectionSteps R allowed c) : Within R c.release := by
  have hC := H.toChained
  unfold ConnectionId.release
  refine .bind hC H.read fun connection => ?_
  split
  · refine .bind hC H.abandon fun _ => ?_
    refine .bind hC (H.updateConnection _) fun _ => ?_
    refine .bind hC H.read fun connection => ?_
    cases connection.owner with
    | none => exact H.quiet _ fun _ _ _ he => by cases he
    | some d => exact H.takeBack d _
  · exact .pure hC _

theorem begin (H : ConnectionSteps R (fun _ => True) c) : Within R c.begin.run := by
  have hC := H.toChained
  unfold ConnectionId.begin
  refine .run_bind hC (.run_liftM (H.updateConnection _)) fun _ => ?_
  refine .run_bind hC (.run_liftM H.read) fun connection => ?_
  dsimp only
  split
  · exact .run_bind hC (H.execute _ trivial) fun _ => .run_liftM (H.note _ _ _)
  · exact .run_liftM (H.note _ _ _)

theorem finish (H : ConnectionSteps R (fun _ => True) c) (word verb : String)
    {event : RawId → Event} (hevent : ∀ r raw statement values,
      event r ≠ .executed raw statement values) : Within R (c.finish word verb event).run := by
  have hC := H.toChained
  unfold ConnectionId.finish ConnectionId.finishWith
  refine .run_bind hC (.run_liftM H.read) fun connection => ?_
  dsimp only
  split
  · exact .run_throw_bind hC _ _
  · have hrest : Within R (do
        Session.note .debug .connection (ConnectionId.levelText word connection.level)
        Session.updateConnection c fun x => { x with level := x.level - 1 } :
          SessionM Unit).run := by
      refine .run_bind hC (.run_liftM (H.note _ _ _)) fun _ => ?_
      exact .run_liftM (H.updateConnection _)
    -- a savepoint ends by a statement, the outermost transaction by the driver itself
    split
    · exact .run_bind hC (H.execute _ trivial) fun _ => hrest
    · exact .run_bind hC (.run_liftM (H.quiet _ (hevent _))) fun _ => hrest

theorem queryWith (H : ConnectionSteps R (fun _ => True) c) (statement values : Value) :
    Within R (c.queryWith statement values).run := by
  unfold ConnectionId.queryWith
  split
  · split
    · exact H.queryRaw _ trivial
    · exact H.refuse _
  · exact H.queryRaw _ trivial

theorem close (H : ConnectionSteps R allowed c) : Within R c.close := by
  have hC := H.toChained
  refine .bind hC (H.updateConnection _) fun _ => .bind hC H.read fun connection => ?_
  exact H.quiet _ fun _ _ _ he => by cases he

end ConnectionSteps

namespace PoolSteps

/-! ## Handing out a connection -/

theorem takeRaw (H : PoolSteps R) (id : DatabaseId) : Within R id.takeRaw.run := by
  have hC := H.toChained
  unfold DatabaseId.takeRaw
  refine .run_bind hC (.run_liftM fun s => hC.refl s) fun d => ?_
  -- an idle one, or a new one from the URL or the factory
  split
  · rename_i raw rest hidle
    exact .run_bind hC (.run_liftM (H.idle id fun _ => rest)) fun _ => .run_pure hC _
  · unfold DatabaseId.openRaw
    refine .run_bind hC (.run_liftM fun s => hC.refl s) fun d => ?_
    refine .run_bind hC (.run_liftM (H.note _ _ _)) fun _ => ?_
    split
    · exact .run_bind hC (.run_ofExcept hC _) fun l => .run_lift (H.openRaw _)
    · exact .run_lift (H.openRaw _)

theorem connect (H : PoolSteps R) (id : DatabaseId) : Within R id.connect.run := by
  have hC := H.toChained
  unfold DatabaseId.connect
  refine .run_bind hC (.run_liftM fun s => hC.refl s) fun d => ?_
  dsimp only
  split
  · exact .run_throw_bind hC _ _
  · exact .run_bind hC (H.takeRaw id) fun raw => .run_lift (H.addConnection _)

end PoolSteps

/-- What holds for the steps on every connection, and for handing connections out, holds for the basic
calls of commands that change no schema and no total. -/
theorem QuietEffects.ofSteps (hon : ∀ c, ConnectionSteps R allowed c) (hpool : PoolSteps R)
    (hcache : Within R Session.addCache) : QuietEffects R allowed where
  toChained := hpool.toChained
  note := hpool.note
  queryRaw c _ values h := (hon c).queryRaw values h
  refuse c := (hon c).refuse
  release c := (hon c).release
  connect := hpool.connect
  addCache := hcache

namespace SteadySteps

/-- The steps of calls on one connection are among all steps. -/
theorem on (H : SteadySteps R allowed) (c : ConnectionId) : ConnectionSteps R allowed c where
  toChained := H.toChained
  executed := H.executed
  quiet := H.quiet
  nextReply := H.nextReply
  note := H.note
  updateConnection := H.updateConnection c
  idle := H.idle

/-- So are those in which a database hands out a connection. -/
theorem pool (H : SteadySteps R allowed) : PoolSteps R where
  toChained := H.toChained
  openRaw := H.openRaw
  note := H.note
  addConnection := H.addConnection
  idle := H.idle

/-- What holds for single steps holds for the basic calls of commands. -/
theorem steadyEffects (H : SteadySteps R allowed) : SteadyEffects R allowed where
  toQuietEffects := .ofSteps H.on H.pool H.addCache
  schemas := H.schemas

end SteadySteps

namespace StepEffects

/-- The same with those that change expressions and remembered totals. -/
theorem callEffects (H : StepEffects R allowed) : CallEffects R allowed where
  toSteadyEffects := H.steadyEffects
  updateCache := H.updateCache
  addShared := H.addShared

/-! ## Transactions and pools -/

theorem closeDown (H : StepEffects R fun _ => True)
    (hclosed : ∀ id, Within R (updateDatabase id fun d => { d with closed := true, idle := [] }))
    (id : DatabaseId) : Within R id.closeDown := by
  have hC := H.toChained
  unfold DatabaseId.closeDown
  refine .bind hC (fun s => hC.refl s) fun d => ?_
  refine .bind hC (hclosed id) fun _ => ?_
  refine .bind hC (.forM hC (fun raw => H.quiet _ fun _ _ _ he => by cases he) d.idle) fun _ => ?_
  exact H.note _ _ _

/-- What also holds for closing a pool, and for new databases and names, holds for all basic
calls. -/
theorem management (H : StepEffects R fun _ => True)
    (hclosed : ∀ id, Within R (updateDatabase id fun d => { d with closed := true, idle := [] }))
    (hadd : ∀ d : Database, Within R (addDatabase d))
    (hregistry : ∀ f : Registry → Registry,
      Within R (modify fun s => { s with registry := f s.registry })) : Management R where
  toCallEffects := H.callEffects
  begin c := (H.on c).begin
  commit c := (H.on c).finish _ _ fun _ _ _ _ he => by cases he
  rollback c := (H.on c).finish _ _ fun _ _ _ _ he => by cases he
  closeDown := H.closeDown hclosed
  updateShared := H.updateShared
  addDatabase d _ := hadd d
  registry := hregistry

end StepEffects

end TableOps
