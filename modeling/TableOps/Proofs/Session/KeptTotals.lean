import TableOps.Proofs.Session.CommandEffect
import TableOps.Proofs.Session.StepEffect

/-!
# Totals that stay remembered

Of the calls that a command is made of, two change what is remembered: a page remembers the total
that was counted for it, and a command forgets the total when it is asked to. All others leave every
remembered total and every expression as it is.

* `Session.total` — the total remembered under a number, with its query.
* `Session.KeepsTotals` — every remembered total stays, and so do the expressions.
* `Prepared.tally` — the rows of a page and their total, which is counted anew.
* `Prepared.page_of_remembered`, `Prepared.page_of_not_remembered` — the two ways of a page.
-/

namespace TableOps

open Session

namespace Session

/-! ## Remembered totals that stay -/

/-- The total remembered under a number, with its query. -/
def total (s : Session) (id : CacheId) : Value × Option Int :=
  ((s.cache id).query, (s.cache id).count)

/-- Every remembered total stays, and so do the expressions. -/
structure KeepsTotals (s s' : Session) : Prop where
  total : ∀ id, s'.total id = s.total id
  caches : s.caches.length ≤ s'.caches.length
  expressions : s'.expressions = s.expressions

theorem keepsTotals_of_eq {s s' : Session} (hcaches : s'.caches = s.caches)
    (hexpressions : s'.expressions = s.expressions) : KeepsTotals s s' where
  total id := by rw [total, total, cache, cache, hcaches]
  caches := Nat.le_of_eq (congrArg List.length hcaches).symm
  expressions := hexpressions

theorem chained_keepsTotals : Chained KeepsTotals where
  refl _ := keepsTotals_of_eq rfl rfl
  trans hst htu :=
    ⟨fun id => (htu.total id).trans (hst.total id), Nat.le_trans hst.caches htu.caches,
      htu.expressions.trans hst.expressions⟩

/-- A new place holds no total, like a number without a place. -/
theorem cache_addCache (s : Session) (id : CacheId) : (addCache.run s).2.cache id = s.cache id := by
  show (s.caches ++ [CountCache.empty]).getD id.index .empty = s.caches.getD id.index .empty
  rw [List.getD_eq_getElem?_getD, List.getD_eq_getElem?_getD, List.getElem?_append]
  split
  · rfl
  · rename_i hlt
    rw [List.getElem?_eq_none (Nat.le_of_not_lt hlt)]
    cases id.index - s.caches.length <;> rfl

theorem keepsTotals_addCache : Within KeepsTotals addCache := fun s =>
  ⟨fun id => by rw [total, total, cache_addCache], by
    show s.caches.length ≤ (s.caches ++ [CountCache.empty]).length
    rw [List.length_append]
    exact Nat.le_add_right _ _, rfl⟩

/-- Steps that leave the remembered totals as they are. -/
theorem keepsTotals_steadySteps : SteadySteps KeepsTotals fun _ => True where
  toChained := chained_keepsTotals
  executed _ _ _ _ _ := keepsTotals_of_eq rfl rfl
  quiet _ _ _ := keepsTotals_of_eq rfl rfl
  openRaw _ := .openRaw chained_keepsTotals (fun _ _ => keepsTotals_of_eq rfl rfl)
    fun _ _ => keepsTotals_of_eq rfl rfl
  nextReply := .nextReply chained_keepsTotals fun _ _ => keepsTotals_of_eq rfl rfl
  note := .note chained_keepsTotals fun _ _ => keepsTotals_of_eq rfl rfl
  updateConnection _ _ _ := keepsTotals_of_eq rfl rfl
  addConnection _ _ := keepsTotals_of_eq rfl rfl
  idle _ _ _ := keepsTotals_of_eq rfl rfl
  schemas _ _ _ := keepsTotals_of_eq rfl rfl
  addCache := keepsTotals_addCache

theorem keepsTotals_effects : SteadyEffects KeepsTotals fun _ => True :=
  keepsTotals_steadySteps.steadyEffects

/-- A change of a remembered total leaves the others and the expressions as they are. -/
@[simp] theorem length_updateCache (s : Session) (id : CacheId) (f : CountCache Int → CountCache Int) :
    ((updateCache id f).run s).2.caches.length = s.caches.length :=
  List.length_modify ..

theorem keepsTotals_updateStatement (id : CacheId) (text : Option String) :
    Within KeepsTotals (updateCache id fun c => { c with statement := text }) := by
  refine fun s => ⟨fun id' => ?_, Nat.le_of_eq (length_updateCache s id _).symm, rfl⟩
  rw [total, total, cache_updateCache]
  split <;> rfl

end Session

/-! ## Finding a total out -/

namespace Prepared

variable {p : Prepared}

theorem keepsTotals_compose (p : Prepared) (kind : StatementKind) (withTotal : Bool) :
    Within KeepsTotals (p.compose kind withTotal).run := by
  have hC := chained_keepsTotals
  unfold compose
  refine .run_bind hC (.run_ofExcept hC _) fun s => ?_
  split
  · exact .run_throw hC _
  · dsimp only
    split
    · exact .run_bind hC (.run_liftM (keepsTotals_effects.note _ _ _)) fun _ => .run_pure hC _
    · exact .run_pure hC _

theorem keepsTotals_run (p : Prepared) (kind : StatementKind) (withTotal : Bool) :
    Within KeepsTotals (p.run kind withTotal).run := by
  have hC := chained_keepsTotals
  unfold run
  refine .run_bind hC (p.keepsTotals_compose kind withTotal) fun ⟨text, values⟩ => ?_
  refine .run_bind hC (.run_liftM (keepsTotals_updateStatement _ _)) fun _ => ?_
  exact keepsTotals_effects.routeQuery _ values trivial

theorem keepsTotals_countRows (p : Prepared) : Within KeepsTotals p.countRows.run := by
  have hC := chained_keepsTotals
  unfold countRows
  refine .run_bind hC (p.keepsTotals_compose _ _) fun ⟨text, values⟩ => ?_
  refine .run_bind hC (keepsTotals_effects.routeQuery _ values trivial) fun result => ?_
  split
  · exact .run_throw hC _
  · exact .run_throw hC _
  · exact .run_ofExcept hC _

/-- The rows of a page and the number of rows in all, which is counted anew. -/
def tally (p : Prepared) : SessionM (List Row × Int) := do
  let result ← p.run (.of .list) true
  let (rows, embedded) ← SessionM.ofExcept (p.dialect.engine.stripTotal result.rows)
  match embedded with
  | some count => return (rows, count)
  | none => return (rows, ← p.countRows)

theorem keepsTotals_tally (p : Prepared) : Within KeepsTotals p.tally.run := by
  have hC := chained_keepsTotals
  unfold tally
  refine .run_bind hC (p.keepsTotals_run _ _) fun result => ?_
  refine .run_bind hC (.run_ofExcept hC _) fun ⟨rows, embedded⟩ => ?_
  cases embedded with
  | some count => exact .run_pure hC _
  | none => exact .run_bind hC p.keepsTotals_countRows fun count => .run_pure hC _

/-- A page whose total is remembered. -/
theorem page_of_remembered {s : Session} {n : Int}
    (h : (s.cache p.cache).countFor p.query = some n) :
    p.page.run.run s = (do
      let result ← p.run (.of .list) false
      return .page (← p.transformed result.rows) n : SessionM Outcome).run.run s := by
  unfold page
  rw [run_bind]
  show (p.run (.of .list) ((s.cache p.cache).countFor p.query).isNone >>= _).run.run s = _
  rw [h]
  rfl

/-- A page whose total is counted, and remembered before the transformers are applied. -/
theorem page_of_not_remembered {s : Session} (h : (s.cache p.cache).countFor p.query = none) :
    p.page.run.run s = (do
      let (rows, n) ← p.tally
      updateCache p.cache fun c => c.store p.query n
      return .page (← p.transformed rows) n : SessionM Outcome).run.run s := by
  unfold page
  rw [run_bind]
  show (p.run (.of .list) ((s.cache p.cache).countFor p.query).isNone >>= _).run.run s = _
  rw [h]
  unfold tally countedRows
  simp only [bind_assoc, pure_bind, Option.isNone_none]
  congr 4
  funext result
  congr 1
  funext stripped
  obtain ⟨rows, embedded⟩ := stripped
  cases embedded with
  | some count => simp
  | none => simp

/-- Only a page is remembered a total for. -/
theorem keepsTotals_outcome (h : ¬ (p.kind = some (.of .list) ∧ p.isPaged)) :
    Within KeepsTotals p.outcome.run := by
  have hC := chained_keepsTotals
  unfold outcome
  split
  · rename_i op hop
    cases op with
    | list =>
      have hpaged : ¬ p.isPaged := fun hpaged => h ⟨hop, hpaged⟩
      simp only [runOperation, if_neg hpaged]
      refine .run_bind hC (p.keepsTotals_run _ _) fun result => ?_
      exact .run_bind hC (.run_ofExcept hC _) fun rows => .run_pure hC _
    | query =>
      refine .run_bind hC (p.keepsTotals_run _ _) fun result => ?_
      exact .run_bind hC (.run_ofExcept hC _) fun rows => .run_pure hC _
    | delete => exact .run_bind hC (p.keepsTotals_run _ _) fun result => .run_pure hC _
    | insert | update =>
      refine .run_bind hC ?_ fun _ =>
        .run_bind hC (p.keepsTotals_run _ _) fun result => .run_pure hC _
      unfold requireData
      split
      · exact .run_pure hC _
      · exact .run_throw hC _
  · exact .run_bind hC (p.keepsTotals_run _ _) fun result => .run_pure hC _
  · exact .run_throw hC _

end Prepared

end TableOps
