import TableOps.Proofs.Except
import TableOps.Session.Connection

/-!
# What statements fail with

A statement that fails does so with an error: it is refused by the server, its connection has been
released, or what the driver reports for it cannot be read. Nobody is broken off in it, so that a
statement outside a transaction is rolled back whenever it fails.

* `Check.NeverFails` — a check that at worst finds problems.
* `SessionM.OnlyErrors` — a call that fails with errors only.

Main statement: `ConnectionId.queryRaw_eq_onFailure`.
-/

namespace TableOps

variable {ι α β : Type}

/-! ## Checks -/

namespace Check

/-- At worst there are problems with the data, and nothing that ends the check at once. -/
def NeverFails (x : Check α) : Prop :=
  ∀ f, x ≠ .failed f

theorem neverFails_problem (d : Defect) : (problem d : Check α).NeverFails :=
  fun _ h => nomatch h

theorem neverFails_text (v : Value) : (text v).NeverFails := by
  unfold text
  split
  · exact fun _ h => nomatch h
  · exact neverFails_problem _

theorem neverFails_int (v : Value) : (int v).NeverFails := by
  intro f
  unfold int
  repeat' split
  all_goals exact fun h => nomatch h

namespace NeverFails

theorem map {x : Check α} (hx : x.NeverFails) (f : α → β) : (Check.map f x).NeverFails := by
  intro e h
  cases x with
  | ok a => cases h
  | problems ps => cases h
  | failed e' => exact hx e' rfl

theorem within {x : Check α} (hx : x.NeverFails) (place : Place) :
    (Check.within place x).NeverFails := by
  intro e h
  cases x with
  | ok a => cases h
  | problems ps => cases h
  | failed e' => exact hx e' rfl

theorem seq {f : Check (α → β)} {x : Unit → Check α} (hf : f.NeverFails) (hx : (x ()).NeverFails) :
    (Check.seq f x).NeverFails := by
  intro e h
  cases f with
  | ok f => exact hx.map f e h
  | problems ps =>
    simp only [Check.seq] at h
    split at h
    · cases h
    · cases h
    · rename_i e' hfailed
      exact hx e' hfailed
  | failed e' => exact hf e' rfl

theorem itemsFrom {check : ι → Check α} (h : ∀ item, (check item).NeverFails) (i : Nat)
    (items : List ι) : (Check.itemsFrom check i items).NeverFails := by
  induction items generalizing i with
  | nil => exact fun _ h => nomatch h
  | cons item items ih => exact .seq (((h item).within _).map _) (ih (i + 1))

theorem namedEntries (entries : List (Value × α)) : (Check.namedEntries entries).NeverFails := by
  induction entries with
  | nil => exact fun _ h => nomatch h
  | cons entry entries ih =>
    exact .seq ((((neverFails_text _).within _).within _).map _) ih

theorem isError {x : Check α} (hx : x.NeverFails) {f : Failure} (h : x.toExcept = .error f) :
    f.isError = true := by
  cases x with
  | ok a => cases h
  | problems ps =>
    cases h
    rfl
  | failed e => exact absurd rfl (hx e)

end NeverFails

end Check

/-! ## What a driver reports -/

theorem Keyed.isError_of_ofPairs {pairs : List (Value × α)} {f : Failure}
    (h : Keyed.ofPairs pairs = .error f) : f.isError = true := by
  have hfold : ∀ (entries : Keyed α) (pairs : List (Value × α)),
      pairs.foldlM (fun entries pair => insert? entries pair.1 pair.2) entries = .error f →
        f.isError = true := by
    intro entries pairs
    induction pairs generalizing entries with
    | nil =>
      intro h
      cases h
    | cons pair pairs ih =>
      intro h
      rw [List.foldlM_cons] at h
      rcases error_of_bind h with h | ⟨entries', -, h⟩
      · simp only [insert?] at h
        split at h <;> cases h
        rfl
      · exact ih entries' h
  exact hfold [] pairs h

theorem Value.isError_of_itemsOf {v : Value} {f : Failure} (h : v.itemsOf = .error f) :
    f.isError = true := by
  unfold itemsOf at h
  split at h <;> cases h
  rfl

theorem Result.isError_of_ofReport {columns rows : List Value} {rowCount lastInsertId : Value}
    {f : Failure} (h : ofReport columns rows rowCount lastInsertId = .error f) :
    f.isError = true := by
  have hshaped : ∀ rows : List (Keyed Value), ((fun rows rowCount =>
      Result.mk rows rowCount lastInsertId)
      <$> Check.within (.member "rows") (Check.itemsFrom Check.namedEntries 0 rows)
      <*> Check.within (.member "row_count")
        (if rowCount.isNull then .ok (-1) else Check.int rowCount)).toExcept = .error f →
      f.isError = true := by
    intro rows
    refine Check.NeverFails.isError (Check.NeverFails.seq (Check.NeverFails.map ?_ _) ?_)
    · exact (Check.NeverFails.itemsFrom Check.NeverFails.namedEntries 0 rows).within _
    · refine Check.NeverFails.within ?_ _
      split
      · exact fun _ h => nomatch h
      · exact Check.neverFails_int rowCount
  unfold ofReport at h
  by_cases hcolumns : columns.isEmpty
  · simp only [hcolumns, if_true] at h
    exact hshaped [] h
  · simp only [hcolumns, Bool.false_eq_true, if_false] at h
    rcases error_of_bind h with h | ⟨rows', -, h⟩
    · obtain ⟨row, -, h⟩ := error_of_mapM h
      rcases error_of_bind h with h | ⟨items, -, h⟩
      · exact Value.isError_of_itemsOf h
      · exact Keyed.isError_of_ofPairs h
    · exact hshaped rows' h

/-! ## Calls -/

namespace SessionM

/-- A call that fails with errors only. -/
def OnlyErrors (x : SessionM α) : Prop :=
  ∀ s f, (x.run.run s).1 = .error f → f.isError = true

theorem onlyErrors_throw {f : Failure} (h : f.isError = true) :
    (throw f : SessionM α).OnlyErrors := by
  rintro s f' hf'
  cases hf'
  exact h

theorem onlyErrors_pure (a : α) : (pure a : SessionM α).OnlyErrors :=
  fun _ _ h => nomatch h

theorem onlyErrors_liftM (x : StateM Session α) : (liftM x : SessionM α).OnlyErrors :=
  fun _ _ h => nomatch h

theorem OnlyErrors.bind {x : SessionM α} {f : α → SessionM β} (hx : x.OnlyErrors)
    (hf : ∀ a, (f a).OnlyErrors) : (x >>= f).OnlyErrors := by
  intro s e h
  rw [run_bind] at h
  have hs := hx s
  cases hrun : x.run.run s with
  | mk r t =>
    rw [hrun] at h hs
    cases r with
    | ok a => exact hf a t e h
    | error e' =>
      cases h
      exact hs e rfl

theorem OnlyErrors.tryCatch {x : SessionM α} {handler : Failure → SessionM α} (hx : x.OnlyErrors)
    (hhandler : ∀ f, f.isError = true → (handler f).OnlyErrors) :
    (tryCatch x handler).OnlyErrors := by
  intro s e h
  rw [run_tryCatch] at h
  have hs := hx s
  cases hrun : x.run.run s with
  | mk r t =>
    rw [hrun] at h hs
    cases r with
    | ok a => cases h
    | error f => exact hhandler f (hs f rfl) t e h

/-- After a call that fails with errors only, a step for errors is one for failures. -/
theorem OnlyErrors.onError_eq {x : SessionM α} (hx : x.OnlyErrors) (step : StateM Session Unit) :
    x.onError step = x.onFailure step := by
  refine ExceptT.ext (StateT.ext fun s => ?_)
  have hs := hx s
  simp only [SessionM.onError, onFailure, ExceptT.run_mk, StateT.run_bind]
  cases hrun : x.run.run s with
  | mk r t =>
    rw [hrun] at hs
    cases r with
    | ok a => rfl
    | error e =>
      show StateT.run (if e.isError = true then _ else _) t = _
      rw [if_pos (hs e rfl)]
      rfl

/-- A step that follows failures leaves them as they are. -/
theorem OnlyErrors.onError {x : SessionM α} (hx : x.OnlyErrors) (step : StateM Session Unit) :
    (x.onError step).OnlyErrors := by
  rw [hx.onError_eq]
  intro s e h
  have hresult : ((x.onFailure step).run.run s).1 = (x.run.run s).1 := by
    simp only [onFailure, ExceptT.run_mk, StateT.run_bind]
    cases x.run.run s with
    | mk r t => cases r <;> rfl
  rw [hresult] at h
  exact hx s e h

end SessionM

namespace ConnectionId

open SessionM

theorem onlyErrors_execute (c : ConnectionId) (statement : Value) (values : List Value) :
    (c.execute statement values).OnlyErrors := by
  unfold execute
  refine (onlyErrors_liftM _).bind fun connection => ?_
  split
  -- a connection that is released is refused before anything is sent
  on_goal 1 => refine (onlyErrors_throw rfl).bind fun _ => ?_
  all_goals
    refine (onlyErrors_liftM _).bind fun _ => (onlyErrors_liftM _).bind fun _ =>
      (onlyErrors_liftM _).bind fun reply => ?_
    cases reply with
    | refused reason => exact onlyErrors_throw rfl
    | done columns rows rowCount lastInsertId => exact fun _ _ h => Result.isError_of_ofReport h

theorem onlyErrors_queryRaw (c : ConnectionId) (statement : Value) (values : List Value) :
    (c.queryRaw statement values).OnlyErrors := by
  unfold queryRaw
  refine (onlyErrors_liftM _).bind fun inside => ?_
  cases inside with
  | true => exact c.onlyErrors_execute statement values
  | false =>
    refine ((c.onlyErrors_execute statement values).onError _).bind fun r => ?_
    exact (onlyErrors_liftM _).bind fun _ => (onlyErrors_liftM _).bind fun _ => onlyErrors_pure r

theorem onlyErrors_begin (c : ConnectionId) : c.begin.OnlyErrors := by
  unfold begin
  refine (onlyErrors_liftM _).bind fun _ => (onlyErrors_liftM _).bind fun connection => ?_
  dsimp only
  split
  · exact (c.onlyErrors_execute _ _).bind fun _ => onlyErrors_liftM _
  · exact onlyErrors_liftM _

theorem onlyErrors_finish (c : ConnectionId) (word verb : String) (event : RawId → Event) :
    (c.finish word verb event).OnlyErrors := by
  have hrest (level : Nat) : (do
      Session.note .debug .connection (levelText word level)
      Session.updateConnection c fun x => { x with level := x.level - 1 } : SessionM Unit).OnlyErrors :=
    (onlyErrors_liftM _).bind fun _ => onlyErrors_liftM _
  unfold finish finishWith
  refine (onlyErrors_liftM _).bind fun connection => ?_
  dsimp only
  split
  · exact onlyErrors_throw rfl
  · split
    · exact (c.onlyErrors_execute _ _).bind fun _ => hrest _
    · exact (onlyErrors_liftM _).bind fun _ => hrest _

/-- Outside a transaction a statement is rolled back whenever it fails. -/
theorem queryRaw_eq_onFailure (c : ConnectionId) (statement : Value) (values : List Value) :
    c.queryRaw statement values = (do
      if ← c.inTransaction then c.execute statement values
      else
        let r ← (c.execute statement values).onFailure c.rollbackHeld
        Session.emit (.committed (← c.read).raw)
        return r) := by
  unfold queryRaw
  rw [(c.onlyErrors_execute statement values).onError_eq]

end ConnectionId

end TableOps
