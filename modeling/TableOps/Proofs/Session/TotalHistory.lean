import TableOps.Proofs.Log
import TableOps.Proofs.Session.Plans
import TableOps.Proofs.Session.PoolEffect

/-!
# The history of remembered totals

What commands do with the totals that are remembered is recorded, and what is remembered is read off
the record: the total that was counted last, unless it has been forgotten since.

* `Recorded` — an entry; `Patched.record` is what a command records in a session.
* `standing` — what is remembered under a number after a history; `counted_of_standing` finds it in
  the history.
* `Session.Remembers` — a session remembers what stands after a history.

Main statement: `Session.Remembers.executePatched`, a command leaves remembered what it records.
-/

namespace TableOps

open Session

/-! ## What is recorded -/

/-- What a command does with a remembered total. -/
inductive Recorded where
  /-- The total is forgotten. -/
  | forgotten (cache : CacheId)
  /-- A total is counted for a page and remembered. -/
  | counted (x : Plan) (n : Int)
  /-- A page takes its total from what is remembered. -/
  | recalled (x : Plan) (n : Int)

/-- The remembered total under a number is replaced or forgotten. -/
def Recorded.Changes (id : CacheId) : Recorded → Prop
  | .forgotten cache => cache = id
  | .counted x _ => x.cache = id
  | .recalled _ _ => False

namespace Plan

/-- What running a plan does with the remembered total. -/
def record (x : Plan) (s : Session) : List Recorded :=
  if x.IsPage then
    match (s.cache x.cache).countFor x.query with
    | some n => [.recalled x n]
    | none =>
      match (x.prepared.tally.run.run s).1 with
      | .ok (_, n) => [.counted x n]
      | .error _ => []
  else []

end Plan

/-- What a command forgets, as it asks for. -/
def Patched.forgets (p : Patched) (cache : CacheId) : List Recorded :=
  if p.refresh then [.forgotten cache] else []

/-- What a command does with the remembered total of its expression. -/
def Patched.record (p : Patched) (s : Session) : List Recorded :=
  match (announced p).run.run s with
  | (.error _, _) => []
  | (.ok (shared, d), t) =>
    p.forgets shared.cache ++
      match (planned p shared d).run.run t with
      | (.error _, _) => []
      | (.ok x, u) => x.record u

/-! ## What is remembered after a record -/

/-- The plan and the total that were counted last, unless they have been forgotten since. -/
def Recorded.apply (id : CacheId) (last : Option (Plan × Int)) : Recorded → Option (Plan × Int)
  | .forgotten cache => if cache = id then none else last
  | .counted x n => if x.cache = id then some (x, n) else last
  | .recalled _ _ => last

/-- What stands under a number after a history. -/
def standing (history : List Recorded) (id : CacheId) : Option (Plan × Int) :=
  history.foldl (Recorded.apply id) none

theorem standing_append (history later : List Recorded) (id : CacheId) :
    standing (history ++ later) id = later.foldl (Recorded.apply id) (standing history id) :=
  List.foldl_append

theorem Recorded.apply_eq_some {id : CacheId} {last : Option (Plan × Int)} {e : Recorded}
    {x : Plan} {n : Int} (h : e.apply id last = some (x, n)) :
    (e = .counted x n ∧ x.cache = id) ∨ (¬ e.Changes id ∧ last = some (x, n)) := by
  cases e with
  | forgotten cache =>
    rw [apply] at h
    split at h
    · cases h
    · rename_i hne
      exact Or.inr ⟨hne, h⟩
  | counted y m =>
    rw [apply] at h
    split at h
    · rename_i heq
      cases h
      exact Or.inl ⟨rfl, heq⟩
    · rename_i hne
      exact Or.inr ⟨hne, h⟩
  | recalled y m => exact Or.inr ⟨fun hchanges => hchanges, h⟩

theorem Recorded.apply_eq_self {id : CacheId} {e : Recorded} (h : ¬ e.Changes id)
    (last : Option (Plan × Int)) : e.apply id last = last := by
  cases e with
  | forgotten cache => exact if_neg h
  | counted x n => exact if_neg h
  | recalled x n => rfl

/-- What stands was counted in the history, and nothing changed it since. -/
theorem counted_of_standing {history : List Recorded} {id : CacheId} {x : Plan} {n : Int}
    (h : standing history id = some (x, n)) :
    ∃ before after, history = before ++ .counted x n :: after ∧ x.cache = id ∧
      ∀ e ∈ after, ¬ e.Changes id := by
  obtain ⟨before, e, after, hhistory, ⟨rfl, hcache⟩, hafter⟩ : ∃ before e after,
      history = before ++ e :: after ∧ (e = .counted x n ∧ x.cache = id) ∧
        ∀ e' ∈ after, ¬ e'.Changes id :=
    Log.exists_of_known (f := Recorded.apply id) (fun _ _ => Recorded.apply_eq_some) h
  exact ⟨before, after, hhistory, hcache, hafter⟩

/-! ## Sessions and their history -/

/-- A total with its query, as it is remembered. -/
def asRemembered : Option (Plan × Int) → Value × Option Int
  | some (x, n) => (x.query, some n)
  | none => (.null, none)

namespace Session

/-- What is remembered in a session is what stands after a history, and every shared expression has
a place for its total. -/
structure Remembers (s : Session) (history : List Recorded) : Prop where
  total : ∀ id, s.total id = asRemembered (standing history id)
  placed : ∀ e ∈ s.expressions, e.cache.index < s.caches.length

variable {s s' : Session} {history : List Recorded}

theorem Remembers.keeps (h : s.Remembers history) (hkeeps : KeepsTotals s s') :
    s'.Remembers history where
  total id := (hkeeps.total id).trans (h.total id)
  placed e he := by
    rw [hkeeps.expressions] at he
    exact Nat.lt_of_lt_of_le (h.placed e he) hkeeps.caches

/-- Where nothing that is recorded changes the total, the same is remembered as before. -/
theorem Remembers.total_eq {later : List Recorded} (hs : s.Remembers history)
    (hs' : s'.Remembers (history ++ later)) {id : CacheId} (h : ∀ e ∈ later, ¬ e.Changes id) :
    s'.total id = s.total id := by
  rw [hs'.total, hs.total, standing_append,
    Log.known_eq_self fun e he => Recorded.apply_eq_self (h e he)]

/-- What is found for a query is what stands, if that was computed for an equal one. -/
theorem Remembers.countFor_eq (h : s.Remembers history) (id : CacheId) (query : Value) :
    (s.cache id).countFor query =
      if Value.same (asRemembered (standing history id)).1 query then
        (asRemembered (standing history id)).2 else none := by
  rw [← h.total id]
  rfl

/-- A change of one remembered total. -/
theorem Remembers.update (h : s.Remembers history) {id : CacheId}
    {f : CountCache Int → CountCache Int} {e : Recorded}
    (hother : ∀ id', id' ≠ id → e.apply id' (standing history id') = standing history id')
    (hsame : (((updateCache id f).run s).2.total id) =
      asRemembered (e.apply id (standing history id))) :
    (((updateCache id f).run s).2).Remembers (history ++ [e]) where
  total id' := by
    rw [standing_append]
    by_cases hid : id' = id
    · subst hid
      exact hsame
    · rw [List.foldl_cons, List.foldl_nil, hother id' hid, ← h.total id', Session.total,
        Session.total, cache_updateCache, if_neg fun hand => hid hand.1]
  placed e he := by
    rw [length_updateCache]
    exact h.placed e he

theorem Remembers.recall (h : s.Remembers history) (x : Plan) (n : Int) :
    s.Remembers (history ++ [.recalled x n]) where
  total id := by
    rw [standing_append]
    exact h.total id
  placed := h.placed

theorem Remembers.forget (h : s.Remembers history) (id : CacheId) :
    (((updateCache id CountCache.invalidate).run s).2).Remembers (history ++ [.forgotten id]) := by
  refine h.update (fun id' hid => if_neg (Ne.symm hid)) ?_
  rw [Recorded.apply, if_pos rfl, Session.total, cache_updateCache]
  split
  · rfl
  · rename_i hplace
    rw [cache_of_length_le (Nat.le_of_not_lt fun hlt => hplace ⟨rfl, hlt⟩)]
    rfl

theorem Remembers.store (h : s.Remembers history) {x : Plan} (n : Int)
    (hplaced : x.cache.index < s.caches.length) :
    (((updateCache x.cache fun c => c.store x.query n).run s).2).Remembers
      (history ++ [.counted x n]) := by
  refine h.update (fun id' hid => if_neg (Ne.symm hid)) ?_
  rw [Recorded.apply, if_pos rfl, Session.total, cache_updateCache, if_pos ⟨rfl, hplaced⟩]
  rfl

end Session

/-! ## Calls that may fail -/

/-- What a call leads to when it yields something, and when it fails. -/
def Ended {α : Type} (Q : α → Session → Prop) (E : Session → Prop) (r : Except Failure α)
    (s : Session) : Prop :=
  match r with
  | .ok a => Q a s
  | .error _ => E s

/-- Calls in a row; a failure of either leads to the same. -/
theorem Leads.run_bind_ended {α β : Type} {P E : Session → Prop} {M : α → Session → Prop}
    {Q : β → Session → Prop} {x : SessionM α} {f : α → SessionM β}
    (hx : Leads P x.run (Ended M E)) (hf : ∀ a, Leads (M a) (f a).run (Ended Q E)) :
    Leads P (x >>= f).run (Ended Q E) := by
  refine .run_bind (fun s hs => ?_) hf
  have hfirst := hx s hs
  constructor
  · intro a ha
    rw [ha] at hfirst
    exact hfirst
  · intro e he
    rw [he] at hfirst
    exact hfirst

/-! ## One command -/

namespace Plan

variable {s : Session} {history : List Recorded} {x : Plan}

/-- The rows of a page are transformed last. -/
theorem keepsTotals_shown (p : Prepared) (rows : List Row) (n : Int) :
    Within KeepsTotals (do return .page (← p.transformed rows) n : SessionM Outcome).run :=
  .run_bind chained_keepsTotals (.run_ofExcept chained_keepsTotals _) fun _ =>
    .run_pure chained_keepsTotals _

/-- Running a plan leaves remembered what it records. -/
theorem remembers_outcome (h : s.Remembers history) (hplaced : x.cache.index < s.caches.length) :
    ((x.prepared.outcome.run.run s).2).Remembers (history ++ x.record s) := by
  unfold record
  by_cases hpage : x.IsPage
  · rw [if_pos hpage, hpage.outcome_eq]
    cases hn : (s.cache x.cache).countFor x.query with
    | some n =>
      rw [← prepared_cache] at hn
      rw [Prepared.page_of_remembered hn]
      refine (h.recall x n).keeps (Within.run_bind chained_keepsTotals ?_ (fun result => ?_) s)
      · exact Prepared.keepsTotals_run _ _ _
      · exact keepsTotals_shown _ _ n
    | none =>
      rw [← prepared_cache] at hn
      rw [Prepared.page_of_not_remembered hn, run_bind]
      have hkeeps := Prepared.keepsTotals_tally x.prepared s
      generalize x.prepared.tally.run.run s = tallied at hkeeps
      obtain ⟨r, t⟩ := tallied
      cases r with
      | error f => exact (List.append_nil history).symm ▸ h.keeps hkeeps
      | ok counted =>
        -- the total is remembered before the transformers are applied
        obtain ⟨rows, n⟩ := counted
        have hstored := (h.keeps hkeeps).store n (Nat.lt_of_lt_of_le hplaced hkeeps.caches)
        rw [← prepared_cache] at hstored
        exact hstored.keeps (keepsTotals_shown x.prepared rows n _)
  · rw [if_neg hpage, List.append_nil]
    exact h.keeps (Prepared.keepsTotals_outcome hpage s)

end Plan

namespace Session

variable {s s' : Session} {history : List Recorded}

theorem run_lookup_eq {name : Option String} {d : DatabaseId}
    (h : (lookup name).run.run s = (.ok d, s')) : s' = s := by
  have hC : Chained fun s s' : Session => s' = s := ⟨fun _ => rfl, fun hst htu => htu.trans hst⟩
  have hstate := Within.run_lookup hC name s
  rw [h] at hstate
  exact hstate

/-- The expression of a command has a place for its total. -/
theorem placed_resolve (hplaced : ∀ e ∈ s.expressions, e.cache.index < s.caches.length) {t : Target}
    {e : SharedExpression} {d : DatabaseId} (h : (resolve t).run.run s = (.ok (e, d), s')) :
    e.cache.index < s'.caches.length := by
  have hkeeps := keepsTotals_effects.resolve t s
  rw [h] at hkeeps
  -- it is new, or it is one of the session
  have hshared : e ∈ s.expressions → e.cache.index < s'.caches.length := fun he =>
    Nat.lt_of_lt_of_le (hplaced e he) hkeeps.caches
  unfold resolve at h
  cases t with
  | given given =>
    obtain ⟨cache, s₁, hadd, h⟩ := ok_of_run_bind h
    obtain ⟨id, s₂, hlookup, h⟩ := ok_of_run_bind h
    cases h
    cases run_lookup_eq hlookup
    cases hadd
    show s.caches.length < (s.caches ++ [CountCache.empty]).length
    rw [List.length_append]
    exact Nat.lt_succ_self _
  | shared id =>
    obtain ⟨s₁, s₂, hget, h⟩ := ok_of_run_bind h
    cases hget
    split at h
    · rename_i found hfound
      obtain ⟨name, s₂, -, h⟩ := ok_of_run_bind h
      obtain ⟨d', s₃, -, h⟩ := ok_of_run_bind h
      cases h
      exact hshared (List.mem_of_getElem? hfound)
    · cases h
  | stored reference =>
    obtain ⟨d', s₁, hlookup, h⟩ := ok_of_run_bind h
    cases run_lookup_eq hlookup
    obtain ⟨database, s₂, hread, h⟩ := ok_of_run_bind h
    cases hread
    split at h
    · obtain ⟨database, s₂, -, h⟩ := ok_of_run_bind h
      cases h
    · obtain ⟨s₂, s₃, hget, h⟩ := ok_of_run_bind h
      cases hget
      obtain ⟨id, s₂, hid, h⟩ := ok_of_run_bind h
      cases (congrArg Prod.snd hid : s = s₂)
      split at h
      · rename_i found hfound
        cases h
        exact hshared (List.mem_of_getElem? hfound)
      · cases h

/-- What is remembered stands after a history, and there is a place under a number. -/
def Placed (history : List Recorded) (cache : CacheId) (s : Session) : Prop :=
  s.Remembers history ∧ cache.index < s.caches.length

theorem Placed.keeps {cache : CacheId} (h : Placed history cache s) (hkeeps : KeepsTotals s s') :
    Placed history cache s' :=
  ⟨h.1.keeps hkeeps, Nat.lt_of_lt_of_le h.2 hkeeps.caches⟩

/-- Announcing a command forgets its total if it asks for that. -/
theorem leads_announce (p : Patched) (x : Draft) (cache : CacheId) (d : DatabaseId) :
    Leads (Placed history cache) (announce p x cache d).run
      (Ended (fun _ => Placed (history ++ p.forgets cache) cache) (·.Remembers history)) := by
  have hforget : Leads (Placed history cache)
      (if p.refresh then SessionM.lift (updateCache cache CountCache.invalidate)
        else Pure.pure () : SessionM Unit).run
      (Ended (fun _ => Placed (history ++ p.forgets cache) cache) (·.Remembers history)) := by
    unfold Patched.forgets
    split
    · exact fun t ht => ⟨ht.1.forget _, (length_updateCache t _ _).symm ▸ ht.2⟩
    · rw [List.append_nil]
      exact fun t ht => ht
  unfold announce
  cases p.debug with
  | false => exact hforget
  | true =>
    -- a draft without a plain form is a failure before anything is forgotten
    refine Leads.run_bind_ended (M := fun _ => Placed history cache) (fun t ht => ?_) fun _ => ?_
    · show Ended _ _ x.plain t
      cases x.plain with
      | ok plain => exact ht
      | error f => exact ht.1
    · refine Leads.run_liftM_bind (M := fun _ => Placed history cache) (fun t ht => ht) fun _ => ?_
      refine Leads.run_liftM_bind (M := fun _ => Placed history cache) (fun t ht => ?_)
        fun _ => hforget
      exact ht.keeps (keepsTotals_effects.note _ _ _ t)

theorem leads_announced (p : Patched) :
    Leads (·.Remembers history) (announced p).run
      (Ended (fun a => Placed (history ++ p.forgets a.1.cache) a.1.cache)
        (·.Remembers history)) := by
  unfold announced
  refine Leads.run_bind_ended (M := fun _ t => t.Remembers history) (fun t ht => ?_)
    fun target => ?_
  · show Ended _ _ p.target t
    cases p.target <;> exact ht
  refine Leads.run_bind_ended (M := fun a => Placed history a.1.cache) (fun t ht => ?_) ?_
  · have hkeeps := ht.keeps (keepsTotals_effects.resolve target t)
    cases hresolve : (resolve target).run.run t with
    | mk r u =>
      rw [hresolve] at hkeeps
      cases r with
      | ok a => exact ⟨hkeeps, placed_resolve ht.placed hresolve⟩
      | error f => exact hkeeps
  · rintro ⟨shared, d⟩
    exact .run_bind_ended (leads_announce p shared.toDraft shared.cache d) fun _ =>
      .run_pure fun _ ht => ht

/-- What is remembered once a command that is announced has been planned. -/
theorem Remembers.planned {t : Session} {p : Patched} {shared : SharedExpression} {d : DatabaseId}
    (h : s.Remembers history) (hannounced : (announced p).run.run s = (.ok (shared, d), t)) :
    Placed (history ++ p.forgets shared.cache) shared.cache
      ((Session.planned p shared d).run.run t).2 := by
  have ht := leads_announced p s h
  rw [hannounced] at ht
  exact Placed.keeps ht (keepsTotals_planned p shared d t)

theorem record_of_planned {t u : Session} {p : Patched} {shared : SharedExpression} {d : DatabaseId}
    {x : Plan} (hannounced : (announced p).run.run s = (.ok (shared, d), t))
    (hplanned : (Session.planned p shared d).run.run t = (.ok x, u)) :
    p.record s = p.forgets shared.cache ++ x.record u := by
  unfold Patched.record
  rw [hannounced]
  dsimp only
  rw [hplanned]

/-- A command leaves remembered what it records. -/
theorem Remembers.executePatched (h : s.Remembers history) (p : Patched) :
    (((executePatched p).run.run s).2).Remembers (history ++ p.record s) := by
  refine Remembers.keeps ?_ (follows_executePatched p s).2
  unfold plan Patched.record
  rw [bind_assoc, run_bind]
  -- whether it fails before it is planned, while it is planned, or not before it is run
  cases hannounced : (announced p).run.run s with
  | mk r t =>
    cases r with
    | error f =>
      have ht := leads_announced p s h
      rw [hannounced] at ht
      exact (List.append_nil history).symm ▸ ht
    | ok a =>
      obtain ⟨shared, d⟩ := a
      have hu := h.planned hannounced
      dsimp only
      rw [← List.append_assoc, run_bind]
      cases hplanned : (Session.planned p shared d).run.run t with
      | mk r u =>
        rw [hplanned] at hu
        cases r with
        | error f => exact (List.append_nil _).symm ▸ hu.1
        | ok x =>
          rw [← cache_of_planned hplanned] at hu ⊢
          exact x.remembers_outcome hu.1 hu.2

end Session

/-! ## What a page takes its total from -/

/-- A total that is found is the one that stands, for an equal query. -/
theorem standing_of_found {last : Option (Plan × Int)} {query : Value} {n : Int}
    (h : (if Value.same (asRemembered last).1 query then (asRemembered last).2 else none) =
      some n) : ∃ y, last = some (y, n) ∧ Value.same y.query query = true := by
  split at h
  · rename_i hquery
    cases last with
    | none => cases h
    | some counted =>
      obtain ⟨y, m⟩ := counted
      cases h
      exact ⟨y, rfl, hquery⟩
  · cases h

/-- Nothing stands behind a command that forgets. -/
theorem forgets_of_standing {p : Patched} {history : List Recorded} {cache : CacheId}
    {last : Plan × Int} (h : standing (history ++ p.forgets cache) cache = some last) :
    p.forgets cache = [] := by
  unfold Patched.forgets at h ⊢
  split
  · rename_i hrefresh
    rw [if_pos hrefresh, standing_append] at h
    have hnone : (Recorded.forgotten cache).apply cache (standing history cache) = none :=
      if_pos rfl
    cases hnone.symm.trans h
  · rfl

namespace Plan

/-- The total of a page was counted for it, or it was remembered. -/
theorem record_of_outcome {s s' : Session} {x : Plan} {rows : List Row} {n : Int}
    (h : x.prepared.outcome.run.run s = (.ok (.page rows n), s')) :
    x.record s = [.counted x n] ∨
      x.record s = [.recalled x n] ∧ (s.cache x.cache).countFor x.query = some n := by
  have hpage := isPage_of_outcome h
  rw [hpage.outcome_eq] at h
  unfold record
  rw [if_pos hpage]
  cases hm : (s.cache x.cache).countFor x.query with
  | some m =>
    rw [← prepared_cache] at hm
    rw [Prepared.page_of_remembered hm] at h
    obtain ⟨result, t, -, h⟩ := ok_of_run_bind h
    obtain ⟨shown, t, -, h⟩ := ok_of_run_bind h
    cases h
    exact Or.inr ⟨rfl, rfl⟩
  | none =>
    rw [← prepared_cache] at hm
    rw [Prepared.page_of_not_remembered hm] at h
    obtain ⟨⟨tallied, m⟩, t, htally, h⟩ := ok_of_run_bind h
    obtain ⟨_, t', -, h⟩ := ok_of_run_bind h
    obtain ⟨shown, t, -, h⟩ := ok_of_run_bind h
    cases h
    rw [htally]
    exact Or.inl rfl

end Plan

end TableOps
