import Mathlib.Data.List.Forall2

/-!
# Successful computations

What a successful result says about the steps that lead to it.

* `ok_of_bind`, `ok_of_map`, `ok_of_mapError`, `ok_of_toOption_join` — one step; `error_of_bind`,
  `error_of_map`, `error_of_mapError`, the same for failures.
* `forall₂_of_mapM`, `ok_of_mapM`, `exists_of_mapM`, `error_of_mapM`, `mapM_congr` — the same step for
  every item of a list.
* `AgreeUpTo` — two computations that fail together in related ways, and succeed with related
  results; `Agree`, the same with whatever failures.
* `ok_of_run_bind` — steps that change a state.
-/

namespace TableOps

variable {ε ε' α β : Type}

/-- Two steps succeed when both do. -/
theorem ok_of_bind {x : Except ε α} {f : α → Except ε β} {b : β} (h : (x >>= f) = .ok b) :
    ∃ a, x = .ok a ∧ f a = .ok b := by
  cases x with
  | error e => cases h
  | ok a => exact ⟨a, rfl, h⟩

theorem ok_of_map {x : Except ε α} {f : α → β} {b : β} (h : x.map f = .ok b) :
    ∃ a, x = .ok a ∧ f a = b := by
  cases x with
  | error e => cases h
  | ok a =>
    cases h
    exact ⟨a, rfl, rfl⟩

theorem ok_of_mapError {x : Except ε α} {f : ε → ε'} {a : α} (h : x.mapError f = .ok a) :
    x = .ok a := by
  cases x with
  | error e => cases h
  | ok a' =>
    cases h
    rfl

/-- Two steps fail when the first one does, or else the second one. -/
theorem error_of_bind {x : Except ε α} {f : α → Except ε β} {e : ε} (h : (x >>= f) = .error e) :
    x = .error e ∨ ∃ a, x = .ok a ∧ f a = .error e := by
  cases x with
  | error e' =>
    cases h
    exact .inl rfl
  | ok a => exact .inr ⟨a, rfl, h⟩

theorem error_of_map {x : Except ε α} {f : α → β} {e : ε} (h : x.map f = .error e) :
    x = .error e := by
  cases x with
  | error e' =>
    cases h
    rfl
  | ok a => cases h

theorem error_of_mapError {x : Except ε α} {f : ε → ε'} {e : ε'} (h : x.mapError f = .error e) :
    ∃ e', x = .error e' ∧ f e' = e := by
  cases x with
  | error e' =>
    cases h
    exact ⟨e', rfl, rfl⟩
  | ok a => cases h

theorem exists_ok_of_isSome {x : Except ε α} (h : x.toOption.isSome) : ∃ a, x = .ok a := by
  cases x with
  | error e => cases h
  | ok a => exact ⟨a, rfl⟩

/-- A result that is there is the result of a success. -/
theorem ok_of_toOption {x : Except ε α} {a : α} (h : x.toOption = some a) : x = .ok a := by
  cases x with
  | error e => cases h
  | ok a' =>
    cases h
    rfl

theorem ok_of_toOption_join {x : Except ε (Option α)} {a : α} (h : x.toOption.join = some a) :
    x = .ok (some a) :=
  ok_of_toOption (Option.join_eq_some_iff.mp h)

/-- The results of a step over a list are those for its items, one after another. -/
theorem forall₂_of_mapM {f : α → Except ε β} {items : List α} {results : List β}
    (h : items.mapM f = .ok results) : List.Forall₂ (fun a b => f a = .ok b) items results := by
  induction items generalizing results with
  | nil =>
    cases h
    exact .nil
  | cons a items ih =>
    rw [List.mapM_cons] at h
    obtain ⟨b, hb, h⟩ := ok_of_bind h
    obtain ⟨rest, hrest, h⟩ := ok_of_bind h
    cases h
    exact .cons hb (ih hrest)

/-- Every result of a step over a list is the result for one of the items. -/
theorem ok_of_mapM {f : α → Except ε β} {items : List α} {results : List β}
    (h : items.mapM f = .ok results) : ∀ b ∈ results, ∃ a ∈ items, f a = .ok b := by
  have hall := forall₂_of_mapM h
  intro b hb
  obtain ⟨i, hi, rfl⟩ := List.getElem_of_mem hb
  have hitem : i < items.length := hall.length_eq.symm ▸ hi
  exact ⟨items[i], List.getElem_mem hitem, hall.get hitem hi⟩

/-- When every item of a list succeeds, its result is one of the results. -/
theorem exists_of_mapM {f : α → Except ε β} {items : List α} {results : List β}
    (h : items.mapM f = .ok results) : ∀ a ∈ items, ∃ b ∈ results, f a = .ok b := by
  have hall := forall₂_of_mapM h
  intro a ha
  obtain ⟨i, hi, rfl⟩ := List.getElem_of_mem ha
  have hresult : i < results.length := hall.length_eq ▸ hi
  exact ⟨results[i], List.getElem_mem hresult, hall.get hi hresult⟩

/-- A step over a list fails like one of the items. -/
theorem error_of_mapM {f : α → Except ε β} {items : List α} {e : ε} (h : items.mapM f = .error e) :
    ∃ a ∈ items, f a = .error e := by
  induction items with
  | nil => cases h
  | cons a items ih =>
    rw [List.mapM_cons] at h
    rcases error_of_bind h with ha | ⟨b, -, h⟩
    · exact ⟨a, List.mem_cons_self, ha⟩
    · rcases error_of_bind h with hrest | ⟨rest, -, h⟩
      · obtain ⟨a', ha', herror⟩ := ih hrest
        exact ⟨a', List.mem_cons_of_mem a ha', herror⟩
      · cases h

/-- Two steps that agree on the items of a list do so on the list. -/
theorem mapM_congr {f g : α → Except ε β} {items : List α} (h : ∀ a ∈ items, f a = g a) :
    items.mapM f = items.mapM g := by
  induction items with
  | nil => rfl
  | cons a items ih =>
    obtain ⟨ha, hitems⟩ := List.forall_mem_cons.mp h
    rw [List.mapM_cons, List.mapM_cons, ha, ih hitems]

/-! ## Two computations side by side -/

/-- Both fail in related ways, or both succeed with related results. -/
inductive AgreeUpTo (E : ε → ε' → Prop) (R : α → β → Prop) : Except ε α → Except ε' β → Prop where
  | ok {a : α} {b : β} (h : R a b) : AgreeUpTo E R (.ok a) (.ok b)
  | error {e : ε} {e' : ε'} (h : E e e') : AgreeUpTo E R (.error e) (.error e')

namespace AgreeUpTo

variable {α' β' : Type} {E : ε → ε' → Prop} {R : α → β → Prop} {R' : α' → β' → Prop}
  {x : Except ε α} {y : Except ε' β}

theorem imp {S : α → β → Prop} (h : AgreeUpTo E R x y) (hRS : ∀ a b, R a b → S a b) :
    AgreeUpTo E S x y := by
  cases h with
  | ok h => exact .ok (hRS _ _ h)
  | error h => exact .error h

theorem bind (h : AgreeUpTo E R x y) {f : α → Except ε α'} {g : β → Except ε' β'}
    (hfg : ∀ a b, R a b → AgreeUpTo E R' (f a) (g b)) : AgreeUpTo E R' (x >>= f) (y >>= g) := by
  cases h with
  | ok h => exact hfg _ _ h
  | error h => exact .error h

/-- The same computation, and then two that agree on what it yields. -/
theorem bind_self {E : ε → ε → Prop} (hE : ∀ e, E e e) {x : Except ε α} {f : α → Except ε α'}
    {g : α → Except ε β'} (hfg : ∀ a, x = .ok a → AgreeUpTo E R' (f a) (g a)) :
    AgreeUpTo E R' (x >>= f) (x >>= g) := by
  cases x with
  | ok a => exact hfg a rfl
  | error e => exact .error (hE e)

theorem map (h : AgreeUpTo E R x y) {f : α → α'} {g : β → β'}
    (hfg : ∀ a b, R a b → R' (f a) (g b)) :
    AgreeUpTo E R' (x.map f) (y.map g) := by
  cases h with
  | ok h => exact .ok (hfg _ _ h)
  | error h => exact .error h

theorem mapError {ε₁ ε₁' : Type} {E' : ε₁ → ε₁' → Prop} (h : AgreeUpTo E R x y) {f : ε → ε₁}
    {g : ε' → ε₁'} (hfg : ∀ e e', E e e' → E' (f e) (g e')) :
    AgreeUpTo E' R (x.mapError f) (y.mapError g) := by
  cases h with
  | ok h => exact .ok h
  | error h => exact .error (hfg _ _ h)

end AgreeUpTo

/-- Both fail, or both succeed with related results. -/
inductive Agree (R : α → β → Prop) : Except ε α → Except ε' β → Prop where
  | ok {a : α} {b : β} (h : R a b) : Agree R (.ok a) (.ok b)
  | error (e : ε) (e' : ε') : Agree R (.error e) (.error e')

namespace Agree

variable {α' β' : Type} {R : α → β → Prop} {R' : α' → β' → Prop} {x : Except ε α} {y : Except ε' β}

/-- The failures may be any. -/
theorem iff_upTo : Agree R x y ↔ AgreeUpTo (fun _ _ => True) R x y := by
  constructor
  · intro h
    cases h with
    | ok h => exact .ok h
    | error e e' => exact .error trivial
  · intro h
    cases h with
    | ok h => exact .ok h
    | error h => exact .error _ _

theorem eq (x : Except ε α) : Agree Eq x x := by
  cases x with
  | ok a => exact .ok rfl
  | error e => exact .error e e

theorem bind (h : Agree R x y) {f : α → Except ε α'} {g : β → Except ε' β'}
    (hfg : ∀ a b, R a b → Agree R' (f a) (g b)) : Agree R' (x >>= f) (y >>= g) :=
  iff_upTo.mpr ((iff_upTo.mp h).bind fun a b hab => iff_upTo.mp (hfg a b hab))

/-- The same computation, and then two that agree on what it yields. -/
theorem bind_self {x : Except ε α} {f : α → Except ε α'} {g : α → Except ε β'}
    (hfg : ∀ a, x = .ok a → Agree R' (f a) (g a)) : Agree R' (x >>= f) (x >>= g) :=
  iff_upTo.mpr (.bind_self (fun _ => trivial) fun a ha => iff_upTo.mp (hfg a ha))

theorem map (h : Agree R x y) {f : α → α'} {g : β → β'} (hfg : ∀ a b, R a b → R' (f a) (g b)) :
    Agree R' (x.map f) (y.map g) :=
  iff_upTo.mpr ((iff_upTo.mp h).map hfg)

theorem anyM {p q : α → Except ε Bool} (h : ∀ a, Agree Eq (p a) (q a)) (items : List α) :
    Agree Eq (items.anyM p) (items.anyM q) := by
  induction items with
  | nil => exact .ok rfl
  | cons a items ih =>
    rw [List.anyM, List.anyM]
    refine (h a).bind fun found found' hfound => ?_
    subst hfound
    cases found with
    | true => exact .ok rfl
    | false => exact ih

theorem mapError {ε₁ ε₁' : Type} (h : Agree R x y) (f : ε → ε₁) (g : ε' → ε₁') :
    Agree R (x.mapError f) (y.mapError g) :=
  iff_upTo.mpr ((iff_upTo.mp h).mapError fun _ _ _ => trivial)

end Agree

/-! ## Steps that change a state -/

variable {σ : Type}

/-- Two steps in a row: the second one goes on from where the first one stopped, and a failure stops
both. -/
theorem run_bind (x : ExceptT ε (StateM σ) α) (f : α → ExceptT ε (StateM σ) β) (s : σ) :
    (x >>= f).run.run s =
      match x.run.run s with
      | (.ok a, s') => (f a).run.run s'
      | (.error e, s') => (.error e, s') := by
  have h : (x >>= f).run.run s =
      (match x.run.run s with
      | (r, s') => (ExceptT.bindCont f r).run s') := rfl
  rw [h]
  obtain ⟨r, s'⟩ := x.run.run s
  cases r <;> rfl

/-- A failure that is caught: the handler goes on from where the first step stopped. -/
theorem run_tryCatch (x : ExceptT ε (StateM σ) α) (handler : ε → ExceptT ε (StateM σ) α) (s : σ) :
    (tryCatch x handler).run.run s =
      match x.run.run s with
      | (.ok a, s') => (.ok a, s')
      | (.error e, s') => (handler e).run.run s' := by
  have h : (tryCatch x handler).run.run s =
      (match x.run.run s with
      | (r, s') => (match r with
        | .ok a => pure (.ok a)
        | .error e => (handler e).run : StateM σ (Except ε α)).run s') := rfl
  rw [h]
  obtain ⟨r, s'⟩ := x.run.run s
  cases r <;> rfl

theorem ok_of_run_bind {x : ExceptT ε (StateM σ) α} {f : α → ExceptT ε (StateM σ) β} {s s'' : σ}
    {b : β} (h : (x >>= f).run.run s = (.ok b, s'')) :
    ∃ a s', x.run.run s = (.ok a, s') ∧ (f a).run.run s' = (.ok b, s'') := by
  rw [run_bind] at h
  split at h
  · rename_i a s' hx
    exact ⟨a, s', hx, h⟩
  · cases h

theorem ok_of_run_map {x : ExceptT ε (StateM σ) α} {f : α → β} {s s' : σ} {b : β}
    (h : (f <$> x).run.run s = (.ok b, s')) : ∃ a, x.run.run s = (.ok a, s') ∧ f a = b := by
  have hmap : (f <$> x).run.run s = ((x.run.run s).1.map f, (x.run.run s).2) := by
    rw [ExceptT.run_map]
    rfl
  rw [hmap, Prod.mk.injEq] at h
  obtain ⟨a, ha, rfl⟩ := ok_of_map h.1
  exact ⟨a, Prod.ext ha h.2, rfl⟩

/-- A step without a state leaves the state as it is. -/
theorem run_liftM (x : Except ε α) (s : σ) :
    (liftM x : ExceptT ε (StateM σ) α).run.run s = (x, s) := by
  cases x <;> rfl

end TableOps
