import Mathlib.Data.List.Forall2
import TableOps.Proofs.Entries
import TableOps.Proofs.Except
import TableOps.Result

/-!
# Transformed rows

A table of transformers is applied to a row one transformer after the other, each to the value that
the row has under its name. As a name stands in the table once, every value is transformed at most
once, and the row keeps its columns.

* `Transformers` — what is made of the values under some names; `Transformers.ofValues`, the table of
  an expression, whose transformers refer to functions.
* `Transformers.Accepts` — no transformer fails on a row.
* `Transformers.Shapes` — what a row becomes.

Main statement: `Transformers.shapes_of_accepts`, a row that is accepted becomes what it should.
-/

namespace TableOps

/-- What is made of the values under some names. A transformer may be any function. -/
abbrev Transformers := Entries (Value → Except Failure Value)

namespace Transformers

variable {ts : Transformers} {row row' : Row}

/-- The table of an expression: each transformer stands for the function that it refers to. -/
def ofValues (fs : Functions) (transformers : Entries Value) : Transformers :=
  transformers.mapValues fs.apply

/-- A row with one transformer applied to the value under its name, if there is one. -/
def applyOne (row : Row) (name : String) (f : Value → Except Failure Value) : Except Failure Row :=
  match row.get? name with
  | none => .ok row
  | some v => (f v).map fun w => row.put name w

/-- A row with the transformers applied. -/
def applyTo (ts : Transformers) (row : Row) : Except Failure Row :=
  ts.foldlM (fun row (name, f) => applyOne row name f) row

theorem transformRow_eq (fs : Functions) (transformers : Entries Value) :
    transformRow fs transformers = (ofValues fs transformers).applyTo := by
  funext row
  simp only [applyTo, ofValues, Entries.mapValues, List.foldlM_map]
  rfl

theorem transformRows_eq (fs : Functions) (transformers : Entries Value) :
    transformRows fs transformers = List.mapM (ofValues fs transformers).applyTo := by
  rw [← transformRow_eq]
  rfl

/-! ## One row -/

/-- No transformer fails on the values of the row. -/
def Accepts (ts : Transformers) (row : Row) : Prop :=
  ∀ name f v, ts.get? name = some f → row.get? name = some v → ∃ w, f v = .ok w

/-- The second row has the columns of the first one in their order. The value under a name with a
transformer is what that makes of the value in the first row, and every other one is the same. -/
structure Shapes (ts : Transformers) (row row' : Row) : Prop where
  keys : row'.keys = row.keys
  transformed : ∀ name f v, ts.get? name = some f → row.get? name = some v →
    ∃ w, f v = .ok w ∧ row'.get? name = some w
  unchanged : ∀ name, ts.get? name = none → row'.get? name = row.get? name

theorem applyOne_of_ok {name : String} {f : Value → Except Failure Value}
    (h : ∀ v, row.get? name = some v → ∃ w, f v = .ok w) :
    ∃ row', applyOne row name f = .ok row' ∧ row'.keys = row.keys ∧
      (∀ v, row.get? name = some v → ∃ w, f v = .ok w ∧ row'.get? name = some w) ∧
      ∀ other, name ≠ other → row'.get? other = row.get? other := by
  unfold applyOne
  cases hv : row.get? name with
  | none =>
    refine ⟨row, rfl, rfl, fun v hv' => ?_, fun _ _ => rfl⟩
    cases hv'
  | some v =>
    obtain ⟨w, hw⟩ := h v hv
    have hmem : name ∈ row.keys := by
      by_contra hnone
      rw [Entries.get?_eq_none_iff.mpr hnone] at hv
      cases hv
    refine ⟨row.put name w, ?_, ?_, fun v' hv' => ?_, fun other hne => ?_⟩
    · exact congrArg (Except.map fun w => row.put name w) hw
    · rw [Entries.keys_put, if_pos hmem]
    · cases hv'
      exact ⟨w, hw, by rw [Entries.get?_put, if_pos rfl]⟩
    · rw [Entries.get?_put, if_neg hne]

/-- A row on which no transformer fails becomes what it should: each transformer only changes the
value under its own name, which no other one reads. -/
theorem shapes_of_accepts (hts : ts.keys.Nodup) (h : ts.Accepts row) :
    ∃ row', ts.applyTo row = .ok row' ∧ ts.Shapes row row' := by
  induction ts generalizing row with
  | nil => exact ⟨row, rfl, ⟨rfl, fun _ _ _ hf => (nomatch hf), fun _ _ => rfl⟩⟩
  | cons entry ts ih =>
    obtain ⟨name, f⟩ := entry
    obtain ⟨hname, hrest⟩ := List.nodup_cons.mp hts
    have hnone : Entries.get? ts name = none := Entries.get?_eq_none_iff.mpr hname
    have hself : Entries.get? ((name, f) :: ts) name = some f := if_pos rfl
    have hother : ∀ other, name ≠ other → Entries.get? ((name, f) :: ts) other =
        Entries.get? ts other := fun other hne => if_neg hne
    have hreads : ∀ v, row.get? name = some v → ∃ w, f v = .ok w := fun v => h name f v hself
    obtain ⟨middle, hmiddle, hkeys, hchanged, hkept⟩ := applyOne_of_ok hreads
    have haccepts : Accepts ts middle := by
      intro other g v hg hv
      have hne : name ≠ other := by
        rintro rfl
        rw [hnone] at hg
        cases hg
      exact h other g v ((hother other hne).trans hg) ((hkept other hne).symm.trans hv)
    obtain ⟨row', hrow', hshapes⟩ := ih hrest haccepts
    have hrun : applyTo ((name, f) :: ts) row = applyOne row name f >>= applyTo ts := by
      rw [applyTo, List.foldlM_cons]
      rfl
    refine ⟨row', ?_, ⟨hshapes.keys.trans hkeys, fun other g v hg hv => ?_, fun other hg => ?_⟩⟩
    · rw [hrun, hmiddle]
      exact hrow'
    · by_cases hne : name = other
      · subst hne
        cases hself.symm.trans hg
        obtain ⟨w, hw, hget⟩ := hchanged v hv
        exact ⟨w, hw, (hshapes.unchanged name hnone).trans hget⟩
      · exact hshapes.transformed other g v ((hother other hne).symm.trans hg)
          ((hkept other hne).trans hv)
    · have hne : name ≠ other := by
        rintro rfl
        cases hself.symm.trans hg
      exact (hshapes.unchanged other ((hother other hne).symm.trans hg)).trans (hkept other hne)

/-! ## Rows -/

/-- Rows on which no transformer fails become what they should, one by one. -/
theorem mapM_of_accepts {rows : List Row} (hts : ts.keys.Nodup) (h : ∀ row ∈ rows, ts.Accepts row) :
    ∃ rows', rows.mapM ts.applyTo = .ok rows' ∧ List.Forall₂ ts.Shapes rows rows' := by
  induction rows with
  | nil => exact ⟨[], rfl, .nil⟩
  | cons row rows ih =>
    obtain ⟨hrow, hrows⟩ := List.forall_mem_cons.mp h
    obtain ⟨row', hrow', hshapes⟩ := shapes_of_accepts hts hrow
    obtain ⟨rows', hrows', hall⟩ := ih hrows
    refine ⟨row' :: rows', ?_, .cons hshapes hall⟩
    rw [List.mapM_cons, hrow', hrows']
    rfl

end Transformers

end TableOps
