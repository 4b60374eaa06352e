import Mathlib.Data.List.Perm.Subperm
import Mathlib.Data.Option.Basic
import TableOps.Proofs.Entries
import TableOps.Proofs.Except
import TableOps.Value.Equality
import TableOps.Value.Membership

/-!
# What equal values share

Values that are equal as data are equal to the same texts and hold the same texts, and equal
mappings have equal values under the same names.

* `Value.same_text_of_same`, `Value.holds_text_of_same` — what is read off single values.
* `Entries.Alike` — entries with equal values under the same names.

Main statement: `Value.alike_of_same`, equal mappings are alike when no name stands twice.
-/

namespace TableOps

/-! ## Equal mappings -/

/-- Entries with equal values under the same names, in whatever order. -/
def Entries.Alike (xs ys : Entries Value) : Prop :=
  ∀ key, Option.Rel (Value.same · ·) (xs.get? key) (ys.get? key)

namespace Value

/-- As a mapping, the value names nothing twice. -/
def Distinct (v : Value) : Prop :=
  ∀ members : Entries Value, v = .map members → members.keys.Nodup

theorem exists_of_sameMembers {xs ys : Entries Value} (h : sameMembers xs ys = true) {key : String}
    {v : Value} (hv : Entries.get? xs key = some v) :
    ∃ w, Entries.get? ys key = some w ∧ same v w = true := by
  induction xs with
  | nil => cases hv
  | cons entry xs ih =>
    obtain ⟨k, u⟩ := entry
    simp only [sameMembers, Bool.and_eq_true] at h
    obtain ⟨hentry, hrest⟩ := h
    by_cases hk : k = key
    · rw [Entries.get?, if_pos hk, Option.some.injEq] at hv
      subst hk hv
      cases hw : Entries.get? ys k with
      | none => simp [hw] at hentry
      | some w => exact ⟨w, rfl, by simpa [hw] using hentry⟩
    · rw [Entries.get?, if_neg hk] at hv
      exact ih hrest hv

/-- Where all names of the first mapping stand in the second and there are as many, these are all
the names there are. -/
theorem keys_perm_of_same {xs ys : Entries Value} (hnodup : xs.keys.Nodup)
    (h : same (.map xs) (.map ys) = true) : xs.keys.Perm ys.keys := by
  simp only [same, Bool.and_eq_true, beq_iff_eq] at h
  have hsubset : xs.keys ⊆ ys.keys := by
    intro key hkey
    by_contra hmissing
    cases hv : xs.get? key with
    | none => exact Entries.get?_eq_none_iff.mp hv hkey
    | some v =>
      obtain ⟨w, hw, -⟩ := exists_of_sameMembers h.2 hv
      rw [Entries.get?_eq_none_iff.mpr hmissing] at hw
      cases hw
  refine (List.subperm_of_subset hnodup hsubset).perm_of_length_le ?_
  simp [Entries.keys, h.1]

/-- Equal mappings are alike when no name stands twice. -/
theorem alike_of_same {xs ys : Entries Value} (hnodup : xs.keys.Nodup)
    (h : same (.map xs) (.map ys) = true) : xs.Alike ys := by
  have hperm := keys_perm_of_same hnodup h
  intro key
  cases hv : xs.get? key with
  | none =>
    have hmissing : ys.get? key = none :=
      Entries.get?_eq_none_iff.mpr fun hkey =>
        Entries.get?_eq_none_iff.mp hv (hperm.mem_iff.mpr hkey)
    rw [hmissing]
    exact .none
  | some v =>
    simp only [same, Bool.and_eq_true] at h
    obtain ⟨w, hw, hsame⟩ := exists_of_sameMembers h.2 hv
    rw [hw]
    exact .some hsame

/-! ## Equal values and texts -/

/-- Equal values are equal to the same texts. -/
theorem same_text_of_same {v w : Value} (h : same v w = true) (s : String) :
    same v (.text s) = same w (.text s) := by
  unfold same at h
  split at h <;> simp_all [same]

theorem any_same_text_of_sameAll : ∀ {vs ws : List Value}, sameAll vs ws = true → ∀ s : String,
    vs.any (same · (.text s)) = ws.any (same · (.text s))
  | [], [], _, _ => rfl
  | [], _ :: _, h, _ => by simp [sameAll] at h
  | _ :: _, [], h, _ => by simp [sameAll] at h
  | v :: vs, w :: ws, h, s => by
    simp only [sameAll, Bool.and_eq_true] at h
    rw [List.any_cons, List.any_cons, same_text_of_same h.1, any_same_text_of_sameAll h.2]

/-- An instance of a model is gone through by pairs, and holds no text. -/
theorem holds_checked (m : Model) (members : Entries Value) (s : String) :
    holds (.checked m (.map members)) (.text s) = .ok false := by
  show (Except.ok ((members.map fun p => pair p.1 p.2).any (same · (.text s))) :
    Except Failure Bool) = .ok false
  rw [List.any_map]
  refine congrArg Except.ok (List.any_eq_false.mpr fun p _ => ?_)
  simp [pair, same]

/-- Equal values that are no mappings hold the same texts, or cannot be gone through. -/
theorem holds_text_of_same {v w : Value} (h : same v w = true)
    (hmap : ∀ members, v ≠ .map members) (s : String) :
    Agree Eq (v.holds (.text s)) (w.holds (.text s)) := by
  cases v with
  | map members => exact absurd rfl (hmap members)
  | list vs =>
    cases w with
    | list ws => exact .ok (any_same_text_of_sameAll h s)
    | _ => simp [same] at h
  | text t =>
    cases w with
    | text t' =>
      rw [eq_of_beq h]
      exact .eq _
    | _ => simp [same] at h
  | column name =>
    cases w with
    | column name' =>
      rw [eq_of_beq h]
      exact .eq _
    | _ => simp [same] at h
  | checked m plain =>
    cases w with
    | checked n plain' =>
      simp only [same, Bool.and_eq_true] at h
      -- only the plain form of a mapping has parts
      cases plain with
      | map members =>
        cases plain' with
        | map members' =>
          rw [holds_checked, holds_checked]
          exact .ok rfl
        | _ => simp [same] at h
      | _ =>
        cases plain' with
        | map members' => simp [same] at h
        | _ => exact .error _ _
    | _ => simp [same] at h
  | _ =>
    cases w with
    | null | bool | int | float | transformer | expression | connection | database =>
      exact .error _ _
    | _ => simp [same] at h

end Value

end TableOps
