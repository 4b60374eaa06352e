import Mathlib.Tactic.Common
import TableOps.Text.Cut

/-!
# Cutting texts

What a cut at the first or the last separator yields, and where a text is cut that is put together
around a separator.

* `Text.cutFirst?_eq_some`, `Text.cutLast?_eq_some` — the parts, of which one has no separator.
* `Text.cutFirst?_append`, `Text.cutLast?_append` — the cut at the separator in the middle: at the
  first one when none stands in front of it, at the last one when none stands behind it.
* `Text.contains_append_cons`, `Text.contains_append_cons_self` — a text that stands on one side of a
  separator, or begins with it.
-/

namespace TableOps.Text

variable {sep : Char} {cs front back : List Char}

/-! ## At the first separator -/

theorem cutFirst?_append (h : sep ∉ front) (back : List Char) :
    cutFirst? sep (front ++ sep :: back) = some (front, back) := by
  induction front with
  | nil => simp [cutFirst?]
  | cons c front ih =>
    rw [List.mem_cons, not_or] at h
    rw [List.cons_append, cutFirst?, if_neg (Ne.symm h.1), ih h.2]
    rfl

theorem cutFirst?_eq_none_iff : cutFirst? sep cs = none ↔ sep ∉ cs := by
  induction cs with
  | nil => simp [cutFirst?]
  | cons c cs ih =>
    rw [cutFirst?, List.mem_cons, not_or, ← ih]
    by_cases hc : c = sep
    · simp [hc]
    · simp [hc, Ne.symm hc]

/-- The first separator stands between the two parts, and none is in front of it. -/
theorem cutFirst?_eq_some (h : cutFirst? sep cs = some (front, back)) :
    cs = front ++ sep :: back ∧ sep ∉ front := by
  induction cs generalizing front with
  | nil => cases h
  | cons c cs ih =>
    rw [cutFirst?] at h
    by_cases hc : c = sep
    · rw [if_pos hc] at h
      cases h
      exact ⟨by rw [hc]; rfl, List.not_mem_nil⟩
    · rw [if_neg hc] at h
      obtain ⟨⟨before, after⟩, hcut, heq⟩ := Option.map_eq_some_iff.mp h
      cases heq
      obtain ⟨hcs, hsep⟩ := ih hcut
      refine ⟨by rw [hcs]; rfl, ?_⟩
      rw [List.mem_cons, not_or]
      exact ⟨Ne.symm hc, hsep⟩

/-! ## At the last separator -/

theorem cutLast?_eq_none_iff : cutLast? sep cs = none ↔ sep ∉ cs := by
  induction cs with
  | nil => simp [cutLast?]
  | cons c cs ih =>
    rw [cutLast?, List.mem_cons, not_or, ← ih]
    cases h : cutLast? sep cs with
    | some parts => simp
    | none => by_cases hc : c = sep <;> simp [hc, @eq_comm _ sep]

/-- The last separator stands between the two parts, and none is left behind it. -/
theorem cutLast?_eq_some {before after : List Char}
    (h : cutLast? sep cs = some (before, after)) : cs = before ++ sep :: after ∧ sep ∉ after := by
  induction cs generalizing before with
  | nil => cases h
  | cons c cs ih =>
    rw [cutLast?] at h
    cases hcut : cutLast? sep cs with
    | some parts =>
      obtain ⟨front, behind⟩ := parts
      rw [hcut] at h
      cases h
      obtain ⟨hcs, hsep⟩ := ih hcut
      exact ⟨by rw [hcs]; rfl, hsep⟩
    | none =>
      rw [hcut] at h
      -- the first character is the only separator
      by_cases hc : c = sep
      · rw [if_pos hc] at h
        cases h
        exact ⟨by rw [hc]; rfl, cutLast?_eq_none_iff.mp hcut⟩
      · rw [if_neg hc] at h
        cases h

theorem cutLast?_append (h : sep ∉ back) (front : List Char) :
    cutLast? sep (front ++ sep :: back) = some (front, back) := by
  induction front with
  | nil => rw [List.nil_append, cutLast?, cutLast?_eq_none_iff.mpr h, if_pos rfl]
  | cons c front ih => rw [List.cons_append, cutLast?, ih]

/-! ## Texts that stand in a text -/

theorem subset_of_contains {part : List Char} (h : contains part cs = true) : part ⊆ cs := by
  induction cs with
  | nil =>
    rw [List.isEmpty_iff.mp h]
    exact List.nil_subset _
  | cons c cs ih =>
    rcases Bool.or_eq_true_iff.mp h with h | h
    · exact (List.isPrefixOf_iff_prefix.mp h).subset
    · exact List.subset_cons_of_subset c (ih h)

theorem contains_eq_false {part : List Char} {c : Char} (hpart : c ∈ part) (h : c ∉ cs) :
    contains part cs = false := by
  rw [Bool.eq_false_iff]
  exact fun hcontains => h (subset_of_contains hcontains hpart)

theorem isPrefixOf_append_cons {part : List Char} (h : sep ∉ part) (front back : List Char) :
    part.isPrefixOf (front ++ sep :: back) = part.isPrefixOf front := by
  induction part generalizing front with
  | nil => simp
  | cons p part ih =>
    rw [List.mem_cons, not_or] at h
    cases front with
    | nil => simp [List.isPrefixOf, Ne.symm h.1]
    | cons c front => rw [List.cons_append, List.isPrefixOf, List.isPrefixOf, ih h.2]

/-- A text without the separator stands in front of it or behind it. -/
theorem contains_append_cons {part : List Char} (h : sep ∉ part) (front back : List Char) :
    contains part (front ++ sep :: back) = (contains part front || contains part back) := by
  have hcons : ∀ (c : Char) (cs : List Char),
      contains part (c :: cs) = (part.isPrefixOf (c :: cs) || contains part cs) := fun _ _ => rfl
  induction front with
  | nil =>
    have hfront := isPrefixOf_append_cons h [] back
    rw [List.nil_append] at hfront ⊢
    rw [hcons, hfront]
    cases part <;> rfl
  | cons c front ih =>
    have hfront := isPrefixOf_append_cons h (c :: front) back
    rw [List.cons_append] at hfront ⊢
    rw [hcons, hcons, hfront, ih, Bool.or_assoc]

/-- A text whose first character stands once in another is there where that character stands. -/
theorem contains_append_cons_self {part : List Char} (hfront : sep ∉ front) (hback : sep ∉ back) :
    contains (sep :: part) (front ++ sep :: back) = part.isPrefixOf back := by
  have hnot : contains (sep :: part) back = false := contains_eq_false List.mem_cons_self hback
  induction front with
  | nil => simp [contains, hnot]
  | cons c front ih =>
    rw [List.mem_cons, not_or] at hfront
    simp [contains, List.isPrefixOf, hfront.1, ih hfront.2]

end TableOps.Text
