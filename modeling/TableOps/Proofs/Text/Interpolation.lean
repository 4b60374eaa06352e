import Mathlib.Algebra.GroupWithZero.Nat
import TableOps.Proofs.Reference.Parts
import TableOps.Proofs.Text.Doubled
import TableOps.Text.Case

/-!
# Interpolation

A driver that marks values with `%s` reads the whole text: two percent signs stand for one, and no
other percent sign may stand alone. Text in which every percent sign is written twice therefore comes
out as it was, wherever it stands between placeholders.

* `interpolate` — a text read with a mark for each placeholder.
* `interpolate_doubled`, `interpolate_placeholder` — the two kinds of stretches.
* `length_of_interpolate` — what reading a text does to its length.
* `percent_not_mem_upper`, `percent_not_mem_toString` — upper case brings no percent sign into a text,
  and numbers have none.
-/

namespace TableOps.Text

/-- A text read by a driver that is given values: two percent signs stand for one, and `%s` for the
next mark. There is no other percent sign, and no mark is left over. -/
def interpolate : List String → List Char → Option (List Char)
  | [], [] => some []
  | _ :: _, [] => none
  | marks, '%' :: '%' :: cs => (interpolate marks cs).map ('%' :: ·)
  | mark :: marks, '%' :: 's' :: cs => (interpolate marks cs).map (mark.toList ++ ·)
  | marks, c :: cs => if c = '%' then none else (interpolate marks cs).map (c :: ·)

theorem interpolate_cons {c : Char} (h : c ≠ '%') (marks : List String) (cs : List Char) :
    interpolate marks (c :: cs) = (interpolate marks cs).map (c :: ·) := by
  rw [interpolate, if_neg h]
  · exact fun _ hc => absurd hc h
  · exact fun _ _ _ _ hc => absurd hc h

/-- Text with every percent sign doubled is read as it was. -/
theorem interpolate_doubled (marks : List String) (cs rest : List Char) :
    interpolate marks (doubled '%' cs ++ rest) = (interpolate marks rest).map (cs ++ ·) := by
  induction cs with
  | nil => simp
  | cons c cs ih =>
    by_cases h : c = '%'
    · subst h
      simp [interpolate, ih, Function.comp_def]
    · rw [doubled, if_neg h, List.cons_append, interpolate_cons h, ih]
      simp [Function.comp_def]

/-- A placeholder is read as the next mark. -/
theorem interpolate_placeholder (mark : String) (marks : List String) (cs : List Char) :
    interpolate (mark :: marks) ("%s".toList ++ cs) =
      (interpolate marks cs).map (mark.toList ++ ·) :=
  rfl

/-- The percent signs of a text pay for what reading it takes away: each two of them for one
character, and the one of a placeholder for half of it. -/
theorem length_of_interpolate {marks : List String} {cs ds : List Char}
    (h : interpolate marks cs = some ds) :
    2 * cs.length + 2 * (marks.map String.length).sum =
      2 * ds.length + cs.count '%' + 3 * marks.length := by
  fun_induction interpolate marks cs generalizing ds with
  | case1 =>
    cases h
    rfl
  | case2 => cases h
  | case3 marks cs ih =>
    obtain ⟨ds', hread, rfl⟩ := Option.map_eq_some_iff.mp h
    have hrest := ih hread
    simp only [List.length_cons, List.count_cons_self] at hrest ⊢
    omega
  | case4 mark marks cs ih =>
    obtain ⟨ds', hread, rfl⟩ := Option.map_eq_some_iff.mp h
    have hrest := ih hread
    have hletter : List.count '%' ('s' :: cs) = List.count '%' cs :=
      List.count_cons_of_ne (by decide)
    simp only [List.length_cons, List.length_append, List.map_cons, List.sum_cons,
      List.count_cons_self, hletter, String.length_toList] at hrest ⊢
    omega
  | case5 => cases h
  | case6 marks c cs _ _ hc ih =>
    obtain ⟨ds', hread, rfl⟩ := Option.map_eq_some_iff.mp h
    have hrest := ih hread
    rw [List.count_cons_of_ne hc, List.length_cons, List.length_cons]
    omega

/-! ## Texts without a percent sign -/

theorem eq_percent_of_ofNat {n : Nat} (h : Char.ofNat n = '%') : n = 37 := by
  unfold Char.ofNat at h
  by_cases hvalid : n.isValidChar
  · rw [dif_pos hvalid] at h
    have hcode := congrArg Char.toNat h
    exact hcode
  · rw [dif_neg hvalid] at h
    cases h

theorem raiseChar_ne_percent {c : Char} (h : c ≠ '%') : raiseChar c ≠ '%' := by
  unfold raiseChar
  split
  · rename_i hletter
    intro hraised
    -- a small letter is too far behind the percent sign
    have hcode := eq_percent_of_ofNat hraised
    have hlower : 97 ≤ c.toNat := hletter.1
    omega
  · exact h

/-- A letter outside ASCII never moves as far as the percent sign. -/
theorem shiftIn_upperRuns_ne_percent {c : Char} (h : c ≠ '%') : shiftIn upperRuns c ≠ '%' := by
  have hruns : ∀ r ∈ upperRuns, 37 < (r.first : Int) + r.shift := by decide +kernel
  unfold shiftIn
  split
  · rename_i r hfind
    intro hshifted
    have hcode := eq_percent_of_ofNat hshifted
    have hhas := List.find?_some hfind
    have hrun := hruns r (List.mem_of_find?_eq_some hfind)
    simp only [CaseRun.has, Bool.and_eq_true, decide_eq_true_eq] at hhas
    omega
  · exact h

theorem percent_not_mem_upperChar {c : Char} (h : c ≠ '%') : '%' ∉ upperChar c := by
  have hspecials : ∀ entry ∈ upperSpecials, 37 ∉ entry.2 := by decide +kernel
  unfold upperChar
  split
  · rw [List.mem_singleton]
    exact (raiseChar_ne_percent h).symm
  · split
    · rename_i codes hlookup
      obtain ⟨front, behind, hsplit, -⟩ := List.lookup_eq_some_iff.mp hlookup
      have hentry := hspecials (c.toNat, codes) (by rw [hsplit]; simp)
      intro hmem
      obtain ⟨code, hcode, heq⟩ := List.mem_map.mp hmem
      rw [eq_percent_of_ofNat heq] at hcode
      exact hentry hcode
    · rw [List.mem_singleton]
      exact (shiftIn_upperRuns_ne_percent h).symm

theorem percent_not_mem_upper {s : String} (h : '%' ∉ s.toList) : '%' ∉ (upper s).toList := by
  rw [upper, String.toList_ofList, List.mem_flatMap]
  rintro ⟨c, hc, hupper⟩
  exact percent_not_mem_upperChar (fun heq => h (heq ▸ hc)) hupper

/-- Numbers are written in digits. -/
theorem percent_not_mem_toString (n : Nat) : '%' ∉ (toString n).toList := by
  intro hmem
  have hrepr : (toString n).toList = Nat.toDigits 10 n := Nat.toList_repr
  rw [hrepr] at hmem
  exact absurd (Nat.isDigit_of_mem_toDigits (by decide) (by decide) hmem) (by decide)

end TableOps.Text
