import Mathlib.Tactic.Common
import TableOps.Text.Blank
import TableOps.Text.Case

/-!
# Kinds of characters

What lower case yields is in lower case: no letter is shifted onto one that is shifted itself. So a
text is put into lower case once and for all, and a text of such characters stays as it is.

* `exists_ascii` — the characters of ASCII, for facts that are looked up one by one.
* `IsLowered` — a character that is its own lower case, wherever it stands.
* `CaseRun.apart` — the letters that a run shifts to are none of those that another run shifts;
  `isApart_lowerRuns`, this holds of all runs of the table.
* `lower_eq_self` — a text of such characters stays as it is.
* `lower_eq_fold` — a text of ASCII is put into lower case letter by letter.

Main statement: `isLowered_of_mem_lower`, lower case yields characters in lower case.
-/

namespace TableOps.Text

/-- A character of ASCII is one of 128. -/
theorem exists_ascii {c : Char} (h : c.toNat < 128) : ∃ n : Fin 128, c = Char.ofNat n :=
  ⟨⟨c.toNat, h⟩, (Char.ofNat_toNat c).symm⟩

/-! ## Characters in lower case -/

/-- A character that is its own lower case, wherever it stands. -/
def IsLowered (c : Char) : Prop :=
  ∀ before after, lowerChar before c after = [c]

theorem isLowered_of_ascii {c : Char} (h : c.toNat < 128) (hfold : foldChar c = c) : IsLowered c :=
  fun _ _ => by rw [lowerChar, if_pos h, hfold]

/-- A letter beyond ASCII that no run shifts is its own lower case, but for two capitals. -/
theorem isLowered_of_shiftIn {c : Char} (hascii : ¬ c.toNat < 128) (hsigma : c ≠ 'Σ')
    (hdotted : c ≠ 'İ') (h : shiftIn lowerRuns c = c) : IsLowered c :=
  fun _ _ => by rw [lowerChar, if_neg hascii, if_neg hsigma, if_neg hdotted, h]

theorem foldChar_of_ascii {c : Char} (h : c.toNat < 128) :
    (foldChar c).toNat < 128 ∧ foldChar (foldChar c) = foldChar c := by
  obtain ⟨n, rfl⟩ := exists_ascii h
  revert n
  decide

/-! ## Runs that are apart -/

/-- The code that a run shifts a code to. -/
def CaseRun.target (r : CaseRun) (n : Nat) : Nat :=
  Int.toNat (n + r.shift)

namespace CaseRun

/-- No letter that the run shifts to, from `low` to `high`, is one that `q` shifts: they are all below
or above these, or only every second letter is shifted, and those between them are shifted to. -/
def apart (r : CaseRun) (low high : Nat) (q : CaseRun) : Bool :=
  !(Nat.ble low q.last && Nat.ble q.first high) ||
    ((Nat.beq r.step 2 || Nat.beq low high) && Nat.beq q.step 2 &&
      Nat.beq ((low + q.first) % 2) 1)

/-- The letters that the run shifts to are none that a table shifts, no capitals of ASCII, and not
the capital I with a dot. -/
def isApart (table : List CaseRun) (r : CaseRun) : Bool :=
  table.all (r.apart (r.target r.first) (r.target r.last)) && Nat.blt 'Z'.toNat (r.target r.first) &&
    !(Nat.ble (r.target r.first) 'İ'.toNat && Nat.ble 'İ'.toNat (r.target r.last))

variable {r q : CaseRun} {n : Nat}

/-- A letter of a run is shifted to between where the first and the last one are, and lies as far
behind the first one as before. -/
theorem target_of_has (hfirst : 0 < r.target r.first) (h : r.has n = true) :
    r.target r.first ≤ r.target n ∧ r.target n ≤ r.target r.last ∧
      r.target n - r.target r.first = n - r.first := by
  simp only [has, Bool.and_eq_true, decide_eq_true_eq] at h
  simp only [target] at hfirst ⊢
  omega

/-- A letter that is shifted to is not shifted by a run that the letters are apart from. -/
theorem has_target_of_apart (hfirst : 0 < r.target r.first) (h : r.has n = true)
    (hq : r.apart (r.target r.first) (r.target r.last) q = true) : q.has (r.target n) = false := by
  obtain ⟨hlow, hhigh, hdist⟩ := target_of_has hfirst h
  rw [Bool.eq_false_iff]
  intro hhas
  simp only [has, Bool.and_eq_true, decide_eq_true_eq, beq_iff_eq] at h hhas
  obtain ⟨⟨hqfirst, hqlast⟩, hqstep⟩ := hhas
  simp only [apart, Nat.ble_eq, Nat.beq_eq, Bool.or_eq_true, Bool.and_eq_true,
    Bool.not_eq_true', ← Bool.not_eq_true] at hq
  rcases hq with hq | ⟨⟨hr, htwo⟩, hodd⟩
  · exact hq ⟨Nat.le_trans hlow hqlast, Nat.le_trans hqfirst hhigh⟩
  · rw [htwo] at hqstep
    rcases hr with hr | hr
    · rw [hr] at h
      omega
    · omega

/-- The letters that a run shifts to are not shifted by any run of a table that it is apart from. -/
theorem find?_target {table : List CaseRun} (hr : r.isApart table = true) (h : r.has n = true) :
    table.find? (·.has (r.target n)) = none := by
  simp only [isApart, Bool.and_eq_true, List.all_eq_true, Nat.blt_eq] at hr
  rw [List.find?_eq_none]
  intro q hq
  rw [has_target_of_apart (Nat.zero_lt_of_lt hr.1.2) h (hr.1.1 q hq)]
  decide

end CaseRun

set_option maxRecDepth 10000 in
/-- The runs of lower case are apart. -/
theorem isApart_lowerRuns : lowerRuns.all (CaseRun.isApart lowerRuns) = true := by
  decide +kernel

theorem shiftIn_eq {c d : Char} {table : List CaseRun} (h : shiftIn table c = d) :
    d = c ∧ table.find? (·.has c.toNat) = none ∨
      ∃ r ∈ table, r.has c.toNat = true ∧ d = Char.ofNat (r.target c.toNat) := by
  unfold shiftIn at h
  split at h
  · rename_i r hr
    exact .inr ⟨r, List.mem_of_find?_eq_some hr, by simpa using List.find?_some hr, h.symm⟩
  · rename_i hnone
    exact .inl ⟨h.symm, hnone⟩

/-- The code of the character with a code, which is the first character when there is none. -/
theorem toNat_ofNat (n : Nat) : (Char.ofNat n).toNat = n ∨ Char.ofNat n = Char.ofNat 0 := by
  by_cases h : n.isValidChar
  · left
    rw [Char.ofNat, dif_pos h]
    rfl
  · right
    rw [Char.ofNat, dif_neg h]
    rfl

/-- The letter that a run of lower case shifts to is in lower case. -/
theorem isLowered_target {r : CaseRun} {n : Nat} (hr : r ∈ lowerRuns) (h : r.has n = true) :
    IsLowered (Char.ofNat (r.target n)) := by
  have hapart : r.isApart lowerRuns = true := List.all_eq_true.mp isApart_lowerRuns r hr
  have hfind := CaseRun.find?_target hapart h
  simp only [CaseRun.isApart, Bool.and_eq_true, Nat.blt_eq, Bool.not_eq_true', Nat.ble_eq,
    ← Bool.not_eq_true] at hapart
  obtain ⟨⟨_, hz⟩, hdotted⟩ := hapart
  obtain ⟨hlow, hhigh, _⟩ := CaseRun.target_of_has (Nat.zero_lt_of_lt hz) h
  rcases toNat_ofNat (r.target n) with hcode | hzero
  · rw [← hcode] at hfind hlow hhigh
    generalize Char.ofNat (r.target n) = c at hfind hlow hhigh
    by_cases hascii : c.toNat < 128
    · refine isLowered_of_ascii hascii (if_neg fun hcapital => ?_)
      exact absurd hcapital.2 (Nat.not_le.mpr (Nat.lt_of_lt_of_le hz hlow))
    · refine isLowered_of_shiftIn hascii ?_ ?_ (by rw [shiftIn, hfind])
      · rintro rfl
        cases hfind
      · rintro rfl
        exact hdotted ⟨hlow, hhigh⟩
  · rw [hzero]
    exact isLowered_of_ascii (by decide) (by decide)

/-! ## Texts in lower case -/

theorem isLowered_of_mem_lowerChar {before after : List Char} {c d : Char}
    (h : d ∈ lowerChar before c after) : IsLowered d := by
  unfold lowerChar at h
  split at h
  · rename_i hascii
    rw [List.mem_singleton.mp h]
    exact isLowered_of_ascii (foldChar_of_ascii hascii).1 (foldChar_of_ascii hascii).2
  · split at h
    · rw [List.mem_singleton.mp h]
      split
      · exact isLowered_of_shiftIn (by decide) (by decide) (by decide) (by decide +kernel)
      · exact isLowered_of_shiftIn (by decide) (by decide) (by decide) (by decide +kernel)
    · split at h
      · simp only [List.mem_cons, List.not_mem_nil, or_false] at h
        rcases h with rfl | rfl
        · exact isLowered_of_ascii (by decide) (by decide)
        · exact isLowered_of_shiftIn (by decide) (by decide) (by decide) (by decide +kernel)
      · rename_i hascii hsigma hdotted
        rw [List.mem_singleton.mp h]
        rcases shiftIn_eq (rfl : shiftIn lowerRuns c = _) with ⟨heq, _⟩ | ⟨r, hr, hhas, heq⟩
        · rw [heq]
          exact isLowered_of_shiftIn hascii hsigma hdotted heq
        · rw [heq]
          exact isLowered_target hr hhas

theorem isLowered_of_mem_lowerFrom {before cs : List Char} {d : Char}
    (h : d ∈ lowerFrom before cs) : IsLowered d := by
  induction cs generalizing before with
  | nil => cases h
  | cons c cs ih =>
    rcases List.mem_append.mp h with h | h
    · exact isLowered_of_mem_lowerChar h
    · exact ih h

/-- Lower case yields characters in lower case. -/
theorem isLowered_of_mem_lower {s : String} {d : Char} (h : d ∈ (lower s).toList) :
    IsLowered d := by
  rw [lower, String.toList_ofList] at h
  exact isLowered_of_mem_lowerFrom h

/-- A text of characters in lower case is in lower case. -/
theorem lower_eq_self {s : String} (h : ∀ c ∈ s.toList, IsLowered c) : lower s = s := by
  have hfrom : ∀ (before cs : List Char), (∀ c ∈ cs, IsLowered c) → lowerFrom before cs = cs := by
    intro before cs hcs
    induction cs generalizing before with
    | nil => rfl
    | cons c cs ih =>
      rw [List.forall_mem_cons] at hcs
      rw [lowerFrom, hcs.1, ih _ hcs.2, List.singleton_append]
  rw [lower, hfrom [] s.toList h, String.ofList_toList]

/-! ## Folded texts -/

/-- A character that is not a capital of ASCII is folded onto itself. -/
theorem foldChar_eq_or (c : Char) : foldChar c = c ∨ c.toNat < 128 := by
  unfold foldChar
  split
  · rename_i hcapital
    exact .inr (Nat.lt_of_le_of_lt hcapital.2 (by decide))
  · exact .inl rfl

theorem ascii_of_foldChar {c : Char} (h : (foldChar c).toNat < 128) : c.toNat < 128 := by
  rcases foldChar_eq_or c with heq | hascii
  · rwa [heq] at h
  · exact hascii

/-- Letters are folded onto letters. -/
theorem eq_of_foldChar {c d : Char} (h : foldChar c = d) (hd : ¬ ('a' ≤ d ∧ d ≤ 'z')) : c = d := by
  rcases foldChar_eq_or c with heq | hascii
  · exact heq.symm.trans h
  · subst h
    obtain ⟨n, rfl⟩ := exists_ascii hascii
    revert n
    decide

theorem isBlank_foldChar (c : Char) : isBlank (foldChar c) = isBlank c := by
  rcases foldChar_eq_or c with heq | hascii
  · rw [heq]
  · obtain ⟨n, rfl⟩ := exists_ascii hascii
    revert n
    decide +kernel

/-- A text of ASCII is put into lower case by folding its letters. -/
theorem lower_eq_fold {s : String} (h : ∀ c ∈ s.toList, c.toNat < 128) : lower s = fold s := by
  have hfrom : ∀ (before cs : List Char), (∀ c ∈ cs, c.toNat < 128) →
      lowerFrom before cs = cs.map foldChar := by
    intro before cs hcs
    induction cs generalizing before with
    | nil => rfl
    | cons c cs ih =>
      rw [List.forall_mem_cons] at hcs
      rw [lowerFrom, lowerChar, if_pos hcs.1, ih _ hcs.2]
      rfl
  rw [lower, hfrom [] s.toList h, fold]

end TableOps.Text
