import Mathlib.Data.List.Infix
import TableOps.Text.Cut

/-!
# Doubled and halved characters

A character is doubled where it would be read as something else, and halved where two of it in a row
are read as one.

* `doubled_append`, `doubled_subset`, `length_doubled`, `count_doubled_self` — the characters of a text
  with a mark doubled; `doubled_ne_dotted`, what stands behind its first mark.
* `halved_append`, `halved_doubled_append` — halving one stretch after the other.
* `length_halved_le`, `halved_eq_self_iff` — halving makes a text shorter unless no two marks are in a
  row.
-/

namespace TableOps.Text

/-! ## Doubling -/

theorem doubled_append (mark : Char) (cs ds : List Char) :
    doubled mark (cs ++ ds) = doubled mark cs ++ doubled mark ds := by
  induction cs with
  | nil => rfl
  | cons c cs ih => by_cases h : c = mark <;> simp [h, ih]

/-- Doubling a character brings no other character into a text. -/
theorem doubled_subset (mark : Char) (cs : List Char) : doubled mark cs ⊆ cs := by
  induction cs with
  | nil => exact List.Subset.refl _
  | cons c cs ih =>
    unfold doubled
    split
    · rename_i h
      intro d hd
      rw [h, List.mem_cons]
      rw [List.mem_cons, List.mem_cons, ← or_assoc, or_self] at hd
      exact hd.imp_right fun hd => ih hd
    · exact List.cons_subset_cons c ih

theorem length_doubled (mark : Char) (cs : List Char) :
    (doubled mark cs).length = cs.length + cs.count mark := by
  induction cs with
  | nil => rfl
  | cons c cs ih =>
    by_cases h : c = mark
    · subst h
      rw [doubled, if_pos rfl, List.length_cons, List.length_cons, ih, List.length_cons,
        List.count_cons_self]
      omega
    · rw [doubled, if_neg h, List.length_cons, ih, List.length_cons, List.count_cons_of_ne h]
      omega

theorem count_doubled_self (mark : Char) (cs : List Char) :
    (doubled mark cs).count mark = 2 * cs.count mark := by
  induction cs with
  | nil => rfl
  | cons c cs ih =>
    unfold doubled
    by_cases h : c = mark
    · subst h
      simp [ih]
      omega
    · simp [h, ih]

theorem count_doubled_of_ne {mark other : Char} (h : mark ≠ other) (cs : List Char) :
    (doubled other cs).count mark = cs.count mark := by
  induction cs with
  | nil => rfl
  | cons c cs ih =>
    unfold doubled
    by_cases hc : c = other
    · subst hc
      simp [Ne.symm h, ih]
    · simp [hc, List.count_cons, ih]

/-- Behind the first mark of doubled characters and a closing mark there is no dot: the mark is either
doubled or the last one. -/
theorem doubled_ne_dotted {mark : Char} (hdot : mark ≠ '.') {cs front rest : List Char}
    (hfront : mark ∉ front) : doubled mark cs ++ [mark] ≠ front ++ mark :: '.' :: rest := by
  induction cs generalizing front with
  | nil =>
    intro h
    have hlength := congrArg List.length h
    simp at hlength
    omega
  | cons c cs ih =>
    intro h
    cases front with
    | nil =>
      unfold doubled at h
      split at h
      · simp [hdot] at h
      · rename_i hc
        simp [hc] at h
    | cons d front =>
      rw [List.mem_cons, not_or] at hfront
      unfold doubled at h
      split at h
      · injection h with hhead
        exact hfront.1 hhead
      · injection h with hhead htail
        exact ih hfront.2 htail

/-! ## Halving -/

/-- A text in which every mark is doubled is halved to what it was, whatever is behind it. -/
theorem halved_doubled_append (mark : Char) (cs ds : List Char) :
    halved mark (doubled mark cs ++ ds) = cs ++ halved mark ds := by
  induction cs with
  | nil => rfl
  | cons c cs ih =>
    by_cases h : c = mark
    · subst h
      rw [doubled, if_pos rfl, List.cons_append, List.cons_append, halved, if_pos ⟨rfl, rfl⟩, ih,
        List.cons_append]
    · rw [doubled, if_neg h, List.cons_append]
      cases hrest : doubled mark cs ++ ds with
      | nil =>
        rw [hrest] at ih
        rw [halved, List.cons_append, ← ih]
        rfl
      | cons d rest =>
        rw [halved, if_neg fun hboth => h hboth.1, ← hrest, ih, List.cons_append]

/-- Two texts are halved one by one when no mark at the end of the first meets one at the beginning
of the second. -/
theorem halved_append {mark : Char} {cs ds : List Char}
    (h : cs.getLast? = some mark → ds.head? ≠ some mark) :
    halved mark (cs ++ ds) = halved mark cs ++ halved mark ds := by
  induction cs using halved.induct mark with
  | case1 => rfl
  | case2 c =>
    cases ds with
    | nil => rfl
    | cons d ds =>
      have hne : ¬ (c = mark ∧ d = mark) := by
        rintro ⟨rfl, rfl⟩
        exact h rfl rfl
      show halved mark (c :: d :: ds) = c :: halved mark (d :: ds)
      rw [halved, if_neg hne]
  | case3 c d cs hboth ih =>
    have hrest : cs.getLast? = some mark → ds.head? ≠ some mark := by
      intro hlast
      refine h ?_
      rw [List.getLast?_cons_cons, List.getLast?_cons, hlast]
      rfl
    rw [List.cons_append, List.cons_append, halved, if_pos hboth, ih hrest, halved, if_pos hboth,
      List.cons_append]
  | case4 c d cs hne ih =>
    have hrest : (d :: cs).getLast? = some mark → ds.head? ≠ some mark := by
      rw [← List.getLast?_cons_cons (a := c)]
      exact h
    rw [List.cons_append, List.cons_append, halved, if_neg hne, ← List.cons_append, ih hrest, halved,
      if_neg hne, List.cons_append]

/-- Halving makes no text longer. -/
theorem length_halved_le (mark : Char) (cs : List Char) : (halved mark cs).length ≤ cs.length := by
  induction cs using halved.induct mark with
  | case1 => exact Nat.le_refl _
  | case2 c => exact Nat.le_refl _
  | case3 c d cs hboth ih =>
    rw [halved, if_pos hboth, List.length_cons, List.length_cons, List.length_cons]
    omega
  | case4 c d cs hne ih =>
    rw [halved, if_neg hne, List.length_cons, List.length_cons]
    omega

/-- A text that is halved in two parts comes out as it was meant when both parts do, unless the second
one gets longer. -/
theorem halved_append_eq_append_iff {mark : Char} {front cs ds : List Char}
    (hle : (halved mark cs).length ≤ ds.length) :
    halved mark front ++ halved mark cs = front ++ ds ↔
      halved mark front = front ∧ halved mark cs = ds := by
  constructor
  · intro heq
    have hshort := length_halved_le mark front
    have hlength := congrArg List.length heq
    rw [List.length_append, List.length_append] at hlength
    exact List.append_inj heq (by omega)
  · rintro ⟨hfront, hrest⟩
    rw [hfront, hrest]

/-- The texts that halving leaves as they are have no two marks in a row. -/
theorem halved_eq_self_iff {mark : Char} {cs : List Char} :
    halved mark cs = cs ↔ ¬ [mark, mark] <:+: cs := by
  induction cs using halved.induct mark with
  | case1 => simp
  | case2 c =>
    refine iff_of_true rfl fun hstands => ?_
    have hlength := hstands.length_le
    simp at hlength
  | case3 c d cs hboth ih =>
    obtain ⟨rfl, rfl⟩ := hboth
    refine iff_of_false (fun heq => ?_) (not_not_intro ⟨[], cs, rfl⟩)
    have hlength := congrArg List.length heq
    have hle := length_halved_le d cs
    rw [halved, if_pos ⟨rfl, rfl⟩, List.length_cons, List.length_cons, List.length_cons] at hlength
    omega
  | case4 c d cs hne ih =>
    rw [halved, if_neg hne, List.cons.injEq, List.infix_cons_iff, ih, not_or]
    simp only [true_and]
    refine (and_iff_right fun hfront => hne ?_).symm
    simpa [List.cons_prefix_cons, eq_comm] using hfront

end TableOps.Text
