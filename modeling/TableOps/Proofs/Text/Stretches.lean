import TableOps.Proofs.Text.Blanks
import TableOps.Proofs.Text.Cuts

/-!
# Stretches of a text

A text is cut into words at its blanks and into parts at a separator. Both cuts are read off a text
that is put together from stretches: a gap of blanks ends a word, and only what stands behind the last
separator is in the last part.

* `Gap` — some blanks; `Inked`, a text that begins and ends with something else.
* `trim_wrapped` — blanks around a text are trimmed away.
* `words_append_gap`, `words_eq_self` — the words on both sides of a gap, and of a text without one.
* `lastWord`, `behindLast` — the stretch behind the last blank or separator, with the laws for what
  is put in front of it; `getLast?_splitOn`, it is the last part.
-/

namespace TableOps.Text

/-! ## The last stretch -/

section

variable {α : Type*} {p : α → Bool}

theorem rtakeWhile_append_of_pos (front : List α) {back : List α} (h : ∀ a ∈ back, p a) :
    (front ++ back).rtakeWhile p = front.rtakeWhile p ++ back := by
  induction back using List.reverseRecOn with
  | nil => simp
  | append_singleton back a ih =>
    rw [List.forall_mem_append, List.forall_mem_singleton] at h
    rw [← List.append_assoc, List.rtakeWhile_concat_pos _ _ _ h.2, ih h.1, List.append_assoc]

theorem rtakeWhile_append_cons (front : List α) {a : α} (h : ¬ p a) (back : List α) :
    (front ++ a :: back).rtakeWhile p = back.rtakeWhile p := by
  induction back using List.reverseRecOn with
  | nil => exact List.rtakeWhile_concat_neg _ _ _ h
  | append_singleton back b ih =>
    have hwhole : front ++ a :: (back ++ [b]) = front ++ a :: back ++ [b] := by simp
    rw [hwhole, List.rtakeWhile_concat, List.rtakeWhile_concat, ih]

end

/-- Some blanks. -/
structure Gap (gap : List Char) : Prop where
  nonempty : gap ≠ []
  blanks : ∀ c ∈ gap, isBlank c = true

/-- A text that begins and ends with something other than a blank. -/
structure Inked (cs : List Char) : Prop where
  nonempty : cs ≠ []
  first : ∀ c, cs.head? = some c → isBlank c = false
  last : ∀ c, cs.getLast? = some c → isBlank c = false

variable {cs ds front back gap : List Char}

theorem gap_of_all (hne : gap ≠ []) (h : gap.all isBlank = true) : Gap gap :=
  ⟨hne, fun c hc => List.all_eq_true.mp h c hc⟩

/-- The characters of a text without blanks, when it is given in full. -/
theorem blankless_of_all (h : cs.all (!isBlank ·) = true) : ∀ c ∈ cs, isBlank c = false := by
  intro c hc
  simpa using List.all_eq_true.mp h c hc

theorem Gap.exists_cons (h : Gap gap) : ∃ b rest, gap = b :: rest ∧ isBlank b = true := by
  obtain ⟨b, rest, rfl⟩ := List.exists_cons_of_ne_nil h.nonempty
  exact ⟨b, rest, rfl, h.blanks b List.mem_cons_self⟩

theorem Gap.exists_concat (h : Gap gap) : ∃ rest b, gap = rest ++ [b] ∧ isBlank b = true := by
  refine ⟨gap.dropLast, gap.getLast h.nonempty, (List.dropLast_append_getLast h.nonempty).symm, ?_⟩
  exact h.blanks _ (List.getLast_mem h.nonempty)

theorem inked_of_blankless (hne : cs ≠ []) (h : ∀ c ∈ cs, isBlank c = false) : Inked cs where
  nonempty := hne
  first c hc := h c (List.mem_of_mem_head? hc)
  last c hc := h c (List.mem_of_getLast? hc)

/-- What begins and ends with inked texts is inked. -/
theorem Inked.append (hcs : Inked cs) (between : List Char) (hds : Inked ds) :
    Inked (cs ++ between ++ ds) where
  nonempty := by simp [hcs.nonempty]
  first c hc := by
    obtain ⟨a, rest, rfl⟩ := List.exists_cons_of_ne_nil hcs.nonempty
    exact hcs.first c hc
  last c hc := by
    rw [List.getLast?_append] at hc
    rw [List.getLast?_eq_some_getLast hds.nonempty, Option.some_or] at hc
    exact hds.last c ((List.getLast?_eq_some_getLast hds.nonempty).trans hc)

/-! ## Trimming -/

/-- Blanks around a text are trimmed away. -/
theorem trim_wrapped (hfront : ∀ c ∈ front, isBlank c = true) (hback : ∀ c ∈ back, isBlank c = true)
    (h : Inked cs) : trim (front ++ cs ++ back) = cs := by
  obtain ⟨a, rest, hcs⟩ := List.exists_cons_of_ne_nil h.nonempty
  have hbegin : trimFront (cs ++ back) = cs ++ back := by
    apply trimFront_eq_self
    intro c hc
    rw [hcs] at hc h
    exact h.first c hc
  have hend : trimFront cs.reverse = cs.reverse := by
    apply trimFront_eq_self
    intro c hc
    rw [List.head?_reverse] at hc
    exact h.last c hc
  rw [trim, List.append_assoc, trimFront_append hfront, hbegin, trimBack, List.reverse_append,
    trimFront_append (fun c hc => hback c (List.mem_reverse.mp hc)), hend, List.reverse_reverse]

theorem Inked.trim_eq (h : Inked cs) : trim cs = cs :=
  trim_eq_self_of_ends h.first h.last

/-! ## Words -/

theorem wordsFrom_eq_self {word cs : List Char} (h : ∀ c ∈ cs, isBlank c = false)
    (hne : word.reverse ++ cs ≠ []) : wordsFrom word cs = [word.reverse ++ cs] := by
  induction cs generalizing word with
  | nil =>
    rw [List.append_nil] at hne ⊢
    rw [wordsFrom, if_neg]
    simpa using hne
  | cons c cs ih =>
    obtain ⟨hc, hcs⟩ := List.forall_mem_cons.mp h
    rw [wordsFrom, hc, if_neg (by decide), ih hcs (by simp)]
    simp

/-- A text without blanks is one word. -/
theorem words_eq_self {cs : List Char} (h : ∀ c ∈ cs, isBlank c = false) (hne : cs ≠ []) :
    words cs = [cs] :=
  wordsFrom_eq_self h hne

theorem words_of_gap_append (h : ∀ c ∈ gap, isBlank c = true) (ds : List Char) :
    words (gap ++ ds) = words ds := by
  induction gap with
  | nil => rfl
  | cons b gap ih =>
    obtain ⟨hb, hgap⟩ := List.forall_mem_cons.mp h
    rw [words, List.cons_append, wordsFrom, hb, if_pos rfl, if_pos (by rfl)]
    exact ih hgap

theorem wordsFrom_append_gap (word cs : List Char) (h : Gap gap) (ds : List Char) :
    wordsFrom word (cs ++ gap ++ ds) = wordsFrom word cs ++ words ds := by
  induction cs generalizing word with
  | nil =>
    obtain ⟨b, rest, rfl, hb⟩ := h.exists_cons
    have hrest := words_of_gap_append (fun c hc => h.blanks c (List.mem_cons_of_mem b hc)) ds
    rw [words] at hrest
    rw [List.nil_append, List.cons_append, wordsFrom, wordsFrom, if_pos hb, hrest]
    split <;> rfl
  | cons c cs ih =>
    rw [List.cons_append, List.cons_append, wordsFrom, wordsFrom, ih, ih]
    split
    · split <;> rfl
    · rfl

/-- The words on both sides of a gap. -/
theorem words_append_gap (cs : List Char) (h : Gap gap) (ds : List Char) :
    words (cs ++ gap ++ ds) = words cs ++ words ds :=
  wordsFrom_append_gap [] cs h ds

/-- A text that does not begin with a blank has a word. -/
theorem words_cons_ne_nil {a : Char} (ha : isBlank a = false) (cs : List Char) :
    words (a :: cs) ≠ [] := by
  have hfrom : ∀ word cs : List Char, word ≠ [] → wordsFrom word cs ≠ [] := by
    intro word cs
    induction cs generalizing word with
    | nil => simp [wordsFrom]
    | cons c cs ih =>
      intro hword
      rw [wordsFrom]
      split
      · simp [hword]
      · exact ih _ (List.cons_ne_nil _ _)
  rw [words, wordsFrom, ha, if_neg (by decide)]
  exact hfrom _ _ (List.cons_ne_nil _ _)

/-- The last blank-free stretch of a text that does not end in a blank. -/
def lastWord (cs : List Char) : List Char :=
  cs.rtakeWhile fun c => !isBlank c

/-- Only the stretch behind the last gap counts. -/
theorem lastWord_append_gap (cs : List Char) (h : Gap gap) (ds : List Char) :
    lastWord (cs ++ gap ++ ds) = lastWord ds := by
  obtain ⟨rest, b, rfl, hb⟩ := h.exists_concat
  have hwhole : cs ++ (rest ++ [b]) ++ ds = (cs ++ rest) ++ b :: ds := by simp
  rw [hwhole, lastWord, rtakeWhile_append_cons _ (by simp [hb])]
  rfl

theorem lastWord_eq_self (h : ∀ c ∈ cs, isBlank c = false) : lastWord cs = cs :=
  List.rtakeWhile_eq_self_iff.mpr fun c hc => by simp [h c hc]

theorem isBlank_of_mem_lastWord {c : Char} (h : c ∈ lastWord cs) : isBlank c = false := by
  rw [lastWord] at h
  simpa using List.mem_rtakeWhile_imp h

/-- A text with a blank in it is cut at the last one. -/
theorem exists_append_lastWord (h : ¬ ∀ c ∈ cs, isBlank c = false) :
    ∃ front b, cs = front ++ [b] ++ lastWord cs ∧ isBlank b = true := by
  have hcut : cs.rdropWhile (fun c => !isBlank c) ++ lastWord cs = cs :=
    List.rdropWhile_append_rtakeWhile
  have hne : cs.rdropWhile (fun c => !isBlank c) ≠ [] := by
    intro hnil
    rw [hnil, List.nil_append] at hcut
    exact h fun c hc => isBlank_of_mem_lastWord (hcut.symm ▸ hc)
  have hlast := List.rdropWhile_last_not _ cs hne
  refine ⟨(cs.rdropWhile fun c => !isBlank c).dropLast, _, ?_, by simpa using hlast⟩
  rw [List.dropLast_append_getLast hne, hcut]

/-! ## Parts -/

/-- What stands behind the last separator; the whole text, if there is none. -/
def behindLast (sep : Char) (cs : List Char) : List Char :=
  cs.rtakeWhile fun c => c != sep

variable {sep : Char}

theorem behindLast_eq_self (h : sep ∉ cs) : behindLast sep cs = cs :=
  List.rtakeWhile_eq_self_iff.mpr fun _ hc => bne_iff_ne.mpr fun hsep => h (hsep ▸ hc)

theorem not_mem_behindLast (sep : Char) (cs : List Char) : sep ∉ behindLast sep cs := by
  intro h
  rw [behindLast] at h
  simpa using List.mem_rtakeWhile_imp h

/-- A stretch without a separator is added to the last part. -/
theorem behindLast_append_of_not_mem (cs : List Char) (h : sep ∉ ds) :
    behindLast sep (cs ++ ds) = behindLast sep cs ++ ds :=
  rtakeWhile_append_of_pos cs fun _ hc => bne_iff_ne.mpr fun hsep => h (hsep ▸ hc)

theorem behindLast_append_cons (sep : Char) (cs ds : List Char) :
    behindLast sep (cs ++ sep :: ds) = behindLast sep ds :=
  rtakeWhile_append_cons cs (by simp) ds

/-- What stands in front of a stretch with a separator is not in the last part. -/
theorem behindLast_append_of_mem (cs : List Char) (h : sep ∈ ds) :
    behindLast sep (cs ++ ds) = behindLast sep ds := by
  obtain ⟨before, after, rfl⟩ := List.append_of_mem h
  rw [← List.append_assoc, behindLast_append_cons, behindLast_append_cons]

theorem splitOn_of_not_mem {cs : List Char} (h : sep ∉ cs) : splitOn sep cs = [cs] := by
  induction cs with
  | nil => rfl
  | cons c cs ih =>
    rw [List.mem_cons, not_or] at h
    rw [splitOn, if_neg (Ne.symm h.1), ih h.2]

theorem splitOn_append_cons (sep : Char) (cs ds : List Char) :
    splitOn sep (cs ++ sep :: ds) = splitOn sep cs ++ splitOn sep ds := by
  induction cs with
  | nil => simp [splitOn]
  | cons c cs ih =>
    rw [List.cons_append, splitOn, splitOn, ih]
    split
    · rfl
    · obtain ⟨part, parts, hparts⟩ := List.exists_cons_of_ne_nil (splitOn_ne_nil sep cs)
      rw [hparts]
      rfl

/-- A stretch without a separator is put in front of the first part. -/
theorem splitOn_append_of_not_mem (h : sep ∉ ds) (cs : List Char) :
    ∃ part parts, splitOn sep cs = part :: parts ∧ splitOn sep (ds ++ cs) = (ds ++ part) :: parts := by
  induction ds with
  | nil =>
    obtain ⟨part, parts, hparts⟩ := List.exists_cons_of_ne_nil (splitOn_ne_nil sep cs)
    exact ⟨part, parts, hparts, hparts⟩
  | cons d ds ih =>
    rw [List.mem_cons, not_or] at h
    obtain ⟨part, parts, hcs, hparts⟩ := ih h.2
    refine ⟨part, parts, hcs, ?_⟩
    rw [List.cons_append, splitOn, if_neg (Ne.symm h.1), hparts]
    rfl

/-- The last part of a text that is cut at a separator. -/
theorem getLast?_splitOn (sep : Char) (cs : List Char) :
    (splitOn sep cs).getLast? = some (behindLast sep cs) := by
  cases hcut : cutLast? sep cs with
  | none =>
    have hsep := cutLast?_eq_none_iff.mp hcut
    rw [splitOn_of_not_mem hsep, behindLast_eq_self hsep]
    rfl
  | some parts =>
    obtain ⟨rfl, hsep⟩ := cutLast?_eq_some hcut
    rw [splitOn_append_cons, behindLast_append_cons, splitOn_of_not_mem hsep,
      behindLast_eq_self hsep, List.getLast?_concat]

/-- A stretch without a separator stands in one part. -/
theorem exists_part_of_stretch (h : sep ∉ ds) (front back : List Char) :
    ∃ part ∈ splitOn sep (front ++ ds ++ back), ds <:+: part := by
  induction front with
  | nil =>
    obtain ⟨part, parts, -, hparts⟩ := splitOn_append_of_not_mem h back
    rw [List.nil_append, hparts]
    exact ⟨ds ++ part, List.mem_cons_self, (List.prefix_append ds part).isInfix⟩
  | cons c front ih =>
    obtain ⟨part, hpart, hstretch⟩ := ih
    rw [List.cons_append, List.cons_append, splitOn]
    split
    · exact ⟨part, List.mem_cons_of_mem _ hpart, hstretch⟩
    · cases hparts : splitOn sep (front ++ ds ++ back) with
      | nil => exact absurd hparts (splitOn_ne_nil sep _)
      | cons first parts =>
        rw [hparts] at hpart
        -- the part is the one that is extended, or a later one
        rcases List.mem_cons.mp hpart with rfl | hpart
        · exact ⟨c :: part, List.mem_cons_self, hstretch.trans (List.suffix_cons c part).isInfix⟩
        · exact ⟨part, List.mem_cons_of_mem _ hpart, hstretch⟩

end TableOps.Text
