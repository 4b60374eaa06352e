import TableOps.Expression.Join
import TableOps.Proofs.Text.Blanks
import TableOps.Proofs.Text.Cuts
import TableOps.Reference.Column

/-!
# The parts of references

References are cut at dots and blanks. What a cut yields consists of characters of the text, and what
stands behind the last dot has no dot.

* `Text.of_mem_wordsOf` — the words of a text.
* `Reference.dot_not_mem_column`, `Reference.splitQualifier_of_not_mem` — columns have no dot, and
  what has no dot is a column.
* `Reference.not_mem_of_isIdentifierChars` — identifiers consist of name characters.
* `TableRef.subset_of_ofWords?`, `TableRef.subset_of_parse` — the parts of a table reference.
-/

namespace TableOps

namespace Text

/-! ## Words -/

/-- A word that was read in part: it has characters, and they come from the text. -/
theorem word_of_reverse {word rest : List Char} (h : ¬ word.isEmpty) :
    word.reverse ≠ [] ∧ word.reverse ⊆ word ++ rest := by
  rw [List.isEmpty_iff] at h
  refine ⟨fun hnil => h (List.reverse_eq_nil_iff.mp hnil), fun c hc => ?_⟩
  exact List.mem_append_left _ (List.mem_reverse.mp hc)

theorem subset_of_mem_wordsFrom {word cs w : List Char} (h : w ∈ wordsFrom word cs) :
    w ≠ [] ∧ w ⊆ word ++ cs := by
  induction cs generalizing word with
  | nil =>
    rw [wordsFrom] at h
    split at h
    · cases h
    · rename_i hempty
      rw [List.mem_singleton.mp h]
      exact word_of_reverse hempty
  | cons c cs ih =>
    -- a word behind the blank only has characters from there
    have hbehind : w ∈ wordsFrom [] cs → w ≠ [] ∧ w ⊆ word ++ c :: cs := by
      intro hw
      obtain ⟨hne, hsubset⟩ := ih hw
      exact ⟨hne, fun d hd => List.mem_append_right _ (List.mem_cons_of_mem c (hsubset hd))⟩
    rw [wordsFrom] at h
    split at h
    · split at h
      · exact hbehind h
      · rename_i hempty
        rcases List.mem_cons.mp h with rfl | h
        · exact word_of_reverse hempty
        · exact hbehind h
    · obtain ⟨hne, hsubset⟩ := ih h
      refine ⟨hne, fun d hd => ?_⟩
      have hmem := hsubset hd
      rw [List.cons_append, List.mem_cons, List.mem_append] at hmem
      rw [List.mem_append, List.mem_cons]
      exact or_left_comm.mp hmem

/-- A word has characters, and they come from the text. -/
theorem of_mem_wordsOf {s w : String} (h : w ∈ wordsOf s) :
    w.toList ≠ [] ∧ w.toList ⊆ s.toList := by
  obtain ⟨cs, hcs, rfl⟩ := List.mem_map.mp h
  rw [String.toList_ofList]
  exact subset_of_mem_wordsFrom hcs

end Text

namespace Reference

/-! ## Columns -/

theorem cutLastOf?_eq_some {sep : Char} {s before after : String}
    (h : Text.cutLastOf? sep s = some (before, after)) :
    s.toList = before.toList ++ sep :: after.toList ∧ sep ∉ after.toList := by
  obtain ⟨parts, hparts, heq⟩ := Option.map_eq_some_iff.mp h
  cases heq
  rw [String.toList_ofList, String.toList_ofList]
  exact Text.cutLast?_eq_some hparts

theorem cutLastOf?_eq_none_iff {sep : Char} {s : String} :
    Text.cutLastOf? sep s = none ↔ sep ∉ s.toList := by
  rw [Text.cutLastOf?, Option.map_eq_none_iff, Text.cutLast?_eq_none_iff]

/-- No column has a dot: it stands behind the last one. -/
theorem dot_not_mem_column (name : String) : '.' ∉ (splitQualifier name).2.toList := by
  unfold splitQualifier
  dsimp only
  split
  · rename_i hcut
    exact (cutLastOf?_eq_some hcut).2
  · rename_i hcut
    exact cutLastOf?_eq_none_iff.mp hcut

/-- A text without a dot is a column without a qualifier. -/
theorem splitQualifier_of_not_mem {name : String} (h : '.' ∉ name.toList) :
    splitQualifier name = (none, Text.trimmed name) := by
  have hcut := cutLastOf?_eq_none_iff.mpr (Text.not_mem_trimmed h)
  simp only [splitQualifier, hcut]

/-! ## Identifiers -/

/-- A character that is neither a name character nor a line feed stands in no identifier. -/
theorem not_mem_of_isIdentifierChars {cs : List Char} (h : isIdentifierChars cs) {c : Char}
    (hname : isNameChar c = false) (hfeed : c ≠ '\n') : c ∉ cs := by
  have hnames : ∀ d ∈ dropFinalNewline cs, isNameChar d := by
    unfold isIdentifierChars at h
    cases hcs : dropFinalNewline cs with
    | nil => simp
    | cons d ds =>
      rw [hcs, isName, Bool.and_eq_true, List.all_eq_true] at h
      rw [List.forall_mem_cons]
      exact ⟨by rw [isNameChar, h.1]; rfl, h.2⟩
  intro hc
  have hdrop : c ∈ dropFinalNewline cs := by
    unfold dropFinalNewline
    split
    · rename_i hlast
      -- what is dropped is a line feed
      obtain ⟨front, rfl⟩ := List.getLast?_eq_some_iff.mp hlast
      rw [List.dropLast_concat]
      exact (List.mem_append.mp hc).resolve_right fun hc => hfeed (List.mem_singleton.mp hc)
    · exact hc
  rw [hnames c hdrop] at hname
  cases hname

end Reference

namespace TableRef

/-! ## Tables -/

/-- The parts of a dotted name and an alias consist of their characters. -/
theorem subset_ofFullName {fullName : String} {aliasName : Option String} :
    (ofFullName fullName aliasName).name.toList ⊆ fullName.toList ∧
      (ofFullName fullName aliasName).aliasName = aliasName := by
  unfold ofFullName
  split
  · rename_i hcut
    refine ⟨?_, rfl⟩
    rw [(Reference.cutLastOf?_eq_some hcut).1]
    exact fun c hc => List.mem_append_right _ (List.mem_cons_of_mem _ hc)
  · exact ⟨List.Subset.refl _, rfl⟩

/-- The name and the alias of a table come from the text that refers to it; an alias has
characters. -/
theorem subset_of_ofWords? {text : String} {t : TableRef} (h : ofWords? (Text.wordsOf text) = some t) :
    t.name.toList ⊆ text.toList ∧
      ∀ a, t.aliasName = some a → a.toList ≠ [] ∧ a.toList ⊆ text.toList := by
  have hfull : ∀ {fullName : String} {aliasName : Option String},
      fullName ∈ Text.wordsOf text → (∀ a, aliasName = some a → a ∈ Text.wordsOf text) →
      ofFullName fullName aliasName = t →
      t.name.toList ⊆ text.toList ∧
        ∀ a, t.aliasName = some a → a.toList ≠ [] ∧ a.toList ⊆ text.toList := by
    rintro fullName aliasName hname halias rfl
    obtain ⟨hsubset, heq⟩ := @subset_ofFullName fullName aliasName
    refine ⟨fun c hc => (Text.of_mem_wordsOf hname).2 (hsubset hc), fun a ha => ?_⟩
    rw [heq] at ha
    exact Text.of_mem_wordsOf (halias a ha)
  unfold ofWords? at h
  split at h
  · rename_i fullName hwords
    rw [hwords] at hfull
    exact hfull (by simp) (by simp) (Option.some.inj h)
  · rename_i fullName aliasName hwords
    rw [hwords] at hfull
    exact hfull (by simp) (by simp) (Option.some.inj h)
  · rename_i fullName keyword aliasName hwords
    rw [hwords] at hfull
    split at h
    · exact hfull (by simp) (by simp) (Option.some.inj h)
    · cases h
  · cases h

/-- The same for a table that is read from a text. -/
theorem subset_of_parse {text : String} {t : TableRef} (h : parse text = .ok t) :
    t.name.toList ⊆ text.toList ∧
      ∀ a, t.aliasName = some a → a.toList ≠ [] ∧ a.toList ⊆ text.toList := by
  unfold parse at h
  split at h
  · rename_i hwords
    cases h
    exact subset_of_ofWords? hwords
  · cases h

end TableRef

end TableOps
