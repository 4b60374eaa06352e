import TableOps.Proofs.Reference.PlainNames
import TableOps.Proofs.Text.Characters

/-!
# The forms of a selected column

A selected column is a path, an expression or a path with an alias, or a path behind `DISTINCT`. The
expression and the alias of such a reference are found at its gaps, and its output name is the alias
or what stands behind the last dot.

* `IsPath` — paths without a blank at their ends; `IsPath.blankless_or_dotted`, where blanks stand
  in one.
* `splitAlias_of_as`, `splitAlias_of_bare`, `splitAlias_of_plain` — the three outcomes of reading a
  reference.
* `afterDistinct?_append` — the references that are read as distinct values.
* `Form` — the forms, with their text and the name that each gives; `Form.splitAlias_text`, how they are
  read.

Main statement: `Form.outputName_eq_iff`, the forms whose output name is the name they give.
-/

namespace TableOps.Reference

open Text

/-! ## Paths -/

/-- A path of identifiers, with no line feed behind it. -/
structure IsPath (cs : List Char) : Prop where
  parts : isPathParts (splitOn '.' cs) = true
  last : ∀ c, cs.getLast? = some c → isBlank c = false

variable {cs column word gap gap' aliasName : List Char}

theorem isPath_of_last (hparts : isPathParts (splitOn '.' cs) = true)
    (hlast : cs.getLast?.any isBlank = false) : IsPath cs := by
  refine ⟨hparts, fun c hc => ?_⟩
  rwa [hc] at hlast

theorem of_mem_isPathParts {parts : List (List Char)} (h : isPathParts parts = true)
    {part : List Char} (hpart : part ∈ parts) : isIdentifierChars part = true ∨ part = ['*'] := by
  induction parts with
  | nil => cases hpart
  | cons first parts ih =>
    cases parts with
    | nil =>
      obtain rfl := List.mem_singleton.mp hpart
      simpa [isPathParts] using h
    | cons second parts =>
      simp only [isPathParts, Bool.and_eq_true] at h
      rcases List.mem_cons.mp hpart with rfl | hpart
      · exact Or.inl h.1
      · exact ih h.2 hpart

/-- A character with another one behind it in an identifier is no blank. -/
theorem isBlank_of_pair {a b : Char} (h : isIdentifierChars cs = true) (hpair : [a, b] <:+: cs) :
    isBlank a = false := by
  obtain ⟨front, back, rfl⟩ := hpair
  have hmem : a ∈ dropFinalNewline (front ++ [a, b] ++ back) := by
    unfold dropFinalNewline
    split
    · -- what is dropped stands behind it
      have hdrop : front ++ [a, b] ++ back = (front ++ [a]) ++ (b :: back) := by simp
      rw [hdrop, List.dropLast_append_of_ne_nil (List.cons_ne_nil _ _)]
      simp
    · simp
  exact isBlank_of_mem h a hmem

/-- In a path only a dot follows a blank. -/
theorem eq_dot_of_isBlank {front back : List Char} {b c : Char}
    (h : isPathParts (splitOn '.' (front ++ b :: c :: back)) = true) (hb : isBlank b = true) :
    c = '.' := by
  by_contra hc
  have hdot : b ≠ '.' := by
    rintro rfl
    exact absurd hb (by decide)
  have hstretch : '.' ∉ [b, c] := by simp [Ne.symm hdot, Ne.symm hc]
  have hwhole : front ++ b :: c :: back = front ++ [b, c] ++ back := by simp
  rw [hwhole] at h
  obtain ⟨part, hpart, hpair⟩ := exists_part_of_stretch hstretch front back
  rcases of_mem_isPathParts h hpart with hidentifier | rfl
  · rw [isBlank_of_pair hidentifier hpair] at hb
    cases hb
  · have hlength := hpair.length_le
    simp at hlength

theorem isNameStart_of_isIdentifierChars {c : Char} (h : isIdentifierChars (c :: cs) = true) :
    isNameStart c = true := by
  obtain ⟨d, rest, heq, hd⟩ := Dialect.head_of_isIdentifierChars h
  cases heq
  exact hd

namespace IsPath

/-- A path begins with an identifier or is a star. -/
theorem exists_cons (h : IsPath cs) :
    ∃ c rest, cs = c :: rest ∧ isBlank c = false ∧ c ≠ '.' := by
  have hparts := h.parts
  cases cs with
  | nil => exact absurd hparts (by decide)
  | cons c rest =>
    have hdot : c ≠ '.' := by
      rintro rfl
      -- the part in front of the dot is no identifier
      obtain ⟨part, parts, hrest⟩ := List.exists_cons_of_ne_nil (splitOn_ne_nil '.' rest)
      rw [splitOn, if_pos rfl, hrest, isPathParts, Bool.and_eq_true] at hparts
      · exact absurd hparts.1 (by decide)
      · exact fun hnil => List.cons_ne_nil _ _ hnil
    have hone : '.' ∉ [c] := by simpa using hdot.symm
    obtain ⟨part, parts, -, hcs⟩ := splitOn_append_of_not_mem hone rest
    rw [List.singleton_append] at hcs
    have hpart := of_mem_isPathParts hparts (hcs ▸ List.mem_cons_self)
    refine ⟨c, rest, rfl, ?_, hdot⟩
    rcases hpart with hidentifier | hstar
    · apply isBlank_of_isNameChar
      rw [isNameChar, isNameStart_of_isIdentifierChars hidentifier]
      rfl
    · cases hstar
      decide

theorem inked (h : IsPath cs) : Inked cs := by
  obtain ⟨c, rest, rfl, hc, -⟩ := h.exists_cons
  refine ⟨List.cons_ne_nil _ _, ?_, h.last⟩
  intro d hd
  cases hd
  exact hc

/-- Either a path has no blank, or a dot follows the last one. -/
theorem blankless_or_dotted (h : IsPath cs) :
    (∀ c ∈ cs, isBlank c = false) ∨
      ∃ a front b rest, cs = a :: front ++ [b] ++ '.' :: rest ∧ isBlank a = false ∧
        isBlank b = true ∧ ∀ c ∈ rest, isBlank c = false := by
  by_cases hblank : ∀ c ∈ cs, isBlank c = false
  · exact Or.inl hblank
  obtain ⟨front, b, hcs, hb⟩ := exists_append_lastWord hblank
  cases hword : lastWord cs with
  | nil =>
    -- the path would end in a blank
    rw [hword, List.append_nil] at hcs
    have hlast := h.last b (by rw [hcs, List.getLast?_concat])
    rw [hlast] at hb
    cases hb
  | cons c rest =>
    have hrest : ∀ d ∈ rest, isBlank d = false := fun d hd =>
      isBlank_of_mem_lastWord (hword ▸ List.mem_cons_of_mem c hd)
    rw [hword] at hcs
    have hdot : c = '.' := by
      have hparts := h.parts
      rw [hcs, List.append_assoc] at hparts
      exact eq_dot_of_isBlank hparts hb
    obtain ⟨a, tail, hhead, ha, -⟩ := h.exists_cons
    cases front with
    | nil =>
      -- the path would begin with a blank
      rw [hcs] at hhead
      cases hhead
      rw [ha] at hb
      cases hb
    | cons d front =>
      rw [hcs] at hhead
      cases hhead
      exact Or.inr ⟨_, front, b, rest, hdot ▸ hcs, ha, hb, hrest⟩

/-- The last word of a path with a blank in it begins with a dot. -/
theorem blankless_or_lastWord (h : IsPath cs) :
    (∀ c ∈ cs, isBlank c = false) ∨
      ∃ rest before, lastWord cs = '.' :: rest ∧ words cs = before ++ ['.' :: rest] ∧ before ≠ [] := by
  refine h.blankless_or_dotted.imp_right ?_
  rintro ⟨a, front, b, rest, rfl, ha, hb, hrest⟩
  have hgap : Gap [b] := ⟨List.cons_ne_nil _ _, by simpa using hb⟩
  have hdotted : ∀ c ∈ '.' :: rest, isBlank c = false :=
    List.forall_mem_cons.mpr ⟨by decide, hrest⟩
  refine ⟨rest, words (a :: front), ?_, ?_, words_cons_ne_nil ha front⟩
  · rw [lastWord_append_gap _ hgap, lastWord_eq_self hdotted]
  · rw [words_append_gap _ hgap, words_eq_self hdotted (List.cons_ne_nil _ _)]

/-- The last part of a path is an identifier or a star. -/
theorem behindLast_cases (h : IsPath cs) :
    isName (behindLast '.' cs) = true ∨ behindLast '.' cs = ['*'] := by
  have hpart : behindLast '.' cs ∈ splitOn '.' cs := List.mem_of_getLast? (getLast?_splitOn '.' cs)
  refine (of_mem_isPathParts h.parts hpart).imp_left fun hidentifier => ?_
  refine isName_iff.mpr ⟨hidentifier, fun hlast => ?_⟩
  -- the last part ends like the whole path
  obtain ⟨front, hfront⟩ := List.rtakeWhile_suffix (fun c => c != '.') cs
  have hend : cs.getLast? = some '\n' := by
    rw [← hfront, List.getLast?_append]
    rw [behindLast] at hlast
    rw [hlast]
    rfl
  exact absurd (h.last _ hend) (by decide)

theorem not_mem (h : IsPath cs) {c : Char} (hname : isNameChar c = false) (hdot : c ≠ '.')
    (hstar : c ≠ '*') (hfeed : c ≠ '\n') : c ∉ cs := by
  intro hc
  obtain ⟨front, back, rfl⟩ := List.append_of_mem hc
  have hparts := h.parts
  have hwhole : front ++ c :: back = front ++ [c] ++ back := by simp
  rw [hwhole] at hparts
  have hone : '.' ∉ [c] := by simpa using hdot.symm
  obtain ⟨part, hpart, hstretch⟩ := exists_part_of_stretch hone front back
  have hmem : c ∈ part := hstretch.subset List.mem_cons_self
  rcases of_mem_isPathParts hparts hpart with hidentifier | rfl
  · exact not_mem_of_isIdentifierChars hidentifier hname hfeed hmem
  · exact hstar (List.mem_singleton.mp hmem)

theorem space_not_mem (h : IsPath cs) : ' ' ∉ cs :=
  h.not_mem (by decide) (by decide) (by decide) (by decide)

end IsPath

/-! ## The word `DISTINCT` -/

/-- The word `DISTINCT` in any case. -/
def IsDistinctWord (word : List Char) : Prop :=
  word.map foldChar = "distinct".toList

instance (word : List Char) : Decidable (IsDistinctWord word) :=
  inferInstanceAs (Decidable (_ = _))

theorem fold_eq_distinct_iff : fold (String.ofList word) = "distinct" ↔ IsDistinctWord word := by
  rw [fold, String.toList_ofList, IsDistinctWord, ← String.toList_inj, String.toList_ofList]

theorem foldChar_of_isBlank {c : Char} (h : isBlank c = true) : foldChar c = c := by
  refine if_neg fun hcapital => ?_
  have hname : isNameChar c = true := by
    simp [isNameChar, isNameStart, hcapital]
  rw [isBlank_of_isNameChar hname] at h
  cases h

theorem eq_space_of_foldChar {c : Char} (h : foldChar c = ' ') : c = ' ' := by
  by_cases hascii : c.toNat < 128
  · obtain ⟨n, rfl⟩ := exists_ascii hascii
    revert n
    decide
  · rwa [foldChar, if_neg] at h
    rintro ⟨-, hlast⟩
    have hle : c.toNat ≤ 90 := hlast
    omega

theorem isBlank_of_mem_distinct : ∀ c ∈ "distinct".toList, isBlank c = false :=
  blankless_of_all (by decide)

theorem IsDistinctWord.nonempty (h : IsDistinctWord word) : word ≠ [] := by
  rintro rfl
  exact absurd h (by decide)

theorem IsDistinctWord.blankless (h : IsDistinctWord word) : ∀ c ∈ word, isBlank c = false := by
  intro c hc
  have hmem : foldChar c ∈ "distinct".toList := by
    rw [IsDistinctWord] at h
    rw [← h]
    exact List.mem_map_of_mem hc
  by_contra hblank
  rw [Bool.not_eq_false] at hblank
  rw [foldChar_of_isBlank hblank] at hmem
  rw [isBlank_of_mem_distinct _ hmem] at hblank
  cases hblank

theorem IsDistinctWord.space_not_mem (h : IsDistinctWord word) : ' ' ∉ word := fun hspace =>
  absurd (h.blankless ' ' hspace) (by decide)

theorem IsDistinctWord.inked (h : IsDistinctWord word) : Inked word :=
  inked_of_blankless h.nonempty h.blankless

/-- A text is the front of another and its next character when it is the front up to there. -/
theorem isPrefix_concat_iff {a b : Char} (lead front back : List Char) (hlead : b ∉ lead)
    (hfront : a ∉ front) : lead ++ [a] <+: front ++ b :: back ↔ front = lead ∧ b = a := by
  induction lead generalizing front with
  | nil =>
    cases front with
    | nil => simp [@eq_comm _ a]
    | cons c front =>
      rw [List.mem_cons, not_or] at hfront
      simp [hfront.1]
  | cons c lead ih =>
    rw [List.mem_cons, not_or] at hlead
    cases front with
    | nil => simp [Ne.symm hlead.1]
    | cons d front =>
      rw [List.mem_cons, not_or] at hfront
      rw [List.cons_append, List.cons_append, List.cons_prefix_cons, ih front hlead.2 hfront.2,
        List.cons.injEq, and_assoc, @eq_comm _ c]

/-- A reference whose first blank is given is read as distinct values exactly when the word stands in
front of the blank, and the blank is a space. -/
theorem afterDistinct?_append {b : Char} (hfront : ' ' ∉ cs) (hb : isBlank b = true)
    (rest : List Char) : afterDistinct? (String.ofList (cs ++ b :: rest)) =
      if IsDistinctWord cs ∧ b = ' ' then some (String.ofList (trim rest)) else none := by
  have hlead : distinctLead = "distinct".toList ++ [' '] := by decide
  have hword : b ∉ "distinct".toList := by
    intro hmem
    rw [isBlank_of_mem_distinct b hmem] at hb
    cases hb
  have hfold : ' ' ∉ cs.map foldChar := by
    intro hmem
    obtain ⟨c, hc, hspace⟩ := List.mem_map.mp hmem
    exact hfront (eq_space_of_foldChar hspace ▸ hc)
  have hstarts : distinctLead.isPrefixOf ((cs ++ b :: rest).map foldChar) = true ↔
      IsDistinctWord cs ∧ b = ' ' := by
    rw [List.isPrefixOf_iff_prefix, hlead, List.map_append, List.map_cons, foldChar_of_isBlank hb,
      isPrefix_concat_iff _ _ _ hword hfold]
    rfl
  unfold afterDistinct?
  dsimp only
  rw [String.toList_ofList]
  by_cases h : IsDistinctWord cs ∧ b = ' '
  · rw [if_pos (hstarts.mpr h), if_pos h]
    have hlength : distinctLead.length = cs.length + 1 := by
      rw [hlead, List.length_append, ← h.1, List.length_map]
      rfl
    rw [trimmed, String.toList_ofList, hlength, ← List.drop_drop, List.drop_left]
    rfl
  · rw [if_neg fun hlead => h (hstarts.mp hlead), if_neg h]

/-- Behind the word, a gap that begins with a space lets the rest be read. -/
theorem afterDistinct?_behind (hword : IsDistinctWord word) (hgap : Gap gap) (h : Inked cs) :
    afterDistinct? (String.ofList (word ++ gap ++ cs)) =
      if gap.head? = some ' ' then some (String.ofList cs) else none := by
  obtain ⟨b, rest, rfl, hb⟩ := hgap.exists_cons
  have hrest := trim_wrapped (fun c hc => hgap.blanks c (List.mem_cons_of_mem b hc))
    (fun c hc => absurd hc List.not_mem_nil) h
  rw [List.append_nil] at hrest
  rw [List.append_assoc, List.cons_append, afterDistinct?_append hword.space_not_mem hb, hrest]
  simp [hword]

/-- Behind anything else nothing is read. -/
theorem afterDistinct?_of_not_word (hspace : ' ' ∉ cs) (hword : ¬ IsDistinctWord cs) (hgap : Gap gap)
    (rest : List Char) : afterDistinct? (String.ofList (cs ++ gap ++ rest)) = none := by
  obtain ⟨b, blanks, rfl, hb⟩ := hgap.exists_cons
  rw [List.append_assoc, List.cons_append, afterDistinct?_append hspace hb,
    if_neg fun h => hword h.1]

theorem afterDistinct?_of_not_mem (h : ' ' ∉ cs) : afterDistinct? (String.ofList cs) = none := by
  unfold afterDistinct?
  dsimp only
  refine if_neg fun hlead => ?_
  rw [String.toList_ofList] at hlead
  have hmem : ' ' ∈ cs.map foldChar := (List.isPrefixOf_iff_prefix.mp hlead).subset (by decide)
  obtain ⟨c, hc, hspace⟩ := List.mem_map.mp hmem
  exact h (eq_space_of_foldChar hspace ▸ hc)

/-! ## Reading a reference -/

/-- The last word behind a gap, and what stands in front of it. -/
theorem cutLastWord_append_gap (hfront : ∀ c, cs.getLast? = some c → isBlank c = false)
    (hgap : Gap gap) (hword : ∀ c ∈ word, isBlank c = false) :
    cutLastWord (cs ++ gap ++ word) = (word, cs) := by
  obtain ⟨rest, b, rfl, hb⟩ := hgap.exists_concat
  have hback : (cs ++ (rest ++ [b]) ++ word).reverse =
      word.reverse ++ b :: (rest.reverse ++ cs.reverse) := by simp
  have hink : ∀ c ∈ word.reverse, (!isBlank c) = true := fun c hc => by
    rw [hword c (List.mem_reverse.mp hc)]
    rfl
  have hblanks : ∀ c ∈ b :: rest.reverse, isBlank c = true := fun c hc =>
    hgap.blanks c (by simpa [or_comm] using hc)
  have hfirst : trimFront cs.reverse = cs.reverse :=
    trimFront_eq_self fun c hc => hfront c (by rwa [List.head?_reverse] at hc)
  unfold cutLastWord
  dsimp only
  rw [hback, List.takeWhile_append_of_pos hink, List.dropWhile_append_of_pos hink,
    List.takeWhile_cons_of_neg (by simp [hb]), List.dropWhile_cons_of_neg (by simp [hb]),
    ← List.cons_append, trimFront_append hblanks, hfirst, List.append_nil, List.reverse_reverse,
    List.reverse_reverse]

theorem trimmed_of_inked (h : Inked cs) : trimmed (String.ofList cs) = String.ofList cs := by
  rw [trimmed, String.toList_ofList, h.trim_eq]

/-- A reference with blanks around it is read without them. -/
theorem splitAlias_wrapped {front back : List Char} (hfront : ∀ c ∈ front, isBlank c = true)
    (hback : ∀ c ∈ back, isBlank c = true) (h : Inked cs) :
    splitAlias (String.ofList (front ++ cs ++ back)) = splitAlias (String.ofList cs) := by
  have htrimmed : trimmed (String.ofList (front ++ cs ++ back)) = String.ofList cs := by
    rw [trimmed, String.toList_ofList, trim_wrapped hfront hback h]
  unfold splitAlias
  dsimp only
  rw [htrimmed, trimmed_of_inked h]

theorem splitAlias_of_as (h : Inked cs) {expression : List Char}
    (has : splitAsAlias? cs = some (expression, aliasName)) :
    splitAlias (String.ofList cs) = (String.ofList expression, some (String.ofList aliasName)) := by
  unfold splitAlias
  dsimp only
  rw [trimmed_of_inked h, String.toList_ofList, has]

theorem splitAlias_of_bare (h : Inked cs) (has : splitAsAlias? cs = none)
    (hwords : words cs = [column, aliasName]) (hdistinct : ¬ IsDistinctWord column)
    (hpath : isPathParts (splitOn '.' column) = true) (hname : isIdentifierChars aliasName = true) :
    splitAlias (String.ofList cs) = (String.ofList column, some (String.ofList aliasName)) := by
  have hcolumn : isIdentifierPath (String.ofList column) = true := by
    rw [isIdentifierPath, String.toList_ofList, hpath]
  have halias : isIdentifier (String.ofList aliasName) = true := by
    rw [isIdentifier, String.toList_ofList, hname]
  have hfold : fold (String.ofList column) ≠ "distinct" := fun hfold =>
    hdistinct (fold_eq_distinct_iff.mp hfold)
  unfold splitAlias
  dsimp only
  rw [trimmed_of_inked h, String.toList_ofList, has, wordsOf, String.toList_ofList, hwords]
  simp [hcolumn, halias, hfold]

theorem splitAlias_of_plain (h : Inked cs) (has : splitAsAlias? cs = none)
    (hwords : ∀ column aliasName, words cs = [column, aliasName] →
      IsDistinctWord column ∨ isIdentifierChars aliasName = false) :
    splitAlias (String.ofList cs) = (String.ofList cs, none) := by
  unfold splitAlias
  dsimp only
  rw [trimmed_of_inked h, String.toList_ofList, has, wordsOf, String.toList_ofList]
  dsimp only
  split
  · rename_i column aliasName hmap
    obtain ⟨c, rest, hc, rfl, hrest⟩ := List.map_eq_cons_iff.mp hmap
    obtain ⟨a, rest', rfl, rfl, hnil⟩ := List.map_eq_cons_iff.mp hrest
    obtain rfl := List.map_eq_nil_iff.mp hnil
    rw [if_neg]
    simp only [Bool.and_eq_true, bne_iff_ne, ne_eq, fold_eq_distinct_iff, isIdentifier,
      String.toList_ofList, not_and, Bool.not_eq_true]
    intro hguard
    exact (hwords c a hc).resolve_left hguard.1
  · rfl

/-! ## Where `AS` stands -/

theorem splitAsAlias?_append_gap (hfront : ∀ c, cs.getLast? = some c → isBlank c = false)
    (hgap : Gap gap) (hword : ∀ c ∈ word, isBlank c = false) :
    splitAsAlias? (cs ++ gap ++ word) =
      if isAlias word && isAsWord (cutLastWord cs).1 && !(cutLastWord cs).2.isEmpty then
        some ((cutLastWord cs).2, word)
      else none := by
  unfold splitAsAlias?
  dsimp only
  rw [cutLastWord_append_gap hfront hgap hword]

theorem splitAsAlias?_of_blankless (h : ∀ c ∈ cs, isBlank c = false) : splitAsAlias? cs = none := by
  unfold splitAsAlias?
  dsimp only
  rw [cutLastWord_of_blankless h]
  dsimp only
  rw [cutLastWord_of_blankless (fun _ hc => absurd hc List.not_mem_nil)]
  simp [isAsWord]

theorem splitAsAlias?_of_lastWord (h : isAlias (lastWord cs) = false) : splitAsAlias? cs = none := by
  unfold splitAsAlias?
  dsimp only
  refine if_neg ?_
  have hlast : (cutLastWord cs).1 = lastWord cs := rfl
  simp [hlast, h]

/-! ## Aliases and keywords -/

/-- The characters of an alias. -/
theorem of_mem_isAlias (h : isAlias aliasName = true) {c : Char} (hc : c ∈ aliasName) :
    (isCaselessLetter c || c == '_' || c == '$' || ('0' ≤ c && c ≤ '9')) = true := by
  cases aliasName with
  | nil => cases hc
  | cons d rest =>
    rw [isAlias, Bool.and_eq_true, List.all_eq_true] at h
    rcases List.mem_cons.mp hc with rfl | hc
    · rw [h.1]
      rfl
    · exact h.2 c hc

/-- But for four letters, a letter that may stand in an alias is one of a name. -/
theorem isNameChar_of_isCaselessLetter {c : Char} (h : isCaselessLetter c = true) :
    isNameChar c = true ∨ c ∈ ['ı', 'İ', 'ſ', '\u212A'] := by
  simp only [isCaselessLetter, Bool.or_eq_true, beq_iff_eq] at h
  rcases h with ((((hsmall | hcapital) | rfl) | rfl) | rfl) | rfl
  · simp [isNameChar, isNameStart, hsmall]
  · simp [isNameChar, isNameStart, hcapital]
  all_goals simp

theorem isBlank_of_mem_isAlias (h : isAlias aliasName = true) :
    ∀ c ∈ aliasName, isBlank c = false := by
  intro c hc
  have hchar := of_mem_isAlias h hc
  simp only [Bool.or_eq_true, beq_iff_eq] at hchar
  rcases hchar with ((hletter | rfl) | rfl) | hdigit
  · rcases isNameChar_of_isCaselessLetter hletter with hname | hspecial
    · exact isBlank_of_isNameChar hname
    · exact blankless_of_all (by decide) c hspecial
  · decide
  · decide
  · exact isBlank_of_isNameChar (by simp [isNameChar, hdigit])

theorem ne_nil_of_isAlias (h : isAlias aliasName = true) : aliasName ≠ [] := by
  rintro rfl
  cases h

theorem isAlias_of_isName (h : isName aliasName = true) : isAlias aliasName = true := by
  cases aliasName with
  | nil => cases h
  | cons c rest =>
    rw [isName, Bool.and_eq_true, List.all_eq_true] at h
    rw [isAlias, Bool.and_eq_true, List.all_eq_true]
    refine ⟨Dialect.isCaselessLetter_of_isNameStart h.1, fun d hd => ?_⟩
    have hchar := h.2 d hd
    simp only [isNameChar, Bool.or_eq_true] at hchar
    rcases hchar with (hstart | hdigit) | hdollar
    · simp [Dialect.isCaselessLetter_of_isNameStart hstart]
    · simp [hdigit]
    · simp [hdollar]

theorem inked_of_isAlias (h : isAlias aliasName = true) : Inked aliasName :=
  inked_of_blankless (ne_nil_of_isAlias h) (isBlank_of_mem_isAlias h)

/-- The word `AS` is one of its spellings. -/
theorem of_isAsWord (h : isAsWord word = true) :
    ∃ a s, word = [a, s] ∧ a ∈ ['a', 'A'] ∧ s ∈ ['s', 'S', 'ſ'] := by
  unfold isAsWord at h
  split at h
  · rename_i a s
    refine ⟨a, s, rfl, ?_⟩
    simpa [or_assoc] using h
  · cases h

theorem isBlank_of_mem_isAsWord (h : isAsWord word = true) : ∀ c ∈ word, isBlank c = false := by
  obtain ⟨a, s, rfl, ha, hs⟩ := of_isAsWord h
  have hletters : ∀ c ∈ ['a', 'A'] ++ ['s', 'S', 'ſ'], isBlank c = false :=
    blankless_of_all (by decide)
  intro c hc
  rcases List.mem_cons.mp hc with rfl | hc
  · exact hletters _ (List.mem_append_left _ ha)
  · exact hletters _ (List.mem_append_right _ (List.mem_singleton.mp hc ▸ hs))

theorem inked_of_isAsWord (h : isAsWord word = true) : Inked word := by
  refine inked_of_blankless ?_ (isBlank_of_mem_isAsWord h)
  obtain ⟨a, s, rfl, -, -⟩ := of_isAsWord h
  exact List.cons_ne_nil _ _

/-! ## Paths, with and without an alias -/

theorem isAlias_dot (rest : List Char) : isAlias ('.' :: rest) = false := by
  simp [isAlias, isCaselessLetter]

theorem isIdentifierChars_dot (rest : List Char) : isIdentifierChars ('.' :: rest) = false := by
  by_contra h
  exact absurd (isNameStart_of_isIdentifierChars (Bool.not_eq_false _ ▸ h)) (by decide)

theorem isAsWord_dot (rest : List Char) : isAsWord ('.' :: rest) = false := by
  by_contra h
  obtain ⟨a, s, heq, ha, -⟩ := of_isAsWord (Bool.not_eq_false _ ▸ h)
  cases heq
  exact absurd ha (by decide)

namespace IsPath

/-- No `AS` stands in a path. -/
theorem splitAsAlias?_eq_none (h : IsPath cs) : splitAsAlias? cs = none := by
  rcases h.blankless_or_lastWord with hblankless | ⟨rest, before, hlast, -, -⟩
  · exact splitAsAlias?_of_blankless hblankless
  · exact splitAsAlias?_of_lastWord (hlast ▸ isAlias_dot rest)

/-- No `AS` stands between a path and its alias. -/
theorem splitAsAlias?_append (h : IsPath cs) (hgap : Gap gap)
    (hword : ∀ c ∈ word, isBlank c = false) : splitAsAlias? (cs ++ gap ++ word) = none := by
  rw [splitAsAlias?_append_gap h.last hgap hword]
  rcases h.blankless_or_lastWord with hblankless | ⟨rest, before, hlast, -, -⟩
  · simp [cutLastWord_of_blankless hblankless]
  · have hkeyword : (cutLastWord cs).1 = '.' :: rest := hlast
    simp [hkeyword, isAsWord_dot]

/-- No `AS` stands between a word and a path. -/
theorem splitAsAlias?_behind (h : IsPath cs) (hgap : Gap gap) (hword : Inked word)
    (hblankless : ∀ c ∈ word, isBlank c = false) : splitAsAlias? (word ++ gap ++ cs) = none := by
  rcases h.blankless_or_lastWord with hpath | ⟨rest, before, hlast, -, -⟩
  · rw [splitAsAlias?_append_gap hword.last hgap hpath]
    simp [cutLastWord_of_blankless hblankless]
  · apply splitAsAlias?_of_lastWord
    rw [lastWord_append_gap word hgap, hlast, isAlias_dot]

/-- Between a word, a path and an alias, the path may be the word `AS`. -/
theorem splitAsAlias?_between (h : IsPath cs) (hgap : Gap gap) (hgap' : Gap gap')
    (hword : Inked word) (halias : isAlias aliasName = true) :
    splitAsAlias? (word ++ gap ++ cs ++ gap' ++ aliasName) =
      if isAsWord cs then some (word, aliasName) else none := by
  rw [splitAsAlias?_append_gap (hword.append gap h.inked).last hgap' (isBlank_of_mem_isAlias halias)]
  rcases h.blankless_or_lastWord with hpath | ⟨rest, before, hlast, -, -⟩
  · rw [cutLastWord_append_gap hword.last hgap hpath]
    simp [halias, hword.nonempty]
  · have hkeyword : (cutLastWord (word ++ gap ++ cs)).1 = '.' :: rest :=
      (lastWord_append_gap word hgap cs).trans hlast
    have has : isAsWord cs = false := by
      by_contra has
      have hself := lastWord_eq_self (isBlank_of_mem_isAsWord (Bool.not_eq_false _ ▸ has))
      rw [← hself, hlast] at has
      exact has (isAsWord_dot rest)
    rw [hkeyword, isAsWord_dot, has]
    simp

theorem words_ne_nil (h : IsPath cs) : words cs ≠ [] := by
  obtain ⟨c, rest, rfl, hc, -⟩ := h.exists_cons
  exact words_cons_ne_nil hc rest

end IsPath

/-! ## Forms -/

/-- The ways of writing a selected column, each with the stretches it is put together from. -/
inductive Form
  /-- A path alone. -/
  | path (column : List Char)
  /-- An expression with an alias behind `AS`. -/
  | withAs (expression gap keyword gap' aliasName : List Char)
  /-- A path with an alias and no `AS`. -/
  | bare (column gap aliasName : List Char)
  /-- A path behind `DISTINCT`. -/
  | distinct (keyword gap column : List Char)
  /-- A path behind `DISTINCT`, with an alias and no `AS`. -/
  | distinctBare (keyword gap column gap' aliasName : List Char)

namespace Form

/-- The text of a form. -/
def text : Form → List Char
  | path column => column
  | withAs expression gap keyword gap' aliasName => expression ++ gap ++ keyword ++ gap' ++ aliasName
  | bare column gap aliasName => column ++ gap ++ aliasName
  | distinct keyword gap column => keyword ++ gap ++ column
  | distinctBare keyword gap column gap' aliasName => keyword ++ gap ++ column ++ gap' ++ aliasName

/-- The name that a form gives its column: the alias, or the last part of the path. -/
def name : Form → List Char
  | path column => behindLast '.' column
  | withAs _ _ _ _ aliasName => aliasName
  | bare _ _ aliasName => aliasName
  | distinct _ _ column => behindLast '.' column
  | distinctBare _ _ _ _ aliasName => aliasName

/-- The stretches are what they are called. -/
inductive Valid : Form → Prop
  | path {column : List Char} (hcolumn : IsPath column) : Valid (path column)
  | withAs {expression gap keyword gap' aliasName : List Char} (hexpression : Inked expression) (hgap : Gap gap)
    (hkeyword : isAsWord keyword = true) (hgap' : Gap gap') (halias : isAlias aliasName = true) :
    Valid (withAs expression gap keyword gap' aliasName)
  | bare {column gap aliasName : List Char} (hcolumn : IsPath column) (hword : ¬ IsDistinctWord column)
    (hgap : Gap gap) (halias : isName aliasName = true) : Valid (bare column gap aliasName)
  | distinct {keyword gap column : List Char} (hkeyword : IsDistinctWord keyword) (hgap : Gap gap)
    (hcolumn : IsPath column) : Valid (distinct keyword gap column)
  | distinctBare {keyword gap column gap' aliasName : List Char} (hkeyword : IsDistinctWord keyword)
    (hgap : Gap gap) (hcolumn : IsPath column) (hgap' : Gap gap') (halias : isName aliasName = true) :
    Valid (distinctBare keyword gap column gap' aliasName)

/-- The expression and the alias, where a form is read with one: a path with a blank in it takes no
alias, and behind `DISTINCT` one is only seen when the path is the word `AS`. -/
def aliased? : Form → Option (List Char × List Char)
  | path _ => none
  | withAs expression _ _ _ aliasName => some (expression, aliasName)
  | bare column _ aliasName =>
    if column.any isBlank then none else some (column, aliasName)
  | distinct _ _ _ => none
  | distinctBare keyword _ column _ aliasName =>
    if isAsWord column then some (keyword, aliasName) else none

theorem inked_text {f : Form} (h : f.Valid) : Inked f.text := by
  cases h with
  | path hcolumn => exact hcolumn.inked
  | withAs hexpression hgap hkeyword hgap' halias =>
    exact (hexpression.append _ (inked_of_isAsWord hkeyword)).append _ (inked_of_isAlias halias)
  | bare hcolumn hword hgap halias =>
    exact hcolumn.inked.append _ (inked_of_isAlias (isAlias_of_isName halias))
  | distinct hkeyword hgap hcolumn => exact hkeyword.inked.append _ hcolumn.inked
  | distinctBare hkeyword hgap hcolumn hgap' halias =>
    exact (hkeyword.inked.append _ hcolumn.inked).append _
      (inked_of_isAlias (isAlias_of_isName halias))

/-- How a form is read. -/
theorem splitAlias_text {f : Form} (h : f.Valid) :
    splitAlias (String.ofList f.text) =
      match f.aliased? with
      | some (expression, aliasName) => (String.ofList expression, some (String.ofList aliasName))
      | none => (String.ofList f.text, none) := by
  have hinked := inked_text h
  cases h with
  | path hcolumn =>
    refine splitAlias_of_plain hinked hcolumn.splitAsAlias?_eq_none fun first second hwords => ?_
    right
    rcases hcolumn.blankless_or_lastWord with hblankless | ⟨rest, before, -, hdotted, -⟩
    · rw [text, words_eq_self hblankless hcolumn.inked.nonempty] at hwords
      cases hwords
    · have hlast := congrArg List.getLast? hwords
      rw [text, hdotted, List.getLast?_concat] at hlast
      cases hlast
      exact isIdentifierChars_dot rest
  | @withAs expression gap keyword gap' aliasName hexpression hgap hkeyword hgap' halias =>
    refine splitAlias_of_as hinked ?_
    have hfront := hexpression.append gap (inked_of_isAsWord hkeyword)
    rw [text, splitAsAlias?_append_gap hfront.last hgap' (isBlank_of_mem_isAlias halias),
      cutLastWord_append_gap hexpression.last hgap (isBlank_of_mem_isAsWord hkeyword)]
    simp [halias, hkeyword, hexpression.nonempty]
  | @bare column gap aliasName hcolumn hword hgap halias =>
    have hwords := words_append_gap column hgap aliasName
    have hname := isBlank_of_mem halias
    have has := hcolumn.splitAsAlias?_append hgap hname
    rw [words_eq_self hname (ne_nil_of_isName halias)] at hwords
    by_cases hblankless : ∀ c ∈ column, isBlank c = false
    · have hany : column.any isBlank = false := by simpa using hblankless
      rw [words_eq_self hblankless hcolumn.inked.nonempty] at hwords
      rw [aliased?, hany]
      exact splitAlias_of_bare hinked has hwords hword hcolumn.parts (isName_iff.mp halias).1
    · have hany : column.any isBlank = true := by simpa using hblankless
      obtain ⟨rest, before, -, hdotted, hbefore⟩ :=
        hcolumn.blankless_or_lastWord.resolve_left hblankless
      rw [aliased?, if_pos hany]
      refine splitAlias_of_plain hinked has fun first second htwo => ?_
      -- there are at least three words
      rw [text, hwords, hdotted] at htwo
      have hlength := congrArg List.length htwo
      exact absurd (by simpa using hlength) hbefore
  | @distinct keyword gap column hkeyword hgap hcolumn =>
    have has := hcolumn.splitAsAlias?_behind hgap hkeyword.inked hkeyword.blankless
    refine splitAlias_of_plain hinked has fun first second hwords => ?_
    rw [text, words_append_gap _ hgap, words_eq_self hkeyword.blankless hkeyword.nonempty] at hwords
    injection hwords with hfirst
    exact Or.inl (hfirst ▸ hkeyword)
  | @distinctBare keyword gap column gap' aliasName hkeyword hgap hcolumn hgap' halias =>
    have has := hcolumn.splitAsAlias?_between hgap hgap' hkeyword.inked (isAlias_of_isName halias)
    cases hword : isAsWord column with
    | true =>
      rw [hword, if_pos rfl] at has
      rw [aliased?, hword]
      exact splitAlias_of_as hinked has
    | false =>
      rw [hword, if_neg (by decide)] at has
      rw [aliased?, hword]
      refine splitAlias_of_plain hinked has fun first second htwo => ?_
      -- again there are at least three words
      rw [text, words_append_gap _ hgap', words_append_gap _ hgap,
        words_eq_self hkeyword.blankless hkeyword.nonempty,
        words_eq_self (isBlank_of_mem halias) (ne_nil_of_isName halias)] at htwo
      have hlength := congrArg List.length htwo
      exact absurd (by simpa using hlength) hcolumn.words_ne_nil

end Form

/-! ## Output names -/

/-- The column behind the last dot of a trimmed text. -/
theorem splitQualifier_snd (h : Inked cs) :
    (splitQualifier (String.ofList cs)).2 = String.ofList (behindLast '.' cs) := by
  unfold splitQualifier
  dsimp only
  rw [trimmed_of_inked h, cutLastOf?, String.toList_ofList]
  cases hcut : cutLast? '.' cs with
  | none => rw [Option.map_none, behindLast_eq_self (cutLast?_eq_none_iff.mp hcut)]
  | some parts =>
    obtain ⟨hcs, hdot⟩ := cutLast?_eq_some hcut
    rw [Option.map_some, hcs, behindLast_append_cons, behindLast_eq_self hdot]

theorem outputName_of_alias {ref expression aliasName : String}
    (h : splitAlias ref = (expression, some aliasName)) : outputName ref = aliasName := by
  unfold outputName
  rw [h]

theorem outputName_of_plain {ref : String} (halias : splitAlias ref = (String.ofList cs, none))
    (h : Inked cs) (hdistinct : afterDistinct? (String.ofList cs) = none) :
    outputName ref = String.ofList (behindLast '.' cs) := by
  unfold outputName
  rw [halias]
  dsimp only
  rw [hdistinct, Option.getD_none, splitQualifier_snd h]

theorem outputName_of_distinct {ref expression : String} (halias : splitAlias ref = (expression, none))
    (h : Inked cs) (hdistinct : afterDistinct? expression = some (String.ofList cs)) :
    outputName ref = String.ofList (behindLast '.' cs) := by
  unfold outputName
  rw [halias]
  dsimp only
  rw [hdistinct, Option.getD_some, splitQualifier_snd h]

theorem dot_not_mem_of_blanks (h : ∀ c ∈ cs, isBlank c = true) : '.' ∉ cs := fun hdot =>
  absurd (h '.' hdot) (by decide)

/-- What stands behind the last dot is more than a word behind a gap. -/
theorem behindLast_gap_ne (front : List Char) {back : List Char} (hgap : Gap gap)
    (hword : '.' ∉ word) (hback : ∀ c ∈ back, isBlank c = true) :
    behindLast '.' (front ++ gap ++ word ++ back) ≠ word := by
  have hstretch : '.' ∉ gap ++ word ++ back := by
    simp [dot_not_mem_of_blanks hgap.blanks, hword, dot_not_mem_of_blanks hback]
  have hwhole : front ++ gap ++ word ++ back = front ++ (gap ++ word ++ back) := by simp
  rw [hwhole, behindLast_append_of_not_mem front hstretch]
  intro heq
  have hlength := congrArg List.length heq
  have hpos := List.length_pos_iff.mpr hgap.nonempty
  simp only [List.length_append] at hlength
  omega

theorem behindLast_append_gap_ne (front : List Char) (hgap : Gap gap) (hword : '.' ∉ word) :
    behindLast '.' (front ++ gap ++ word) ≠ word := by
  have hne := behindLast_gap_ne front hgap hword (fun c hc => absurd hc List.not_mem_nil)
  rwa [List.append_nil] at hne

namespace Form

variable {f : Form}

/-- The forms whose output name is the name they give: a path that takes an alias has no blank in
it; behind `DISTINCT` stands a space, or the path has a dot; and behind `DISTINCT` an alias without
`AS` is only seen when the path is the word `AS`. -/
def Agrees : Form → Prop
  | path _ => True
  | withAs _ _ _ _ _ => True
  | bare column _ _ => column.any isBlank = false
  | distinct _ gap column => gap.head? = some ' ' ∨ '.' ∈ column
  | distinctBare _ _ column _ _ => isAsWord column = true

/-- The output name of a form is the name it gives exactly when the form agrees. -/
theorem outputName_eq_iff (h : f.Valid) :
    outputName (String.ofList f.text) = String.ofList f.name ↔ f.Agrees := by
  have halias := splitAlias_text h
  have hinked := inked_text h
  cases h with
  | path hcolumn =>
    refine iff_of_true ?_ trivial
    exact outputName_of_plain halias hinked (afterDistinct?_of_not_mem hcolumn.space_not_mem)
  | withAs hexpression hgap hkeyword hgap' haliasName =>
    refine iff_of_true ?_ trivial
    exact outputName_of_alias halias
  | @bare column gap aliasName hcolumn hword hgap haliasName =>
    have hname := dot_not_mem_of_isName haliasName
    cases hblank : column.any isBlank with
    | false =>
      rw [aliased?, if_neg (by simp [hblank])] at halias
      exact iff_of_true (outputName_of_alias halias) hblank
    | true =>
      rw [aliased?, if_pos hblank] at halias
      have hdistinct := afterDistinct?_of_not_word hcolumn.space_not_mem hword hgap aliasName
      rw [outputName_of_plain halias hinked hdistinct, String.ofList_inj]
      refine iff_of_false (behindLast_append_gap_ne column hgap hname) ?_
      rw [Agrees, hblank]
      decide
  | @distinct keyword gap column hkeyword hgap hcolumn =>
    have hdistinct := afterDistinct?_behind hkeyword hgap hcolumn.inked
    by_cases hspace : gap.head? = some ' '
    · rw [if_pos hspace] at hdistinct
      exact iff_of_true (outputName_of_distinct halias hcolumn.inked hdistinct) (Or.inl hspace)
    · rw [if_neg hspace] at hdistinct
      rw [outputName_of_plain halias hinked hdistinct, String.ofList_inj]
      by_cases hdot : '.' ∈ column
      · exact iff_of_true (behindLast_append_of_mem _ hdot) (Or.inr hdot)
      · refine iff_of_false ?_ fun hagrees => hagrees.elim hspace hdot
        rw [name, behindLast_eq_self hdot]
        exact behindLast_append_gap_ne keyword hgap hdot
  | @distinctBare keyword gap column gap' aliasName hkeyword hgap hcolumn hgap' haliasName =>
    have hname := dot_not_mem_of_isName haliasName
    cases hword : isAsWord column with
    | true =>
      rw [aliased?, if_pos hword] at halias
      exact iff_of_true (outputName_of_alias halias) hword
    | false =>
      have hnone : ¬ Agrees (distinctBare keyword gap column gap' aliasName) := by
        rw [Agrees, hword]
        decide
      rw [aliased?, hword, if_neg (by decide)] at halias
      have hinner := hcolumn.inked.append gap' (inked_of_isAlias (isAlias_of_isName haliasName))
      have hdistinct := afterDistinct?_behind hkeyword hgap hinner
      have htext : keyword ++ gap ++ (column ++ gap' ++ aliasName) =
          (distinctBare keyword gap column gap' aliasName).text := by simp [text]
      rw [htext] at hdistinct
      by_cases hspace : gap.head? = some ' '
      · rw [if_pos hspace] at hdistinct
        rw [outputName_of_distinct halias hinner hdistinct, String.ofList_inj]
        exact iff_of_false (behindLast_append_gap_ne column hgap' hname) hnone
      · rw [if_neg hspace] at hdistinct
        rw [outputName_of_plain halias hinked hdistinct, String.ofList_inj]
        exact iff_of_false (behindLast_append_gap_ne _ hgap' hname) hnone

end Form

/-- Blanks around a reference do not change its output name. -/
theorem outputName_wrapped {front back : List Char} (hfront : ∀ c ∈ front, isBlank c = true)
    (hback : ∀ c ∈ back, isBlank c = true) (h : Inked cs) :
    outputName (String.ofList (front ++ cs ++ back)) = outputName (String.ofList cs) := by
  unfold outputName
  rw [splitAlias_wrapped hfront hback h]

end TableOps.Reference
