import TableOps.Proofs.Reference.Forms
import TableOps.Proofs.Statement.Escaping
import TableOps.Statement.Read

/-!
# The result name of a selected column

A row comes back under the names that the select items carry: the alias at the end of an item, or its
last component. Asking for columns compares with the reference as it is written, and a transformer is
registered under the output name. The three read a reference each in their own way.

* `Statement.itemName` — the name that the text of an item carries.
* `Dialect.itemName_columnText` — for every form it is the name that the form gives.
* `Statement.forall_isAskedFor_iff` — when every request for a name keeps a column.
* `Reference.Form.Kept` — the forms that are kept when their name is asked for.

Main statement: `Statement.resultName_of_form`, the name of the item, the output name, the columns that
are kept and the transformer that is found, for every form.
-/

namespace TableOps

open Text Reference

/-! ## The name of an item -/

namespace Statement

/-- The name that a select item carries: what stands between the marks at its end, or else the last
stretch without blanks and dots. -/
def itemName (mark : Char) (item : List Char) : List Char :=
  if item.getLast? = some mark then behindLast mark item.dropLast
  else item.rtakeWhile fun c => !isBlank c && c != '.'

/-- A text that ends where a new name may begin: at its start, or behind a blank or a dot. -/
def Separated (front : List Char) : Prop :=
  front = [] ∨ ∃ before c, front = before ++ [c] ∧ (isBlank c = true ∨ c = '.')

variable {mark : Char} {front word gap : List Char}

theorem Separated.append {before : List Char} (hbefore : Separated before) (h : Separated front) :
    Separated (before ++ front) := by
  rcases h with rfl | ⟨rest, c, rfl, hc⟩
  · rwa [List.append_nil]
  · exact Or.inr ⟨before ++ rest, c, by simp, hc⟩

theorem separated_append_gap (before : List Char) (h : Gap gap) : Separated (before ++ gap) := by
  obtain ⟨rest, b, rfl, hb⟩ := h.exists_concat
  exact Or.inr ⟨before ++ rest, b, by simp, Or.inl hb⟩

/-- The name between the marks at the end. -/
theorem itemName_quoted (front : List Char) (h : mark ∉ word) :
    itemName mark (front ++ quotedChars mark word) = word := by
  have hwhole : front ++ quotedChars mark word = front ++ mark :: word ++ [mark] := by
    simp [quotedChars, doubled_eq_self h]
  rw [itemName, hwhole, if_pos List.getLast?_concat, List.dropLast_concat, behindLast_append_cons,
    behindLast_eq_self h]

/-- The word at the end. -/
theorem itemName_word (hfront : Separated front) (hword : ∀ c ∈ word, isBlank c = false ∧ c ≠ '.')
    (hne : word ≠ []) (hmark : mark ∉ word) : itemName mark (front ++ word) = word := by
  have hlast : (front ++ word).getLast? ≠ some mark := by
    rw [List.getLast?_append, List.getLast?_eq_some_getLast hne, Option.some_or, Ne, Option.some_inj]
    exact fun heq => hmark (heq ▸ List.getLast_mem hne)
  have hself : word.rtakeWhile (fun c => !isBlank c && c != '.') = word :=
    List.rtakeWhile_eq_self_iff.mpr fun c hc => by simp [(hword c hc).1, (hword c hc).2]
  rw [itemName, if_neg hlast]
  rcases hfront with rfl | ⟨before, c, rfl, hc⟩
  · rw [List.nil_append, hself]
  · have hstop : ¬ (!isBlank c && c != '.') = true := by
      rcases hc with hc | rfl
      · simp [hc]
      · simp
    have hbehind := rtakeWhile_append_cons (p := fun c => !isBlank c && c != '.') before hstop word
    rw [List.append_assoc, List.singleton_append, hbehind, hself]

end Statement

/-! ## Paths and raw text as items -/

namespace Reference

variable {aliasName : List Char}

theorem quoteMark_not_mem_of_isAlias (engine : Engine) (h : isAlias aliasName = true) :
    engine.quoteMark ∉ aliasName := fun hmark =>
  absurd (of_mem_isAlias h hmark) (by cases engine <;> decide)

/-- A name is a word of its own. -/
theorem word_of_isName (h : isName aliasName = true) :
    ∀ c ∈ aliasName, isBlank c = false ∧ c ≠ '.' := fun c hc =>
  ⟨isBlank_of_mem h c hc, fun hdot => dot_not_mem_of_isName h (hdot ▸ hc)⟩

end Reference

namespace Reference.IsPath

open Statement

variable {cs : List Char}

/-- A path ends in its last part. -/
theorem exists_separated (h : IsPath cs) :
    ∃ front, Separated front ∧ cs = front ++ behindLast '.' cs := by
  cases hcut : cutLast? '.' cs with
  | none => exact ⟨[], Or.inl rfl, (behindLast_eq_self (cutLast?_eq_none_iff.mp hcut)).symm⟩
  | some parts =>
    obtain ⟨before, after⟩ := parts
    obtain ⟨rfl, hdot⟩ := cutLast?_eq_some hcut
    refine ⟨before ++ ['.'], Or.inr ⟨before, '.', rfl, Or.inr rfl⟩, ?_⟩
    rw [behindLast_append_cons, behindLast_eq_self hdot]
    simp

/-- The last part of a path is an unquoted word. -/
theorem behindLast_word (h : IsPath cs) (engine : Engine) :
    behindLast '.' cs ≠ [] ∧ (∀ c ∈ behindLast '.' cs, isBlank c = false ∧ c ≠ '.') ∧
      engine.quoteMark ∉ behindLast '.' cs ∧ '%' ∉ behindLast '.' cs := by
  rcases h.behindLast_cases with hname | hstar
  · have halias := isAlias_of_isName hname
    exact ⟨ne_nil_of_isName hname, word_of_isName hname, quoteMark_not_mem_of_isAlias engine halias,
      percent_not_mem_of_isAlias halias⟩
  · rw [hstar]
    refine ⟨by decide, fun c hc => ?_, by cases engine <;> decide, by decide⟩
    rw [List.mem_singleton.mp hc]
    decide

end Reference.IsPath

namespace Dialect

open Statement

variable (d : Dialect) {cs front word gap : List Char}

theorem exists_intercalate_concat (parts : List (List Char)) (last : List Char) :
    ∃ front, Separated front ∧ List.intercalate ['.'] (parts ++ [last]) = front ++ last := by
  induction parts with
  | nil => exact ⟨[], Or.inl rfl, by simp⟩
  | cons part parts ih =>
    obtain ⟨front, hfront, heq⟩ := ih
    have hdotted : Separated (part ++ ['.']) := Or.inr ⟨part, '.', rfl, Or.inr rfl⟩
    refine ⟨part ++ ['.'] ++ front, hdotted.append hfront, ?_⟩
    rw [List.cons_append, List.intercalate_cons_of_ne_nil (by simp), heq]
    simp

/-- A path is written with its last part at the end, which is quoted unless it is a star. -/
theorem exists_path_eq (cs : List Char) :
    ∃ front, Separated front ∧
      (d.path (String.ofList cs)).toList = front ++ partChars d.engine.quoteMark (behindLast '.' cs) := by
  rw [toList_path, String.toList_ofList]
  obtain ⟨parts, hparts⟩ := List.getLast?_eq_some_iff.mp (getLast?_splitOn '.' cs)
  rw [hparts, List.map_append, List.map_singleton]
  exact exists_intercalate_concat _ _

/-- The last part of a path is the name of an item that ends in the path. -/
theorem itemName_path (h : IsPath cs) (hfront : Separated front) :
    itemName d.engine.quoteMark (front ++ (d.path (String.ofList cs)).toList) =
      behindLast '.' cs := by
  obtain ⟨before, hbefore, hpath⟩ := d.exists_path_eq cs
  obtain ⟨hne, hword, hmark, -⟩ := h.behindLast_word d.engine
  rw [hpath, ← List.append_assoc, partChars]
  split
  · exact itemName_word (hfront.append hbefore) hword hne hmark
  · exact itemName_quoted _ hmark

/-- A word at the end of raw text is the name of the item. -/
theorem itemName_raw (hfront : Separated front) (hword : ∀ c ∈ word, isBlank c = false ∧ c ≠ '.')
    (hne : word ≠ []) (hmark : d.engine.quoteMark ∉ word) (hpercent : '%' ∉ word) :
    itemName d.engine.quoteMark (d.raw (String.ofList (front ++ word))).toList = word := by
  unfold raw
  split
  · -- the percent signs in front of the word are doubled
    have hdoubled : Separated (doubled '%' front) := by
      rcases hfront with rfl | ⟨before, c, rfl, hc⟩
      · exact Or.inl rfl
      · have hnot : c ≠ '%' := by
          rintro rfl
          exact absurd hc (by decide)
        exact Or.inr ⟨doubled '%' before, c, by simp [doubled_append, hnot], hc⟩
    rw [String.toList_ofList, String.toList_ofList, doubled_append, doubled_eq_self hpercent]
    exact itemName_word hdoubled hword hne hmark
  · rw [String.toList_ofList]
    exact itemName_word hfront hword hne hmark

/-! ## Every form as an item -/

theorem columnText_of_alias {ref expression aliasName : String}
    (h : splitAlias ref = (expression, some aliasName)) :
    d.columnText ref = d.columnExpression expression ++ " AS " ++ d.identifier aliasName := by
  unfold columnText
  rw [h]

theorem columnText_of_plain {ref expression : String} (h : splitAlias ref = (expression, none)) :
    d.columnText ref = d.columnExpression expression := by
  unfold columnText
  rw [h]

/-- The alias of a reference is the name of its item. -/
theorem itemName_of_alias {ref expression : String}
    (h : splitAlias ref = (expression, some (String.ofList word))) (hword : isAlias word = true) :
    itemName d.engine.quoteMark (d.columnText ref).toList = word := by
  rw [d.columnText_of_alias h, String.toList_append, toList_identifier, String.toList_ofList]
  exact itemName_quoted _ (quoteMark_not_mem_of_isAlias d.engine hword)

/-- What has a gap in front of something other than a dot is no path. -/
theorem isIdentifierPath_gap (front : List Char) (hgap : Gap gap) {c : Char} (hc : c ≠ '.')
    (rest : List Char) : isIdentifierPath (String.ofList (front ++ gap ++ c :: rest)) = false := by
  obtain ⟨before, b, rfl, hb⟩ := hgap.exists_concat
  rw [isIdentifierPath, String.toList_ofList, ← Bool.not_eq_true]
  intro hparts
  have hwhole : front ++ (before ++ [b]) ++ c :: rest = (front ++ before) ++ b :: c :: rest := by simp
  rw [hwhole] at hparts
  exact hc (eq_dot_of_isBlank hparts hb)

theorem isIdentifierPath_gap_path (front : List Char) (hgap : Gap gap) (h : IsPath cs) :
    isIdentifierPath (String.ofList (front ++ gap ++ cs)) = false := by
  obtain ⟨c, rest, rfl, -, hc⟩ := h.exists_cons
  exact isIdentifierPath_gap front hgap hc rest

theorem isIdentifierPath_gap_name (front : List Char) (hgap : Gap gap) (h : isName word = true) :
    isIdentifierPath (String.ofList (front ++ gap ++ word)) = false := by
  cases word with
  | nil => cases h
  | cons c rest =>
    exact isIdentifierPath_gap front hgap (word_of_isName h c List.mem_cons_self).2 rest

theorem columnExpression_of_raw {expression : String} (hpath : isIdentifierPath expression = false)
    (hdistinct : (afterDistinct? expression).filter isIdentifierPath = none) :
    d.columnExpression expression = d.raw expression := by
  rw [columnExpression, if_neg (by rw [hpath]; decide), hdistinct]

/-- A name behind a gap is the name of an item of raw text. -/
theorem itemName_raw_gap (front : List Char) (hgap : Gap gap) (h : isName word = true) :
    itemName d.engine.quoteMark (d.raw (String.ofList (front ++ gap ++ word))).toList = word := by
  have halias := isAlias_of_isName h
  exact d.itemName_raw (separated_append_gap front hgap) (word_of_isName h) (ne_nil_of_isName h)
    (quoteMark_not_mem_of_isAlias d.engine halias) (percent_not_mem_of_isAlias halias)

/-- A path behind `DISTINCT` is quoted when a space comes first in the gap, and otherwise raw text. Its
last part is the name of the item in both cases. -/
theorem itemName_distinct {keyword column : List Char} (hkeyword : IsDistinctWord keyword)
    (hgap : Gap gap) (hcolumn : IsPath column) :
    itemName d.engine.quoteMark
      (d.columnExpression (String.ofList (keyword ++ gap ++ column))).toList =
        behindLast '.' column := by
  have hpath := isIdentifierPath_gap_path keyword hgap hcolumn
  have hdistinct := afterDistinct?_behind hkeyword hgap hcolumn.inked
  by_cases hspace : gap.head? = some ' '
  · have hcolumnPath : isIdentifierPath (String.ofList column) = true := by
      rw [isIdentifierPath, String.toList_ofList, hcolumn.parts]
    rw [if_pos hspace] at hdistinct
    rw [columnExpression, if_neg (by rw [hpath]; decide), hdistinct,
      Option.filter_some_pos hcolumnPath, String.toList_append]
    exact d.itemName_path hcolumn (Or.inr ⟨"DISTINCT".toList, ' ', by decide, Or.inl (by decide)⟩)
  · rw [if_neg hspace] at hdistinct
    rw [d.columnExpression_of_raw hpath (by rw [hdistinct, Option.filter_none])]
    obtain ⟨front, hfront, hcut⟩ := hcolumn.exists_separated
    obtain ⟨hne, hword, hmark, hpercent⟩ := hcolumn.behindLast_word d.engine
    have hwhole : keyword ++ gap ++ column = keyword ++ gap ++ front ++ behindLast '.' column := by
      rw [List.append_assoc _ front, ← hcut]
    rw [hwhole]
    exact d.itemName_raw ((separated_append_gap keyword hgap).append hfront) hword hne hmark hpercent

/-- A path and a name behind `DISTINCT` are raw text together. -/
theorem columnExpression_distinct_gap {keyword column gap' : List Char}
    (hkeyword : IsDistinctWord keyword) (hgap : Gap gap) (hcolumn : IsPath column)
    (hgap' : Gap gap') (h : isName word = true) :
    d.columnExpression (String.ofList (keyword ++ gap ++ column ++ gap' ++ word)) =
      d.raw (String.ofList (keyword ++ gap ++ column ++ gap' ++ word)) := by
  have hpath := isIdentifierPath_gap_name (keyword ++ gap ++ column) hgap' h
  have hinner := hcolumn.inked.append gap' (inked_of_isAlias (isAlias_of_isName h))
  have hdistinct := afterDistinct?_behind hkeyword hgap hinner
  have htext : keyword ++ gap ++ (column ++ gap' ++ word) = keyword ++ gap ++ column ++ gap' ++ word := by
    simp
  rw [htext] at hdistinct
  refine d.columnExpression_of_raw hpath ?_
  rw [hdistinct]
  split
  · exact Option.filter_some_neg (by rw [isIdentifierPath_gap_name column hgap' h])
  · rfl

/-- The item of every form carries the name that the form gives. -/
theorem itemName_columnText {f : Form} (h : f.Valid) :
    itemName d.engine.quoteMark (d.columnText (String.ofList f.text)).toList = f.name := by
  have halias := Form.splitAlias_text h
  cases h with
  | @path column hcolumn =>
    have hpath : isIdentifierPath (String.ofList column) = true := by
      rw [isIdentifierPath, String.toList_ofList, hcolumn.parts]
    have hitem := d.itemName_path hcolumn (show Separated [] from Or.inl rfl)
    rw [List.nil_append] at hitem
    rw [d.columnText_of_plain halias, Form.text, Form.name, columnExpression, if_pos hpath, hitem]
  | withAs hexpression hgap hkeyword hgap' haliasName =>
    rw [Form.aliased?] at halias
    rw [Form.name]
    exact d.itemName_of_alias halias haliasName
  | @bare column gap aliasName hcolumn hword hgap haliasName =>
    cases hblank : column.any isBlank with
    | false =>
      rw [Form.aliased?, if_neg (by simp [hblank])] at halias
      exact d.itemName_of_alias halias (isAlias_of_isName haliasName)
    | true =>
      rw [Form.aliased?, if_pos hblank] at halias
      have hpath := isIdentifierPath_gap_name column hgap haliasName
      have hdistinct := afterDistinct?_of_not_word hcolumn.space_not_mem hword hgap aliasName
      rw [d.columnText_of_plain halias, Form.text,
        d.columnExpression_of_raw hpath (by rw [hdistinct, Option.filter_none])]
      exact d.itemName_raw_gap column hgap haliasName
  | distinct hkeyword hgap hcolumn =>
    rw [d.columnText_of_plain halias, Form.text, Form.name]
    exact d.itemName_distinct hkeyword hgap hcolumn
  | @distinctBare keyword gap column gap' aliasName hkeyword hgap hcolumn hgap' haliasName =>
    cases hword : isAsWord column with
    | true =>
      rw [Form.aliased?, if_pos hword] at halias
      exact d.itemName_of_alias halias (isAlias_of_isName haliasName)
    | false =>
      rw [Form.aliased?, hword, if_neg (by decide)] at halias
      rw [d.columnText_of_plain halias, Form.text,
        d.columnExpression_distinct_gap hkeyword hgap hcolumn hgap' haliasName]
      exact d.itemName_raw_gap _ hgap' haliasName

end Dialect

/-! ## Asking for a column -/

namespace Statement

theorem lastPart_eq (column : String) :
    lastPart column = String.ofList (behindLast '.' column.toList) := by
  rw [lastPart, pathParts, List.getLast?_map, getLast?_splitOn, Option.map_some, Option.getD_some]

/-- Every request for a name without a dot keeps a column exactly when that is its alias, or what
stands behind its last dot. -/
theorem forall_isAskedFor_iff (column : String) {name : List Char} (hname : '.' ∉ name) :
    (∀ fields, String.ofList name ∈ fields → isAskedFor fields column = true) ↔
      (splitAlias column).2 = some (String.ofList name) ∨ behindLast '.' column.toList = name := by
  have hself : column = String.ofList name → behindLast '.' column.toList = name := by
    rintro rfl
    rw [String.toList_ofList, behindLast_eq_self hname]
  have hasked : ∀ fields, isAskedFor fields column = true ↔ column ∈ fields ∨
      (∃ aliasName, (splitAlias column).2 = some aliasName ∧ aliasName ∈ fields) ∨
        String.ofList (behindLast '.' column.toList) ∈ fields := by
    intro fields
    simp only [isAskedFor, lastPart_eq, Bool.or_eq_true, List.contains_iff_mem, Option.any_eq_true,
      or_assoc]
  simp only [hasked]
  constructor
  · intro h
    rcases h [String.ofList name] List.mem_cons_self with hcolumn | ⟨aliasName, halias, hmem⟩ | hlast
    · exact Or.inr (hself (List.mem_singleton.mp hcolumn))
    · exact Or.inl (List.mem_singleton.mp hmem ▸ halias)
    · exact Or.inr (String.ofList_inj.mp (List.mem_singleton.mp hlast))
  · rintro (halias | hlast) fields hmem
    · exact Or.inr (Or.inl ⟨_, halias, hmem⟩)
    · exact Or.inr (Or.inr (hlast ▸ hmem))

end Statement

namespace Reference.Form

variable {f : Form} {front back : List Char}

/-- The forms that are kept when their name is asked for, with what stands around them: no blank
behind a column without an alias, none in front of one without a dot, and no `DISTINCT` in front of
one without a dot. An alias is found wherever the reference is read with it. -/
def Kept (front back : List Char) : Form → Prop
  | path column => back = [] ∧ (front = [] ∨ '.' ∈ column)
  | withAs _ _ _ _ _ => True
  | bare column _ _ => column.any isBlank = false
  | distinct _ _ column => back = [] ∧ '.' ∈ column
  | distinctBare _ _ column _ _ => isAsWord column = true

/-- A form that is kept agrees. -/
theorem Kept.agrees (h : f.Kept front back) : f.Agrees := by
  cases f with
  | path => trivial
  | withAs => trivial
  | bare => exact h
  | distinct => exact Or.inr h.2
  | distinctBare => exact h

theorem dot_not_mem_name (h : f.Valid) : '.' ∉ f.name := by
  cases h with
  | path => exact not_mem_behindLast '.' _
  | withAs _ _ _ _ haliasName =>
    exact fun hdot => absurd (of_mem_isAlias haliasName hdot) (by decide)
  | bare _ _ _ haliasName => exact dot_not_mem_of_isName haliasName
  | distinct => exact not_mem_behindLast '.' _
  | distinctBare _ _ _ _ haliasName => exact dot_not_mem_of_isName haliasName

/-- A path behind anything is found behind the last dot when it has a dot and nothing follows. -/
theorem behindLast_wrapped_eq_iff {column : List Char} (hdot : '.' ∈ column) (front : List Char)
    (hback : ∀ c ∈ back, isBlank c = true) :
    behindLast '.' (front ++ column ++ back) = behindLast '.' column ↔ back = [] := by
  rw [behindLast_append_of_not_mem _ (dot_not_mem_of_blanks hback), behindLast_append_of_mem _ hdot]
  simp

/-- The forms that are found by their alias, or by what stands behind the last dot. -/
theorem found_iff_kept (h : f.Valid) (hfront : ∀ c ∈ front, isBlank c = true)
    (hback : ∀ c ∈ back, isBlank c = true) :
    (splitAlias (String.ofList (front ++ f.text ++ back))).2 = some (String.ofList f.name) ∨
        behindLast '.' (front ++ f.text ++ back) = f.name ↔ f.Kept front back := by
  have halias := splitAlias_text h
  rw [splitAlias_wrapped hfront hback (inked_text h), halias]
  cases h with
  | @path column hcolumn =>
    rw [aliased?, text, name, Kept, or_iff_right (by simp)]
    by_cases hdot : '.' ∈ column
    · rw [behindLast_wrapped_eq_iff hdot front hback]
      simp [hdot]
    · have hwhole : '.' ∉ front ++ column ++ back := by
        simp [dot_not_mem_of_blanks hfront, hdot, dot_not_mem_of_blanks hback]
      rw [behindLast_eq_self hwhole, behindLast_eq_self hdot]
      constructor
      · intro heq
        have hlength := congrArg List.length heq
        simp only [List.length_append] at hlength
        exact ⟨List.length_eq_zero_iff.mp (by omega),
          Or.inl (List.length_eq_zero_iff.mp (by omega))⟩
      · rintro ⟨rfl, rfl | hdot'⟩
        · simp
        · exact absurd hdot' hdot
  | withAs hexpression hgap hkeyword hgap' haliasName => exact iff_of_true (Or.inl rfl) trivial
  | @bare column gap aliasName hcolumn hword hgap haliasName =>
    rw [aliased?, text, name, Kept]
    cases hblank : column.any isBlank with
    | false => exact iff_of_true (Or.inl rfl) rfl
    | true =>
      have hne := behindLast_gap_ne (front ++ column) hgap (dot_not_mem_of_isName haliasName) hback
      simpa using hne
  | @distinct keyword gap column hkeyword hgap hcolumn =>
    rw [aliased?, text, name, Kept, or_iff_right (by simp)]
    by_cases hdot : '.' ∈ column
    · have hfound := behindLast_wrapped_eq_iff hdot (front ++ (keyword ++ gap)) hback
      rw [List.append_assoc front] at hfound
      rw [hfound, and_iff_left hdot]
    · refine iff_of_false ?_ fun hkept => hdot hkept.2
      have hne := behindLast_gap_ne (front ++ keyword) hgap hdot hback
      rw [behindLast_eq_self hdot]
      simpa using hne
  | @distinctBare keyword gap column gap' aliasName hkeyword hgap hcolumn hgap' haliasName =>
    rw [aliased?, text, name, Kept]
    cases hword : isAsWord column with
    | true => exact iff_of_true (Or.inl rfl) rfl
    | false =>
      have hne := behindLast_gap_ne (front ++ (keyword ++ gap ++ column)) hgap'
        (dot_not_mem_of_isName haliasName) hback
      simpa using hne

end Reference.Form

/-! ## The result name -/

namespace Statement

/-- A reference of any form, perhaps with blanks around it. The item that is written for it carries the
name that the form gives, and rows come back under that name. It is the output name of the reference,
under which a transformer is registered, exactly when the form agrees; and every request for it keeps
the column exactly when the form is kept. -/
theorem resultName_of_form {f : Form} (h : f.Valid) {front back : List Char}
    (hfront : ∀ c ∈ front, isBlank c = true) (hback : ∀ c ∈ back, isBlank c = true) {column : String}
    (hcolumn : column.toList = front ++ f.text ++ back) :
    (∀ d : Dialect, itemName d.engine.quoteMark (d.columnText column).toList = f.name) ∧
      (outputName column = String.ofList f.name ↔ f.Agrees) ∧
      (∀ e : Expression, column ∈ e.columns →
        ((∀ fields, String.ofList f.name ∈ fields → column ∈ selected e (some fields)) ↔
          f.Kept front back)) ∧
      ∀ (e : Expression) (t : Transformer), ∃ e',
        (Expression.columnEntry (.map [(column, .transformer t)])).run.run e = (.ok column, e') ∧
        (f.Agrees → e'.transformers.get? (String.ofList f.name) = some (.transformer t)) := by
  obtain rfl : column = String.ofList (front ++ f.text ++ back) := by
    rw [← hcolumn, String.ofList_toList]
  have hinked := Form.inked_text h
  have hagrees : outputName (String.ofList (front ++ f.text ++ back)) = String.ofList f.name ↔
      f.Agrees := by
    rw [outputName_wrapped hfront hback hinked, Form.outputName_eq_iff h]
  refine ⟨fun d => ?_, hagrees, fun e hmem => ?_, fun e t => ?_⟩
  · have hwrapped : d.columnText (String.ofList (front ++ f.text ++ back)) =
        d.columnText (String.ofList f.text) := by
      unfold Dialect.columnText
      rw [splitAlias_wrapped hfront hback hinked]
    rw [hwrapped, d.itemName_columnText h]
  · rw [← Form.found_iff_kept h hfront hback,
      ← String.toList_ofList (l := front ++ f.text ++ back), String.ofList_toList,
      ← forall_isAskedFor_iff _ (Form.dot_not_mem_name h)]
    refine forall_congr' fun fields => imp_congr_right fun _ => ?_
    rw [selected, List.mem_filter, and_iff_right hmem]
  · refine ⟨_, rfl, fun h => ?_⟩
    rw [← hagrees.mpr h]
    simp

/-- The distinct values of a qualified column. -/
def distinctQualified : Form :=
  .distinct "DISTINCT".toList [' '] "psn.name".toList

theorem valid_distinctQualified : distinctQualified.Valid :=
  .distinct (by decide) (gap_of_all (by decide) (by decide)) (isPath_of_last (by decide) (by decide))

/-- They come back under the name of the column, which is their output name; a request for that name
keeps them, and finds their transformer. -/
theorem resultName_of_form_qualified :
    (∀ d : Dialect,
      itemName d.engine.quoteMark (d.columnText "DISTINCT psn.name").toList = "name".toList) ∧
      outputName "DISTINCT psn.name" = "name" ∧
      (∀ e : Expression, "DISTINCT psn.name" ∈ e.columns →
        "DISTINCT psn.name" ∈ selected e (some ["age", "name"])) ∧
      ∀ (e : Expression) (t : Transformer), ∃ e',
        (Expression.columnEntry (.map [("DISTINCT psn.name", .transformer t)])).run.run e =
          (.ok "DISTINCT psn.name", e') ∧ e'.transformers.get? "name" = some (.transformer t) := by
  obtain ⟨hitem, hname, hkept, hfound⟩ := @resultName_of_form distinctQualified
    valid_distinctQualified [] [] (by simp) (by simp) "DISTINCT psn.name" (by decide)
  have hform : Form.Kept [] [] distinctQualified := ⟨rfl, by decide⟩
  refine ⟨hitem, hname.mpr hform.agrees, fun e hmem => ?_, fun e t => ?_⟩
  · exact (hkept e hmem).mpr hform _ (by decide)
  · obtain ⟨e', hrun, hget⟩ := hfound e t
    exact ⟨e', hrun, hget hform.agrees⟩

/-- The distinct values of a column without a qualifier. -/
def distinctUnqualified : Form :=
  .distinct "DISTINCT".toList [' '] "name".toList

theorem valid_distinctUnqualified : distinctUnqualified.Valid :=
  .distinct (by decide) (gap_of_all (by decide) (by decide)) (isPath_of_last (by decide) (by decide))

/-- The same with an alias. -/
def distinctRenamed : Form :=
  .distinctBare "DISTINCT".toList [' '] "name".toList [' '] "n".toList

theorem valid_distinctRenamed : distinctRenamed.Valid :=
  .distinctBare (by decide) (gap_of_all (by decide) (by decide))
    (isPath_of_last (by decide) (by decide)) (gap_of_all (by decide) (by decide)) (by decide)

/-- Without a qualifier such a column has one name for its item and its transformer, and a request for
that name leaves it out. With an alias and no `AS`, the item carries the alias, and the output name is
the column and the alias together. -/
theorem resultName_of_distinct_lost :
    (∀ d : Dialect,
      itemName d.engine.quoteMark (d.columnText "DISTINCT name").toList = "name".toList) ∧
      outputName "DISTINCT name" = "name" ∧
      (∀ e : Expression, e.columns = ["DISTINCT name"] → selected e (some ["name"]) = []) ∧
      (∀ d : Dialect, itemName d.engine.quoteMark (d.columnText "DISTINCT name n").toList = ['n']) ∧
      outputName "DISTINCT name n" = "name n" := by
  have hunqualified : String.ofList distinctUnqualified.text = "DISTINCT name" := by decide
  have hrenamed : String.ofList distinctRenamed.text = "DISTINCT name n" := by decide
  have hname : distinctUnqualified.name = "name".toList := by decide
  have hasked : isAskedFor ["name"] "DISTINCT name" = false := by decide +kernel
  refine ⟨fun d => ?_, by decide +kernel, fun e he => ?_, fun d => ?_, by decide +kernel⟩
  · rw [← hunqualified, d.itemName_columnText valid_distinctUnqualified, hname]
  · rw [selected, he, List.filter_cons_of_neg (by rw [hasked]; decide), List.filter_nil]
  · rw [← hrenamed, d.itemName_columnText valid_distinctRenamed]
    rfl

end Statement

end TableOps
