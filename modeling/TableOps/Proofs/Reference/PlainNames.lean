import Mathlib.Data.List.TakeWhile
import TableOps.Proofs.Reference.Parts
import TableOps.Proofs.Statement.References
import TableOps.Proofs.Text.Doubled
import TableOps.Proofs.Text.Stretches
import TableOps.Statement.Write

/-!
# Names that are read as themselves

A column of a table may have any name. Where such a name is read as a reference it is trimmed and cut
at blanks and dots, and only an identifier is quoted. The names that come out of this unchanged are
those that consist of a letter or underscore and name characters behind it.

* `Reference.splitAlias_of_isName`, `Reference.splitQualifier_of_isName` — such a name is a column
  without alias and qualifier.
* `TableRef.parse_of_isPlain` — a text without blanks and dots is the table of that name.

Main statements: `Statement.ownColumn?_eq_self_iff`, the names that are written as the column of that
name; `Dialect.columnText_eq_identifier_iff`, the names that are quoted as they stand.
-/

namespace TableOps

/-! ## Plain names -/

namespace Reference

theorem isBlank_of_isNameChar {c : Char} (h : isNameChar c = true) : Text.isBlank c = false := by
  have hrange : 36 ≤ c.toNat ∧ c.toNat ≤ 122 ∧ c.toNat ≠ 0x85 := by
    simp only [isNameChar, isNameStart, Bool.or_eq_true, Bool.and_eq_true, decide_eq_true_eq,
      beq_iff_eq, Char.le_def, UInt32.le_iff_toNat_le] at h
    unfold Char.toNat
    rcases h with (((h | h) | rfl) | h) | rfl
    · change 97 ≤ c.val.toNat ∧ c.val.toNat ≤ 122 at h
      omega
    · change 65 ≤ c.val.toNat ∧ c.val.toNat ≤ 90 at h
      omega
    · decide
    · change 48 ≤ c.val.toNat ∧ c.val.toNat ≤ 57 at h
      omega
    · decide
  unfold Text.isBlank Text.isWhiteSpace
  simp only [Bool.or_eq_false_iff, Bool.and_eq_false_iff, decide_eq_false_iff_not, beq_eq_false_iff_ne]
  omega

variable {cs : List Char} {name : String}

theorem isNameChar_of_mem (h : isName cs = true) : ∀ c ∈ cs, isNameChar c = true := by
  cases cs with
  | nil => cases h
  | cons c cs =>
    rw [isName, Bool.and_eq_true, List.all_eq_true] at h
    rw [List.forall_mem_cons]
    exact ⟨by rw [isNameChar, h.1]; rfl, h.2⟩

theorem isBlank_of_mem (h : isName cs = true) : ∀ c ∈ cs, Text.isBlank c = false :=
  fun c hc => isBlank_of_isNameChar (isNameChar_of_mem h c hc)

theorem dot_not_mem_of_isName (h : isName cs = true) : '.' ∉ cs := fun hc =>
  absurd (isNameChar_of_mem h '.' hc) (by decide)

theorem ne_nil_of_isName (h : isName cs = true) : cs ≠ [] := by
  rintro rfl
  cases h

theorem dropFinalNewline_eq_self (h : cs.getLast? ≠ some '\n') : dropFinalNewline cs = cs :=
  if_neg h

theorem getLast?_of_isName (h : isName cs = true) : cs.getLast? ≠ some '\n' := fun hlast =>
  absurd (isNameChar_of_mem h '\n' (List.mem_of_getLast? hlast)) (by decide)

/-- An identifier that does not end in a line feed is a name. -/
theorem isName_iff : isName cs = true ↔ isIdentifierChars cs = true ∧ cs.getLast? ≠ some '\n' := by
  constructor
  · intro h
    refine ⟨?_, getLast?_of_isName h⟩
    rw [isIdentifierChars, dropFinalNewline_eq_self (getLast?_of_isName h), h]
  · rintro ⟨h, hlast⟩
    rwa [isIdentifierChars, dropFinalNewline_eq_self hlast] at h

theorem trimmed_of_isName (h : isName name.toList = true) : Text.trimmed name = name := by
  rw [Text.trimmed, Text.trim_eq_self (isBlank_of_mem h), String.ofList_toList]

/-- A name is not cut at a dot. -/
theorem splitQualifier_of_isName (h : isName name.toList = true) :
    splitQualifier name = (none, name) := by
  rw [splitQualifier_of_not_mem (dot_not_mem_of_isName h), trimmed_of_isName h]

theorem cutLastWord_of_blankless (h : ∀ c ∈ cs, Text.isBlank c = false) :
    cutLastWord cs = (cs, []) := by
  have hback : ∀ c ∈ cs.reverse, (!Text.isBlank c) = true := fun c hc => by
    rw [h c (List.mem_reverse.mp hc)]
    rfl
  have hword := List.takeWhile_eq_self_iff.mpr hback
  have hbefore := List.dropWhile_eq_nil_iff.mpr hback
  simp only [cutLastWord, hword, hbefore, List.reverse_reverse]
  rfl

/-- A name is not cut at blanks. -/
theorem splitAlias_of_isName (h : isName name.toList = true) : splitAlias name = (name, none) := by
  have hblankless := isBlank_of_mem h
  have hkeyword : splitAsAlias? name.toList = none := by
    rw [splitAsAlias?, cutLastWord_of_blankless hblankless]
    dsimp only
    rw [cutLastWord_of_blankless (by simp)]
    simp [isAsWord]
  have hwords : Text.wordsOf name = [name] := by
    rw [Text.wordsOf, Text.words_eq_self hblankless (ne_nil_of_isName h), List.map_singleton,
      String.ofList_toList]
  unfold splitAlias
  dsimp only
  rw [trimmed_of_isName h, hkeyword, hwords]

/-- Without an alias a reference is only trimmed. -/
theorem splitAlias_fst {ref : String} (h : (splitAlias ref).2 = none) :
    (splitAlias ref).1 = Text.trimmed ref := by
  unfold splitAlias at h ⊢
  dsimp only at h ⊢
  split at h
  · cases h
  · split at h
    · split at h
      · cases h
      · rename_i hguard
        rw [if_neg hguard]
    · rfl

/-- A column behind its qualifier does not end in a line feed. -/
theorem getLast?_splitQualifier (ref : String) :
    (splitQualifier ref).2.toList.getLast? ≠ some '\n' := by
  intro hlast
  have htrimmed : (Text.trimmed ref).toList.getLast? = some '\n' := by
    unfold splitQualifier at hlast
    dsimp only at hlast
    split at hlast
    · rename_i hcut
      rw [(cutLastOf?_eq_some hcut).1, List.getLast?_append, List.getLast?_cons, hlast]
      rfl
    · exact hlast
  rw [Text.trimmed, String.toList_ofList] at htrimmed
  exact absurd (Text.isBlank_getLast_trim htrimmed) (by decide)

end Reference

/-! ## What becomes of a name -/

open Reference

/-- Where no table is joined, a name is written as the column of that name exactly when it is
plain. -/
theorem Statement.ownColumn?_eq_self_iff (table : TableRef) (name : String) :
    ownColumn? table false name = some name ↔ isName name.toList = true := by
  constructor
  · intro h
    obtain ⟨hname, hidentifier⟩ := ownColumn?_eq_some h
    refine isName_iff.mpr ⟨hidentifier, ?_⟩
    rw [hname]
    exact getLast?_splitQualifier _
  · intro h
    have hidentifier : isIdentifier name = true := (isName_iff.mp h).1
    unfold ownColumn?
    rw [splitAlias_of_isName h, splitQualifier_of_isName h]
    simp [hidentifier]

namespace Dialect

variable (d : Dialect) {name : String}

theorem toList_identifier (name : String) :
    (d.identifier name).toList = Text.quotedChars d.engine.quoteMark name.toList := by
  rw [identifier, Text.quoted, String.toList_ofList]

theorem isQuotedPath_identifier (name : String) : d.IsQuotedPath (d.identifier name) := by
  rw [IsQuotedPath, toList_identifier]
  exact .single _

/-- A plain name is quoted as it stands. -/
theorem columnText_of_isName (h : isName name.toList = true) :
    d.columnText name = d.identifier name := by
  have hsplit : Text.splitOn '.' name.toList = [name.toList] :=
    Text.splitOn_of_not_mem (dot_not_mem_of_isName h)
  have hidentifier := (isName_iff.mp h).1
  have hpath : isIdentifierPath name = true := by
    rw [isIdentifierPath, hsplit, isPathParts, hidentifier, Bool.true_or]
  have hstar : name ≠ "*" := by
    rintro rfl
    exact absurd h (by decide)
  unfold columnText
  rw [splitAlias_of_isName h]
  dsimp only
  rw [columnExpression, if_pos hpath, path, pathParts, hsplit]
  simp [hstar]

/-- A path that is written like a quoted name has that name as its only part. -/
theorem eq_of_path_eq {path : String} (hpath : isIdentifierPath path = true)
    (h : d.path path = d.identifier name) : path = name ∧ isIdentifierChars name.toList = true := by
  have hchars := congrArg String.toList h
  rw [toList_path, toList_identifier] at hchars
  have hwhole := Text.intercalate_splitOn '.' path.toList
  unfold isIdentifierPath at hpath
  cases hsplit : Text.splitOn '.' path.toList with
  | nil => exact absurd hsplit (Text.splitOn_ne_nil _ _)
  | cons part parts =>
    rw [hsplit] at hchars hwhole hpath
    cases parts with
    | nil =>
      rw [List.map_singleton, List.intercalate_singleton] at hchars
      rw [List.intercalate_singleton] at hwhole
      unfold partChars at hchars
      split at hchars
      · rename_i hstar
        rw [hstar] at hchars
        injection hchars with hmark
        have hstarred : '*' ≠ d.engine.quoteMark := by cases d.engine <;> decide
        exact absurd hmark hstarred
      · rename_i hstar
        -- doubling the marks loses nothing
        have hdoubled := List.append_cancel_right (List.tail_eq_of_cons_eq hchars)
        have hname : part = name.toList := by
          rw [← Text.halved_doubled d.engine.quoteMark part, hdoubled, Text.halved_doubled]
        rw [isPathParts, beq_eq_false_iff_ne.mpr hstar, Bool.or_false, hname] at hpath
        exact ⟨String.toList_injective (hwhole.symm.trans hname), hpath⟩
    | cons part' parts =>
      simp only [isPathParts, Bool.and_eq_true] at hpath
      have hstar : part ≠ ['*'] := by
        rintro rfl
        exact absurd hpath.1 (by decide)
      have hmark : d.engine.quoteMark ∉ part := by
        apply not_mem_of_isIdentifierChars hpath.1 <;> cases d.engine <;> decide
      have hdot : d.engine.quoteMark ≠ '.' := by cases d.engine <;> decide
      rw [List.map_cons, List.map_cons, List.intercalate_cons_cons, ← List.map_cons, partChars,
        if_neg hstar, Text.quotedChars, Text.quotedChars, Text.doubled_eq_self hmark] at hchars
      simp only [List.cons_append, List.append_assoc, List.nil_append, List.cons.injEq,
        true_and] at hchars
      -- the first mark behind the opening one would have a dot behind it
      exact absurd hchars.symm (Text.doubled_ne_dotted hdot hmark)

/-- Raw text has fewer marks than its quoted form. -/
theorem raw_ne_identifier (name : String) : d.raw (Text.trimmed name) ≠ d.identifier name := by
  intro h
  have hcount := congrArg (fun s : String => s.toList.count d.engine.quoteMark) h
  have hpercent : d.engine.quoteMark ≠ '%' := by cases d.engine <;> decide
  have hraw : (d.raw (Text.trimmed name)).toList.count d.engine.quoteMark =
      (Text.trim name.toList).count d.engine.quoteMark := by
    unfold raw
    split
    · rw [String.toList_ofList, Text.count_doubled_of_ne hpercent, Text.trimmed,
        String.toList_ofList]
    · rw [Text.trimmed, String.toList_ofList]
  have hquoted : (d.identifier name).toList.count d.engine.quoteMark =
      2 * name.toList.count d.engine.quoteMark + 2 := by
    rw [toList_identifier, Text.quotedChars]
    simp [Text.count_doubled_self]
  have hsub : (Text.trim name.toList).count d.engine.quoteMark ≤
      name.toList.count d.engine.quoteMark := (Text.trim_sublist _).count_le _
  omega

/-- A name is quoted as it stands exactly when it is plain. -/
theorem columnText_eq_identifier_iff :
    d.columnText name = d.identifier name ↔ isName name.toList = true := by
  refine ⟨fun h => ?_, d.columnText_of_isName⟩
  have hquoted : d.IsQuotedPath (d.columnText name) := h ▸ d.isQuotedPath_identifier name
  have hplain := (d.isQuotedPath_columnText_iff name).mp hquoted
  have halias := hplain.1
  have hexpression := splitAlias_fst halias
  unfold columnText at h
  rw [← Prod.eta (splitAlias name), halias, hexpression] at h
  rw [IsPlain, hexpression] at hplain
  dsimp only at h
  unfold columnExpression at h
  by_cases hpath : isIdentifierPath (Text.trimmed name)
  · rw [if_pos hpath] at h
    obtain ⟨htrimmed, hidentifier⟩ := d.eq_of_path_eq hpath h
    refine isName_iff.mpr ⟨hidentifier, fun hlast => ?_⟩
    rw [← htrimmed, Text.trimmed, String.toList_ofList] at hlast
    exact absurd (Text.isBlank_getLast_trim hlast) (by decide)
  · rw [if_neg hpath] at h hplain
    -- behind a `DISTINCT` there is no quoted path, so the name is raw text
    cases hdistinct : afterDistinct? (Text.trimmed name) with
    | some column => exact absurd hplain.2 (not_isQuotedPath_of_afterDistinct? hdistinct)
    | none =>
      rw [hdistinct, Option.filter_none] at h
      exact absurd h (d.raw_ne_identifier name)

end Dialect

/-! ## Tables -/

namespace TableRef

/-- A table name without blanks and dots. -/
structure IsPlain (table : String) : Prop where
  nonempty : table ≠ ""
  blankless : ∀ c ∈ table.toList, Text.isBlank c = false
  dotless : '.' ∉ table.toList

/-- An identifier is one. -/
theorem isPlain_of_isName {table : String} (h : isName table.toList = true) : IsPlain table where
  nonempty hnone := ne_nil_of_isName h (String.toList_eq_nil_iff.mpr hnone)
  blankless := isBlank_of_mem h
  dotless := dot_not_mem_of_isName h

/-- Such a text refers to the table of that name, without alias and database. -/
theorem parse_of_isPlain {table : String} (h : IsPlain table) :
    parse table = .ok (ofName table) := by
  have hchars : table.toList ≠ [] := fun hnil => h.nonempty (String.toList_eq_nil_iff.mp hnil)
  have hwords : Text.wordsOf table = [table] := by
    rw [Text.wordsOf, Text.words_eq_self h.blankless hchars, List.map_singleton,
      String.ofList_toList]
  rw [parse, hwords, ofWords?, ofFullName, Reference.cutLastOf?_eq_none_iff.mpr h.dotless]
  rfl

end TableRef

end TableOps
