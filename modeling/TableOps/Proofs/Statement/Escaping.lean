import TableOps.Proofs.Statement.Placeholders
import TableOps.Proofs.Statement.References
import TableOps.Proofs.Text.Interpolation

/-!
# Escaped statements

In the style that marks values with `%s` the percent signs of the caller's text are written twice.
All else that is written has none, as long as the names have none, so the text of such a statement is
that of another style with every percent sign doubled, and reading it gives the other text back.

* `Text.escaped` — a text with every percent sign written twice.
* `Piece.PercentFree` — a piece whose own wording and names have no percent sign.
* `Dialect.Escapes` — a dialect that marks values with `%s`, and the other style of its engine.
* `Dialect.Escapes.own?_eq`, `Dialect.Escapes.gaps_eq` — the texts of a piece and of a statement in
  the two styles.
* `Text.interpolate_alternate` — escaped stretches with placeholders between them are read as the
  stretches with the marks between them.

Main statements: `Dialect.Escapes.render_eq` and `Dialect.Escapes.interpolate_render`, the text of the
one style is taken as the text of the other, without and with bound values.
-/

namespace TableOps

namespace Text

/-- A text with every percent sign written twice. -/
def escaped (s : String) : String :=
  String.ofList (doubled '%' s.toList)

theorem toList_escaped (s : String) : (escaped s).toList = doubled '%' s.toList :=
  String.toList_ofList

theorem escaped_eq_self {s : String} (h : '%' ∉ s.toList) : escaped s = s := by
  rw [escaped, doubled_eq_self h, String.ofList_toList]

theorem escaped_append (s t : String) : escaped (s ++ t) = escaped s ++ escaped t := by
  rw [escaped, String.toList_append, doubled_append, String.ofList_append]
  rfl

/-- Escaped stretches with a placeholder between each two are read as the stretches with the marks
between them. -/
theorem interpolate_alternate {gaps marks : List String} (h : gaps.length = marks.length + 1) :
    interpolate marks
        (Statement.alternate (gaps.map escaped) (List.replicate marks.length "%s")).toList =
      some (Statement.alternate gaps marks).toList := by
  induction marks generalizing gaps with
  | nil =>
    obtain ⟨gap, rfl⟩ := List.length_eq_one_iff.mp h
    have hgap := interpolate_doubled [] gap.toList []
    rw [List.append_nil] at hgap
    rw [List.map_singleton, List.length_nil, List.replicate_zero, Statement.alternate,
      Statement.alternate, toList_escaped, hgap, interpolate, Option.map_some, List.append_nil]
  | cons mark marks ih =>
    obtain ⟨gap, gaps, rfl⟩ := List.exists_cons_of_length_eq_add_one h
    have hgaps : gaps.length = marks.length + 1 := Nat.succ.inj h
    rw [List.map_cons, List.length_cons, List.replicate_succ, Statement.alternate,
      Statement.alternate, String.toList_append, String.toList_append, toList_escaped,
      List.append_assoc, interpolate_doubled, interpolate_placeholder, ih hgaps]
    simp

end Text

/-! ## Names and columns -/

namespace Reference

open Text Dialect

/-- An identifier has no percent sign. -/
theorem percent_not_mem_of_isIdentifierChars {cs : List Char} (h : isIdentifierChars cs) :
    '%' ∉ cs :=
  not_mem_of_isIdentifierChars h (by decide) (by decide)

theorem percent_not_mem_quotedChars {mark : Char} (hmark : mark ≠ '%') {name : List Char}
    (h : '%' ∉ name) : '%' ∉ quotedChars mark name := by
  have hdoubled : '%' ∉ doubled mark name := fun hmem => h (doubled_subset mark name hmem)
  simp [quotedChars, hmark.symm, hdoubled]

/-- A path of identifiers is written without a percent sign. -/
theorem percent_not_mem_pathChars {mark : Char} (hmark : mark ≠ '%') {parts : List (List Char)}
    (h : isPathParts parts) : '%' ∉ List.intercalate ['.'] (parts.map (partChars mark)) := by
  have hpart : ∀ part, isIdentifierChars part ∨ part = ['*'] → '%' ∉ partChars mark part := by
    intro part hp
    unfold partChars
    split
    · rename_i hstar
      rw [hstar]
      decide
    · rename_i hstar
      exact percent_not_mem_quotedChars hmark
        (percent_not_mem_of_isIdentifierChars (hp.resolve_right hstar))
  induction parts with
  | nil => cases h
  | cons part parts ih =>
    cases parts with
    | nil =>
      rw [isPathParts, Bool.or_eq_true, beq_iff_eq] at h
      rw [List.map_singleton, List.intercalate_singleton]
      exact hpart part h
    | cons part' parts =>
      rw [isPathParts, Bool.and_eq_true] at h
      · rw [List.map_cons, List.map_cons, List.intercalate_cons_cons, ← List.map_cons,
          List.mem_append, List.mem_append, not_or, not_or]
        exact ⟨⟨hpart part (Or.inl h.1), by decide⟩, ih h.2⟩
      · exact fun hnil => List.cons_ne_nil _ _ hnil

/-- An alias has no percent sign. -/
theorem percent_not_mem_of_isAlias {cs : List Char} (h : isAlias cs) : '%' ∉ cs := by
  cases cs with
  | nil => exact List.not_mem_nil
  | cons c cs =>
    rw [isAlias, Bool.and_eq_true, List.all_eq_true] at h
    intro hmem
    rcases List.mem_cons.mp hmem with rfl | hmem
    · exact absurd h.1 (by decide)
    · exact absurd (h.2 _ hmem) (by decide)

/-- The alias of a column has no percent sign, whether it stands behind `AS` or not. -/
theorem percent_not_mem_alias {ref aliasName : String} (h : (splitAlias ref).2 = some aliasName) :
    '%' ∉ aliasName.toList := by
  rcases isAlias_or_isIdentifier h with hword | hidentifier
  · exact percent_not_mem_of_isAlias hword
  · exact percent_not_mem_of_isIdentifierChars hidentifier

end Reference

namespace Dialect

open Reference Text

theorem quoteMark_ne_percent (d : Dialect) : d.engine.quoteMark ≠ '%' := by
  cases d.engine <;> decide

theorem percent_not_mem_identifier (d : Dialect) {name : String} (h : '%' ∉ name.toList) :
    '%' ∉ (d.identifier name).toList := by
  rw [identifier, quoted, String.toList_ofList]
  exact percent_not_mem_quotedChars d.quoteMark_ne_percent h

theorem percent_not_mem_path (d : Dialect) {path : String} (h : isIdentifierPath path) :
    '%' ∉ (d.path path).toList := by
  rw [toList_path]
  exact percent_not_mem_pathChars d.quoteMark_ne_percent h

/-! ## Two styles of one engine -/

/-- The first dialect marks values with `%s`, the second marks them otherwise on the same engine. -/
structure Escapes (d d' : Dialect) : Prop where
  engine : d'.engine = d.engine
  format : d.style = .format
  other : d'.style ≠ .format

namespace Escapes

variable {d d' : Dialect}

theorem identifier_eq (h : d.Escapes d') (name : String) :
    d.identifier name = d'.identifier name := by
  rw [identifier, identifier, h.engine]

theorem path_eq (h : d.Escapes d') (path : String) : d.path path = d'.path path := by
  unfold Dialect.path
  rw [funext h.identifier_eq]

/-- Text of the caller is escaped in the one style, and as it stands in the other. -/
theorem raw_eq (h : d.Escapes d') (text : String) : d.raw text = escaped (d'.raw text) := by
  have hother : d'.raw text = text := by
    unfold raw
    split
    · rename_i hstyle
      exact absurd hstyle h.other
    · rfl
  rw [hother, raw, h.format]
  rfl

theorem columnExpression_eq (h : d.Escapes d') (expression : String) :
    d.columnExpression expression = escaped (d'.columnExpression expression) := by
  have hpath : ∀ path, isIdentifierPath path → d.path path = escaped (d'.path path) := by
    intro path hp
    rw [escaped_eq_self (d'.percent_not_mem_path hp), h.path_eq]
  unfold columnExpression
  split
  · rename_i hp
    exact hpath expression hp
  · split
    · rename_i column hdistinct
      have hp := (Option.filter_eq_some_iff.mp hdistinct).2
      have hlead : '%' ∉ "DISTINCT ".toList := by decide
      rw [escaped_append, escaped_eq_self hlead, hpath column hp]
    · exact h.raw_eq expression

theorem columnText_eq (h : d.Escapes d') (ref : String) :
    d.columnText ref = escaped (d'.columnText ref) := by
  unfold columnText
  split
  rename_i expression aliasName? hsplit
  cases aliasName? with
  | none => exact h.columnExpression_eq expression
  | some aliasName =>
    have halias : '%' ∉ aliasName.toList := percent_not_mem_alias (by rw [hsplit])
    have hword : '%' ∉ " AS ".toList := by decide
    simp only [escaped_append, h.columnExpression_eq, h.identifier_eq]
    rw [escaped_eq_self hword, escaped_eq_self (d'.percent_not_mem_identifier halias)]

end Escapes

end Dialect

/-! ## Pieces and statements -/

/-- The wording and the names of a piece have no percent sign; text of the caller may have any. -/
def Piece.PercentFree : Piece → Prop
  | .text s => '%' ∉ s.toList
  | .name s => '%' ∉ s.toList
  | .table t => '%' ∉ t.name.toList ∧ ∀ a, t.aliasText? = some a → '%' ∉ a.toList
  | _ => True

/-- No piece of a statement has a percent sign in its wording or its names. -/
def Statement.PercentFree (s : Statement) : Prop :=
  ∀ p ∈ s, p.PercentFree

namespace Dialect.Escapes

open Text

variable {d d' : Dialect}

theorem name_eq (h : d.Escapes d') {name : String} (hname : '%' ∉ name.toList) :
    d.identifier name = escaped (d'.identifier name) := by
  rw [escaped_eq_self (d'.percent_not_mem_identifier hname), h.identifier_eq]

theorem tableText_eq (h : d.Escapes d') {t : TableRef} (ht : (Piece.table t).PercentFree) :
    d.tableText t = escaped (d'.tableText t) := by
  unfold tableText
  cases halias : t.aliasText? with
  | none => exact h.name_eq ht.1
  | some aliasName =>
    have hword : '%' ∉ " AS ".toList := by decide
    simp only [escaped_append]
    rw [h.name_eq ht.1, h.name_eq (ht.2 aliasName halias), escaped_eq_self hword]

/-- The text of a piece in the one style is that in the other with every percent sign doubled. -/
theorem own?_eq (h : d.Escapes d') {p : Piece} (hp : p.PercentFree) :
    p.own? d.writer = (p.own? d'.writer).map escaped := by
  cases p with
  | text s =>
    simp only [Piece.own?, Option.map_some]
    rw [escaped_eq_self hp]
  | raw s =>
    simp only [Piece.own?, writer, Option.map_some, h.raw_eq s]
  | name s =>
    simp only [Piece.own?, writer, Option.map_some, h.name_eq hp]
  | column ref =>
    simp only [Piece.own?, writer, Option.map_some, h.columnText_eq ref]
  | table t =>
    simp only [Piece.own?, writer, Option.map_some, h.tableText_eq hp]
  | value v => rfl

theorem map_leading (s : String) (gaps : List String) :
    (Statement.leading s gaps).map escaped = Statement.leading (escaped s) (gaps.map escaped) := by
  cases gaps with
  | nil => rfl
  | cons gap gaps => rw [Statement.leading, List.map_cons, escaped_append, List.map_cons,
      Statement.leading]

/-- The same for the stretches of a statement. -/
theorem gaps_eq (h : d.Escapes d') {s : Statement} (hs : s.PercentFree) :
    s.gaps d.writer = (s.gaps d'.writer).map escaped := by
  induction s with
  | nil => rfl
  | cons p ps ih =>
    obtain ⟨hp, hps⟩ := List.forall_mem_cons.mp hs
    rw [Statement.gaps, Statement.gaps, h.own?_eq hp, ih hps]
    cases p.own? d'.writer with
    | none => rfl
    | some text => exact (map_leading text _).symm

end Dialect.Escapes

/-! ## The text that is sent -/

namespace Dialect.Escapes

variable {d d' : Dialect} {s : Statement}

/-- Without bound values the same text is sent in both styles: there is a single stretch, and
halving it undoes the doubling. -/
theorem render_eq (h : d.Escapes d') (hs : s.PercentFree) (hvalues : s.values = []) :
    d.render s = d'.render s := by
  have hlength := Statement.length_gaps d'.writer s
  rw [hvalues] at hlength
  obtain ⟨gap, hgap⟩ := List.length_eq_one_iff.mp hlength
  have hwritten : s.write d.writer = Text.escaped gap := by
    rw [Statement.write, Statement.writeFrom_eq_alternate, h.gaps_eq hs, hgap, hvalues]
    rfl
  have hwritten' : s.write d'.writer = gap := by
    rw [Statement.write, Statement.writeFrom_eq_alternate, hgap, hvalues]
    rfl
  have hother : ¬ (d'.style = .format ∧ s.values = []) := fun hstyle => h.other hstyle.1
  unfold render
  rw [if_pos ⟨h.format, hvalues⟩, if_neg hother, hwritten, hwritten', Text.toList_escaped,
    Text.halved_doubled, String.ofList_toList]

/-- Every placeholder of the style that escapes is `%s`. -/
theorem marksFrom_eq (h : d.Escapes d') (n count : Nat) :
    Statement.marksFrom d.writer n count = List.replicate count "%s" := by
  rw [Statement.marksFrom, List.eq_replicate_iff]
  refine ⟨by rw [List.length_map, List.length_range'], fun mark hmark => ?_⟩
  obtain ⟨i, -, rfl⟩ := List.mem_map.mp hmark
  show d.mark (toString i) = "%s"
  rw [Dialect.mark, h.format]

/-- With bound values the text of the one style is read as the text of the other. -/
theorem interpolate_render (h : d.Escapes d') (hs : s.PercentFree) (hvalues : s.values ≠ []) :
    Text.interpolate ((List.range' 1 s.values.length).map d'.placeholder) (d.render s).toList =
      some (d'.render s).toList := by
  have hmarks : (Statement.marksFrom d'.writer 1 s.values.length).length = s.values.length := by
    rw [Statement.marksFrom, List.length_map, List.length_range']
  have hgaps := Statement.length_gaps d'.writer s
  have hread := Text.interpolate_alternate (hgaps.trans (congrArg (· + 1) hmarks.symm))
  rw [hmarks, ← h.marksFrom_eq 1, ← h.gaps_eq hs, ← Statement.writeFrom_eq_alternate,
    ← Statement.writeFrom_eq_alternate] at hread
  rw [d.render_of_values_ne_nil hvalues, d'.render_of_values_ne_nil hvalues]
  exact hread

end Dialect.Escapes

end TableOps
