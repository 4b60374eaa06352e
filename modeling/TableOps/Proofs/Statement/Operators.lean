import Mathlib.Data.List.Chain
import TableOps.Proofs.Statement.PercentFree

/-!
# Operators with percent signs

An operator is written as it stands, and all other text of the caller with every percent sign
doubled. So a driver that is given values reads a percent sign of an operator as the beginning of
something else, and of two in a row that are sent without values one is lost. Everything else comes
out as it was given.

* `Statement.bareSigns` — the percent signs that are written as they stand;
  `Dialect.Escapes.length_alternate`, what they do to the length of a text.
* `Dialect.Escapes.interpolate_eq_iff` — with bound values, a statement is read as it was meant
  exactly when there are none.
* `Statement.Apart` — no wording that ends in a percent sign meets text that begins with one;
  `Statement.apart_of_compose`, the statements of a request.
* `Dialect.Escapes.halved_eq_iff` — without bound values.

Main statement: `Statement.operators_as_written`, when the operators of a statement reach the
database as the caller wrote them.
-/

namespace TableOps

/-! ## Percent signs that are written as they stand -/

/-- The percent signs in the wording of a piece. -/
def Piece.bareSigns : Piece → Nat
  | .text s => s.toList.count '%'
  | _ => 0

namespace Statement

/-- The percent signs in the wording of a statement. -/
def bareSigns (s : Statement) : Nat :=
  (s.map Piece.bareSigns).sum

/-- Only the wording of a statement may have a percent sign that is not escaped. -/
def NamesPercentFree (s : Statement) : Prop :=
  ∀ p ∈ s, p.PercentFree ∨ ∃ w, p = .text w

/-- A statement without such percent signs has none in its wording either. -/
theorem percentFree_of_bareSigns {s : Statement} (hs : s.NamesPercentFree) (h : s.bareSigns = 0) :
    s.PercentFree := by
  intro p hp
  rcases hs p hp with hfree | ⟨w, rfl⟩
  · exact hfree
  · have hnone := List.sum_eq_zero_iff_forall_eq_nat.mp h _ (List.mem_map_of_mem hp)
    exact List.count_eq_zero.mp hnone

end Statement

namespace Dialect.Escapes

open Text Statement

variable {d d' : Dialect} {s : Statement}

/-- A piece that binds no value: escaping adds a character for every percent sign, and none for
those that are written as they stand. -/
theorem length_own? (h : d.Escapes d') {p : Piece} (hp : p.PercentFree ∨ ∃ w, p = .text w)
    {t' : String} (hown : p.own? d'.writer = some t') :
    ∃ t, p.own? d.writer = some t ∧
      2 * t.length + p.bareSigns = 2 * t'.length + t.toList.count '%' := by
  have hescaped : p.PercentFree → p.bareSigns = 0 → ∃ t, p.own? d.writer = some t ∧
      2 * t.length + p.bareSigns = 2 * t'.length + t.toList.count '%' := by
    intro hfree hnone
    refine ⟨escaped t', by rw [h.own?_eq hfree, hown]; rfl, ?_⟩
    rw [hnone, ← String.length_toList, toList_escaped, length_doubled, count_doubled_self,
      String.length_toList]
    omega
  cases p with
  | text w =>
    cases hown
    exact ⟨t', rfl, rfl⟩
  | value v => cases hown
  | _ => exact hescaped (hp.resolve_right (by simp)) rfl

/-- The same for a statement, whose placeholders are two characters with one percent sign. -/
theorem length_alternate (h : d.Escapes d') (hs : s.NamesPercentFree) {marks : List String}
    (hmarks : marks.length = s.values.length) :
    2 * (alternate (s.gaps d.writer) (List.replicate marks.length "%s")).length +
        2 * (marks.map String.length).sum + s.bareSigns =
      2 * (alternate (s.gaps d'.writer) marks).length +
        (alternate (s.gaps d.writer) (List.replicate marks.length "%s")).toList.count '%' +
        3 * marks.length := by
  induction s generalizing marks with
  | nil =>
    obtain rfl : marks = [] := List.length_eq_zero_iff.mp hmarks
    rfl
  | cons p ps ih =>
    obtain ⟨hp, hps⟩ := List.forall_mem_cons.mp hs
    have hsigns : bareSigns (p :: ps) = p.bareSigns + bareSigns ps := List.sum_cons
    cases hown : p.own? d'.writer with
    | some t' =>
      obtain ⟨t, hown', hlength⟩ := h.length_own? hp hown
      rw [values_cons_own hown] at hmarks
      have hrest := ih hps hmarks
      rw [alternate_gaps_cons_own hown, alternate_gaps_cons_own hown', hsigns, String.length_append,
        String.length_append, String.toList_append, List.count_append]
      omega
    | none =>
      obtain ⟨v, rfl⟩ := (own?_eq_none_iff _ p).mp hown
      obtain ⟨mark, marks, rfl⟩ := List.exists_cons_of_length_eq_add_one hmarks
      have hrest := ih hps (Nat.succ.inj hmarks)
      have hgaps : ∀ w : Writer, Statement.gaps w (.value v :: ps) = "" :: Statement.gaps w ps :=
        fun _ => rfl
      have hplaceholder : "%s".toList.count '%' = 1 := by decide
      have htwo : "%s".length = 2 := by decide
      have hnone : (Piece.value v).bareSigns = 0 := rfl
      rw [hgaps, hgaps, hsigns, hnone, List.length_cons, List.replicate_succ, List.map_cons,
        List.sum_cons]
      simp only [alternate, String.empty_append, String.length_append, String.toList_append,
        List.count_append, hplaceholder, htwo]
      omega

/-- With bound values a statement is read as it was meant, with a mark in each place of a value,
exactly when no percent sign was written as it stands. -/
theorem interpolate_eq_iff (h : d.Escapes d') (hs : s.NamesPercentFree) (hvalues : s.values ≠ [])
    {marks : List String} (hmarks : marks.length = s.values.length) :
    interpolate marks (d.render s).toList = some (alternate (s.gaps d'.writer) marks).toList ↔
      s.PercentFree := by
  have htext : d.render s = alternate (s.gaps d.writer) (List.replicate marks.length "%s") := by
    rw [d.render_of_values_ne_nil hvalues, write, writeFrom_eq_alternate, h.marksFrom_eq, hmarks]
  rw [htext]
  constructor
  · intro hread
    have hlength := length_of_interpolate hread
    have hcount := h.length_alternate hs hmarks
    rw [String.length_toList, String.length_toList] at hlength
    exact percentFree_of_bareSigns hs (by omega)
  · intro hfree
    rw [h.gaps_eq hfree]
    exact interpolate_alternate ((Statement.length_gaps _ s).trans (congrArg (· + 1) hmarks.symm))

end Dialect.Escapes

/-! ## Percent signs side by side -/

/-- Wording whose last character is a percent sign. -/
def Piece.EndsBare (p : Piece) : Prop :=
  ∃ w, p = .text w ∧ w.toList.getLast? = some '%'

theorem Piece.PercentFree.not_endsBare {p : Piece} (h : p.PercentFree) : ¬ p.EndsBare := by
  rintro ⟨w, rfl, hlast⟩
  exact h (List.mem_of_mem_getLast? hlast)

namespace Statement

/-- Behind wording that ends in a percent sign there is wording that begins with something else. -/
def Apart (s : Statement) : Prop :=
  List.IsChain (fun p q => p.EndsBare → q.Opens) s

namespace Apart

variable {s t : Statement}

theorem nil : Apart [] :=
  List.isChain_nil

theorem single (p : Piece) : Apart [p] :=
  List.isChain_singleton p

theorem of_percentFree (h : s.PercentFree) : s.Apart := by
  induction s with
  | nil => exact .nil
  | cons p ps ih =>
    obtain ⟨hp, hps⟩ := List.forall_mem_cons.mp h
    exact List.isChain_cons.mpr ⟨fun q _ hends => (hp.not_endsBare hends).elim, ih hps⟩

/-- Two statements in a row, where nothing that ends in a percent sign meets another one: the first
has none, or the second begins otherwise. -/
theorem append (hs : s.Apart) (ht : t.Apart)
    (h : s.PercentFree ∨ ∀ q, t.head? = some q → q.Opens) : (s ++ t).Apart := by
  refine List.isChain_append.mpr ⟨hs, ht, fun p hp q hq hends => ?_⟩
  rcases h with hfree | hopens
  · exact ((hfree p (List.mem_of_mem_getLast? hp)).not_endsBare hends).elim
  · exact hopens q hq

theorem separated {w : String} (hfree : '%' ∉ w.toList) (hopens : (Piece.text w).Opens)
    {ss : List Statement} (h : ∀ s ∈ ss, s.Apart) :
    (Statement.separated [.text w] ss).Apart := by
  induction ss with
  | nil => exact .nil
  | cons s ss ih =>
    obtain ⟨hs, hss⟩ := List.forall_mem_cons.mp h
    cases ss with
    | nil => exact hs
    | cons s' ss =>
      have hword : PercentFree [.text w] := List.forall_mem_singleton.mpr hfree
      rw [Statement.separated, List.append_assoc]
      · refine hs.append ((single _).append (ih hss) (Or.inl hword)) (Or.inr fun q hq => ?_)
        cases hq
        exact hopens
      · exact fun hnil => List.cons_ne_nil _ _ hnil

end Apart

end Statement

/-! ## The clause of a statement -/

namespace Leaf

open Statement

theorem percentFree_marks (items : List Value) : (marks items).PercentFree := by
  have hwords : '%' ∉ " (".toList ∧ '%' ∉ ")".toList := by decide
  refine (PercentFree.append ?_ (.commaSeparated ?_)).append ?_
  · exact List.forall_mem_singleton.mpr hwords.1
  · exact List.forall_mem_map.mpr fun v _ => List.forall_mem_singleton.mpr trivial
  · exact List.forall_mem_singleton.mpr hwords.2

/-- Behind the operator of a leaf there is nothing, or something that begins with a blank. -/
theorem apart_head_append (l : Leaf) {operand : Statement} (hfree : operand.PercentFree)
    (hopens : ∀ q, operand.head? = some q → q.Opens) : (l.head ++ operand).Apart := by
  have hblank : '%' ∉ " ".toList := by decide
  have hfront : PercentFree [.column l.name, .text " "] :=
    List.forall_mem_cons.mpr ⟨trivial, List.forall_mem_singleton.mpr hblank⟩
  have hrest : Apart ([.text (Operator.wording l.op)] ++ operand) :=
    (Apart.single _).append (.of_percentFree hfree) (Or.inr hopens)
  exact (Apart.of_percentFree hfront).append hrest (Or.inl hfront)

theorem apart_pieces {l : Leaf} {query : Entries Value} {table : Option TableRef} {s : Statement}
    (h : l.pieces query table = .ok s) : s.Apart := by
  have hblank : '%' ∉ " ".toList := by decide
  have hbehind : ∀ p : Piece, p.PercentFree → (l.head ++ [.text " ", p]).Apart := by
    intro p hp
    refine l.apart_head_append
      (List.forall_mem_cons.mpr ⟨hblank, List.forall_mem_singleton.mpr hp⟩) fun q hq => ?_
    cases hq
    exact opens_blank ""
  have halone : l.head.Apart := by
    have hhead := l.apart_head_append (List.forall_mem_nil _) (fun q hq => by cases hq)
    rwa [List.append_nil] at hhead
  rcases pieces_eq_ok h with ⟨-, rfl⟩ | ⟨v, -, hwritten⟩
  · exact .nil
  · cases hwritten with
    | unary hop => exact halone
    | membership hop items hitems hne =>
      refine l.apart_head_append (percentFree_marks items) fun q hq => ?_
      cases hq
      exact opens_blank "("
    | reference hop ref href => exact hbehind _ trivial
    | alone hop href hno => exact halone
    | value hop href hno => exact hbehind _ trivial

end Leaf

namespace Filter

open Statement

theorem apart_enclose {connective : Connective} {ss : List Statement} (h : ∀ s ∈ ss, s.Apart) :
    (enclose connective ss).Apart := by
  have hwords : ∀ w ∈ ["(", ")", " AND ", " OR "], '%' ∉ w.toList := by decide
  have hseparated : (separated [.text (" " ++ connective.name ++ " ")] ss).Apart := by
    cases connective with
    | and => exact .separated (hwords " AND " (by simp)) (opens_blank "AND ") h
    | or => exact .separated (hwords " OR " (by simp)) (opens_blank "OR ") h
  unfold enclose
  split
  · exact .nil
  · exact h _ (List.mem_singleton.mpr rfl)
  · have hopen : PercentFree [.text "("] := List.forall_mem_singleton.mpr (hwords "(" (by simp))
    refine ((Apart.single _).append hseparated (Or.inl hopen)).append (.single _) (Or.inr ?_)
    intro q hq
    cases hq
    exact ⟨')', by decide, by decide⟩

variable {query : Entries Value} {table : Option TableRef}

mutual

theorem apart_pieces : ∀ (f : Filter) (s : Statement), f.pieces query table = .ok s → s.Apart
  | .leaf l, s, h => by
    rw [pieces] at h
    exact Leaf.apart_pieces h
  | .group connective members, s, h => by
    rw [pieces] at h
    obtain ⟨ss, hss, rfl⟩ := ok_of_map h
    exact apart_enclose (apart_piecesOf members ss hss)

theorem apart_piecesOf : ∀ (fs : List Filter) (ss : List Statement),
    piecesOf query table fs = .ok ss → ∀ s ∈ ss, s.Apart
  | [], ss, h => by
    cases h
    exact List.forall_mem_nil _
  | f :: fs, ss, h => by
    obtain ⟨first, rest, hf, hfs, rfl⟩ := ok_of_piecesOf_cons h
    have hrest := apart_piecesOf fs rest hfs
    split
    · exact hrest
    · exact List.forall_mem_cons.mpr ⟨apart_pieces f first hf, hrest⟩

end

end Filter

namespace Statement

theorem apart_whereClause {filter : Option Filter} {query : Entries Value} {table : TableRef}
    {clause : Statement} (h : whereClause filter query table = .ok clause) : clause.Apart := by
  obtain ⟨c, hc, rfl⟩ := ok_of_map h
  have hcondition : c.Apart := by
    cases filter with
    | none =>
      cases hc
      exact .nil
    | some f => exact Filter.apart_pieces f c (ok_of_mapError hc)
  split
  · exact .nil
  · have hword : PercentFree [.text " WHERE "] :=
      List.forall_mem_singleton.mpr (by decide : '%' ∉ " WHERE ".toList)
    exact (Apart.single _).append hcondition (Or.inl hword)

variable {d d' : Dialect} {r : Request} {kind : StatementKind} {s : Statement}

theorem Framed.apart (h : Framed r kind s) : s.Apart := by
  obtain ⟨before, clause, behind, rfl, hbefore, hbehind, hopens, hclause⟩ := h
  have hfront := (Apart.of_percentFree hbefore).append (apart_whereClause hclause) (Or.inl hbefore)
  exact hfront.append (.of_percentFree hbehind) (Or.inr hopens)

end Statement

/-! ## Texts that are sent without values -/

namespace Dialect.Escapes

open Text Statement

variable {d d' : Dialect} {s : Statement}

/-- The text of a statement without values begins like its first piece. -/
theorem head?_of_opens {w : Writer} {p : Piece} (hp : p.Opens) (ps : Statement) :
    (alternate (Statement.gaps w (p :: ps)) []).toList.head? ≠ some '%' := by
  cases p with
  | text t =>
    obtain ⟨c, hc, hne⟩ := hp
    have hown : Piece.own? w (.text t) = some t := rfl
    rw [alternate_gaps_cons_own hown, String.toList_append, List.head?_append, hc]
    exact fun heq => hne (Option.some.inj heq)
  | _ => cases hp

/-- Of a piece without values that is no wording, one text is the other one with its percent signs
doubled. -/
theorem exists_own?_escaped (h : d.Escapes d') {p : Piece} (hfree : p.PercentFree)
    (hnone : p.value? = none) :
    ∃ t, p.own? d.writer = some (escaped t) ∧ p.own? d'.writer = some t := by
  cases hown : p.own? d'.writer with
  | some t => exact ⟨t, by rw [h.own?_eq hfree, hown]; rfl, rfl⟩
  | none =>
    obtain ⟨v, rfl⟩ := (own?_eq_none_iff _ p).mp hown
    cases hnone

/-- Without bound values, where percent signs of the wording do not meet others, the text that is
sent is the one that was meant exactly when no wording has two of them in a row. -/
theorem halved_eq_iff (h : d.Escapes d') (hs : s.NamesPercentFree) (hapart : s.Apart)
    (hvalues : s.values = []) :
    (halved '%' (alternate (s.gaps d.writer) []).toList).length ≤
        (alternate (s.gaps d'.writer) []).toList.length ∧
      (halved '%' (alternate (s.gaps d.writer) []).toList =
          (alternate (s.gaps d'.writer) []).toList ↔
        ∀ w, .text w ∈ s → ¬ ['%', '%'] <:+: w.toList) := by
  induction s with
  | nil => exact ⟨Nat.le_refl _, iff_of_true rfl fun w hw => by cases hw⟩
  | cons p ps ih =>
    obtain ⟨hp, hps⟩ := List.forall_mem_cons.mp hs
    obtain ⟨hnext, hapart⟩ := List.isChain_cons.mp hapart
    obtain ⟨hnone, hvalues⟩ := List.forall_mem_cons.mp (List.filterMap_eq_nil_iff.mp hvalues)
    obtain ⟨hle, hiff⟩ := ih hps hapart (List.filterMap_eq_nil_iff.mpr hvalues)
    by_cases hword : ∃ w, p = .text w
    · -- wording is halved by itself, and gets shorter if it changes
      obtain ⟨w, rfl⟩ := hword
      have hmeets : w.toList.getLast? = some '%' →
          (alternate (Statement.gaps d.writer ps) []).toList.head? ≠ some '%' := by
        intro hlast
        cases ps with
        | nil => exact fun heq => by cases heq
        | cons q ps => exact head?_of_opens (hnext q rfl ⟨w, rfl, hlast⟩) ps
      have hshort := length_halved_le '%' w.toList
      have hown : ∀ u : Writer, Piece.own? u (.text w) = some w := fun _ => rfl
      rw [alternate_gaps_cons_own (hown _), alternate_gaps_cons_own (hown _), String.toList_append,
        String.toList_append, halved_append hmeets]
      refine ⟨by rw [List.length_append, List.length_append]; omega, ?_⟩
      rw [halved_append_eq_append_iff hle, halved_eq_self_iff, hiff]
      simp only [List.mem_cons, Piece.text.injEq, forall_eq_or_imp]
    · -- any other piece comes out as it was meant
      obtain ⟨t, hown, hown'⟩ := h.exists_own?_escaped (hp.resolve_right hword) hnone
      rw [alternate_gaps_cons_own hown, alternate_gaps_cons_own hown', String.toList_append,
        String.toList_append, toList_escaped, halved_doubled_append]
      refine ⟨by rw [List.length_append, List.length_append]; omega, ?_⟩
      have hwordings : (∀ w, Piece.text w ∈ p :: ps → ¬ ['%', '%'] <:+: w.toList) ↔
          ∀ w, Piece.text w ∈ ps → ¬ ['%', '%'] <:+: w.toList := by
        constructor
        · exact fun hall w hw => hall w (List.mem_cons_of_mem _ hw)
        · intro hall w hw
          exact hall w ((List.mem_cons.mp hw).resolve_left fun heq => hword ⟨w, heq.symm⟩)
      rw [List.append_cancel_left_eq, hiff, hwordings]

theorem render_eq_iff (h : d.Escapes d') (hs : s.NamesPercentFree) (hapart : s.Apart)
    (hvalues : s.values = []) :
    d.render s = d'.render s ↔ ∀ w, .text w ∈ s → ¬ ['%', '%'] <:+: w.toList := by
  have hwrite : ∀ w : Writer, s.write w = alternate (s.gaps w) [] := by
    intro w
    rw [write, writeFrom_eq_alternate, hvalues]
    rfl
  have hother : ¬ (d'.style = .format ∧ s.values = []) := fun hstyle => h.other hstyle.1
  rw [← (h.halved_eq_iff hs hapart hvalues).2]
  unfold render
  rw [if_pos ⟨h.format, hvalues⟩, if_neg hother, hwrite, hwrite, ← String.toList_inj,
    String.toList_ofList]

end Dialect.Escapes

/-! ## The operators of a request -/

namespace Statement

open Dialect

variable {d d' : Dialect} {r : Request} {kind : StatementKind} {s : Statement}

/-- The leaf is compared in a statement of a request. -/
def Compares (r : Request) (kind : StatementKind) (l : Leaf) : Prop :=
  l ∈ Filter.leavesOf? r.expression.filter ∧ l.reaches kind r.expression.table r.query = true

/-- The operator of every compared leaf stands in the statement. -/
theorem operator_mem (h : r.Composed d kind s) {l : Leaf} (hl : Compares r kind l) :
    Piece.text (Operator.wording l.op) ∈ s := by
  obtain ⟨before, clause, behind, parts, rfl, -, -, hmade, hparts, -, -⟩ := h.restrictedTo
  have hmem := List.mem_filter.mpr hl
  obtain ⟨p, hp, l', operand, heffective, rfl⟩ := exists_of_forall₂ hparts hmem
  obtain ⟨front, rest, rfl⟩ := hmade.exists_append hp
  rw [← Leaf.op_of_effective? heffective]
  simp [Leaf.head]

/-- Whatever of a statement has a percent sign that is not escaped is the operator of a compared
leaf. -/
theorem Framed.mem (h : Framed r kind s) {p : Piece} (hp : p ∈ s) :
    p.PercentFree ∨ ∃ l, Compares r kind l ∧ p = .text (Operator.wording l.op) := by
  obtain ⟨before, clause, behind, rfl, hbefore, hbehind, -, hclause⟩ := h
  rcases List.mem_append.mp hp with hp | hp
  · rcases List.mem_append.mp hp with hp | hp
    · exact Or.inl (hbefore p hp)
    · rcases percentFree_or_operator hclause hp with hfree | ⟨l', hl', hhas, rfl⟩
      · exact Or.inl hfree
      · rw [r.leaves_effectiveFilter] at hl'
        obtain ⟨l, hl, heffective⟩ := List.mem_filterMap.mp hl'
        rw [r.has_effectiveQuery] at hhas
        refine Or.inr ⟨l, ⟨hl, ?_⟩, by rw [Leaf.op_of_effective? heffective]⟩
        rw [Leaf.reaches, heffective]
        exact hhas
  · exact Or.inl (hbehind p hp)

/-- Wording stands in the text of its statement, whatever is put in the places of the values. -/
theorem infix_alternate {w : Writer} {t : String} (ht : .text t ∈ s) {marks : List String}
    (hmarks : marks.length = s.values.length) :
    t.toList <:+: (alternate (s.gaps w) marks).toList := by
  induction s generalizing marks with
  | nil => cases ht
  | cons p ps ih =>
    cases hown : p.own? w with
    | some own =>
      rw [values_cons_own hown] at hmarks
      rw [alternate_gaps_cons_own hown, String.toList_append]
      rcases List.mem_cons.mp ht with rfl | ht
      · cases hown
        exact (List.prefix_append _ _).isInfix
      · exact (ih ht hmarks).trans (List.suffix_append _ _).isInfix
    | none =>
      obtain ⟨v, rfl⟩ := (own?_eq_none_iff _ p).mp hown
      obtain ⟨mark, marks, rfl⟩ := List.exists_cons_of_length_eq_add_one hmarks
      have hrest := (List.mem_cons.mp ht).resolve_left (by simp)
      rw [gaps, hown]
      dsimp only
      rw [alternate, String.toList_append]
      exact (ih hrest (Nat.succ.inj hmarks)).trans (List.suffix_append _ _).isInfix

/-- The operators of the leaves that a statement compares stand in the text that is meant, which is
the text in the style without escapes, with anything in the places of the values. A driver that is
given values reads the statement as that text exactly when none of these operators has a percent
sign. Without values that text is sent exactly when none of them has two percent signs in a row. -/
theorem operators_as_written (hd : d.Escapes d') (hr : r.NamesPercentFree) {withTotal : Bool}
    (h : compose d kind withTotal r = .ok (some s)) :
    (∀ l, Compares r kind l → ∀ marks, marks.length = s.values.length →
      (Operator.wording l.op).toList <:+: (alternate (s.gaps d'.writer) marks).toList) ∧
    (s.values ≠ [] → ∀ marks, marks.length = s.values.length →
      (Text.interpolate marks (d.render s).toList =
          some (alternate (s.gaps d'.writer) marks).toList ↔
        ∀ l, Compares r kind l → '%' ∉ (Operator.wording l.op).toList)) ∧
    (s.values = [] → (d.render s = d'.render s ↔
      ∀ l, Compares r kind l → ¬ ['%', '%'] <:+: (Operator.wording l.op).toList)) := by
  have hframed := framed_of_compose hr h
  have hmem : ∀ l, Compares r kind l → .text (Operator.wording l.op) ∈ s :=
    fun l hl => operator_mem (composed_of_compose h) hl
  have hnames : s.NamesPercentFree := fun p hp =>
    (hframed.mem hp).imp_right fun ⟨l, hl, hword⟩ => ⟨_, hword⟩
  refine ⟨fun l hl marks hmarks => infix_alternate (hmem l hl) hmarks, ?_, ?_⟩
  · intro hvalues marks hmarks
    rw [hd.interpolate_eq_iff hnames hvalues hmarks]
    constructor
    · exact fun hfree l hl => hfree _ (hmem l hl)
    · intro hfree p hp
      rcases hframed.mem hp with hp | ⟨l, hl, rfl⟩
      · exact hp
      · exact hfree l hl
  · intro hvalues
    rw [hd.render_eq_iff hnames hframed.apart hvalues]
    constructor
    · exact fun hnone l hl => hnone _ (hmem l hl)
    · intro hnone w hw hpair
      rcases hframed.mem hw with hfree | ⟨l, hl, hword⟩
      · -- wording without any percent sign has no two of them
        exact hfree (hpair.subset List.mem_cons_self)
      · rw [Piece.text.injEq] at hword
        rw [hword] at hpair
        exact hnone l hl hpair

end Statement

/-- Songs whose name is like a pattern and which are from some year, when both are given. -/
def Request.patterned (pattern : String) (query : Entries Value) : Request where
  expression :=
    { source := ⟨"Song", ⟨none, "Song", none⟩, by decide +kernel⟩
      joins := []
      columns := ["name"]
      transformers := []
      filter := some (.group .and [.leaf ⟨"name", pattern, true⟩, .leaf ⟨"year", "=", false⟩])
      extra := .null }
  data := none
  query := query
  fields := none
  page := none
  schema := none

theorem Request.namesPercentFree_patterned (pattern : String) (query : Entries Value) :
    (Request.patterned pattern query).NamesPercentFree := by
  have htable : '%' ∉ "Song".toList := by decide
  refine ⟨htable, fun j hj => ?_, fun schema hschema => ?_⟩
  · cases hj
  · cases hschema

/-- A pattern without percent signs beside a bound value. -/
theorem Statement.operators_as_written_patterned :
    ∃ s, compose ⟨.mysql, .format, by decide⟩ (.of .list) true
        (.patterned "LIKE 'a_'" [("name", .bool true), ("year", .int 1967)]) = .ok (some s) ∧
      Text.interpolate ["1967"] (Dialect.render ⟨.mysql, .format, by decide⟩ s).toList =
        some "SELECT `name` FROM `Song` WHERE (`name` LIKE 'a_' AND `year` = 1967)".toList := by
  have htext : (compose ⟨.mysql, .format, by decide⟩ (.of .list) true
      (.patterned "LIKE 'a_'" [("name", .bool true), ("year", .int 1967)])).toOption.join.map
        (fun s => (s.values.length, alternate (s.gaps (Dialect.writer
          ⟨.mysql, .qmark, by decide⟩)) ["1967"])) =
      some (1, "SELECT `name` FROM `Song` WHERE (`name` LIKE 'a_' AND `year` = 1967)") := by
    decide +kernel
  obtain ⟨s, hs, hmeant⟩ := Option.map_eq_some_iff.mp htext
  obtain ⟨hlength, hmeant⟩ := Prod.mk.inj hmeant
  have hok := ok_of_toOption_join hs
  have hd : Dialect.Escapes ⟨.mysql, .format, by decide⟩ ⟨.mysql, .qmark, by decide⟩ :=
    ⟨rfl, rfl, by decide⟩
  have hvalues : s.values ≠ [] := by
    intro hnil
    rw [hnil] at hlength
    cases hlength
  obtain ⟨-, hread, -⟩ := operators_as_written hd (Request.namesPercentFree_patterned _ _) hok
  have hplain : ∀ l, Compares (.patterned "LIKE 'a_'" [("name", .bool true), ("year", .int 1967)])
      (.of .list) l → '%' ∉ (Operator.wording l.op).toList := by
    intro l hl
    have hleaves : ∀ l ∈ [Leaf.mk "name" "LIKE 'a_'" true, ⟨"year", "=", false⟩],
        '%' ∉ (Operator.wording l.op).toList := by decide +kernel
    exact hleaves l hl.1
  refine ⟨s, hok, ?_⟩
  rw [(hread hvalues ["1967"] hlength.symm).mpr hplain, hmeant]

/-- A pattern with a percent sign cannot be read beside a bound value; alone it is sent as it is. One
with two of them in a row is sent with one when nothing is bound. -/
theorem Statement.operators_misread :
    ((compose ⟨.mysql, .format, by decide⟩ (.of .list) true (.patterned "LIKE 'a%'"
        [("name", .bool true), ("year", .int 1967)])).toOption.join.map fun s =>
          (s.values.length, Text.interpolate ["1967"] (Dialect.render ⟨.mysql, .format, by decide⟩
            s).toList)) = some (1, none) ∧
      ((compose ⟨.mysql, .format, by decide⟩ (.of .list) true (.patterned "LIKE 'a%'"
        [("name", .bool true)])).toOption.join.map fun s =>
          (s.values.length, Dialect.render ⟨.mysql, .format, by decide⟩ s)) =
        some (0, "SELECT `name` FROM `Song` WHERE `name` LIKE 'a%'") ∧
      ((compose ⟨.mysql, .format, by decide⟩ (.of .list) true (.patterned "LIKE 'a%%'"
        [("name", .bool true)])).toOption.join.map fun s =>
          (s.values.length, Dialect.render ⟨.mysql, .format, by decide⟩ s)) =
        some (0, "SELECT `name` FROM `Song` WHERE `name` LIKE 'a%'") := by
  decide +kernel

end TableOps
