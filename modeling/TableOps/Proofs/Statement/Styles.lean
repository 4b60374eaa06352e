import TableOps.Proofs.Statement.BoundValues
import TableOps.Proofs.Statement.PercentFree

/-!
# Requests in two styles

The statement of a request consists of the same pieces in both styles of an engine; only its text
differs. Where the names of a request have no percent sign, its pieces have none either but for the
text of the caller, and then the driver takes the one text as the other.

* `Request.PercentFree` — the names and the operators of a request have no percent sign, and its joins
  say how their rows match.
* `Statement.fromClause_eq`, `Statement.compose_agree` — the same pieces in both styles.
* `Statement.percentFree_of_compose` — none of them has a percent sign in its wording or its names.

Main statement: `Statement.styles_agree`, both styles fail together, or send texts that are taken
alike and bind the same values.
-/

namespace TableOps

open Statement

/-- A join says how its rows match. -/
def Join.IsMatched (j : Join) : Prop :=
  (filled? j.using?).isSome ∨ (filled? j.on?).isSome

/-- The names that a request gives have no percent sign, nor have its operators, and its joins say how
their rows match. Its columns, its conditions and its trailing clause may have any. -/
structure Request.PercentFree (r : Request) : Prop extends r.NamesPercentFree where
  matched : ∀ j ∈ r.expression.joins, j.IsMatched
  operators : ∀ l ∈ Filter.leavesOf? r.expression.filter, '%' ∉ l.op.toList

/-! ## The same pieces -/

namespace Join

theorem eq_of_filled? {clause : Option String} (h : (filled? clause).isSome) :
    ∃ s, clause = some s := by
  obtain ⟨s, hs⟩ := Option.isSome_iff_exists.mp h
  exact ⟨s, (Option.filter_eq_some_iff.mp hs).1⟩

end Join

namespace Statement

variable {d d' : Dialect} {r : Request}

/-- A join that says how its rows match is written with the same pieces in every dialect. -/
theorem matching_eq {j : Join} (h : j.IsMatched) (d d' : Dialect) (primary : TableRef) :
    matching d j primary = matching d' j primary := by
  unfold matching
  cases hshared : Join.filled? j.using? with
  | some column => rfl
  | none =>
    have hon : (Join.filled? j.on?).isSome := by
      rw [Join.IsMatched, hshared] at h
      exact h.resolve_left Bool.false_ne_true
    obtain ⟨on, hon⟩ := Join.eq_of_filled? hon
    cases j.equality? primary with
    | error f => rfl
    | ok equality =>
      cases equality with
      | some columns => rfl
      | none => rw [hon]

theorem fromClause_eq (h : r.PercentFree) (d d' : Dialect) (table : TableRef) :
    fromClause d table r.expression.joins = fromClause d' table r.expression.joins := by
  have hjoin : ∀ j ∈ r.expression.joins, joinClause d table j = joinClause d' table j := by
    intro j hj
    unfold joinClause
    rw [matching_eq (h.matched j hj) d d']
  unfold fromClause
  rw [mapM_congr hjoin]

/-- A trailing clause that is a text is written with the same pieces in every dialect. -/
theorem extraClause_eq {e : Expression}
    (h : ∀ clause, e.extra? = some clause → ∃ s, clause = .text s) (d d' : Dialect) :
    extraClause d e = extraClause d' e := by
  unfold extraClause
  cases hextra : e.extra? with
  | none => rfl
  | some clause =>
    obtain ⟨s, rfl⟩ := h clause hextra
    rfl

/-- Any other trailing clause is refused in every dialect, though not for the same reason. -/
theorem extraClause_agree (d d' : Dialect) (e : Expression) :
    Agree Eq (extraClause d e) (extraClause d' e) := by
  have hrefused : ∀ (d : Dialect) (clause : Value), e.extra? = some clause →
      (∀ s, clause ≠ .text s) → ∃ f, extraClause d e = .error f := by
    intro d clause hextra htext
    unfold extraClause
    rw [hextra]
    split
    · rename_i hnone
      cases hnone
    · rename_i s hs
      exact absurd (Option.some.inj hs) (htext s)
    · exact ⟨_, rfl⟩
    · exact ⟨_, rfl⟩
  by_cases htext : ∀ clause, e.extra? = some clause → ∃ s, clause = .text s
  · rw [extraClause_eq htext d d']
    exact .eq _
  · obtain ⟨clause, hclause⟩ := not_forall.mp htext
    obtain ⟨hextra, hclause⟩ := Classical.not_imp.mp hclause
    have hne : ∀ s, clause ≠ .text s := fun s hs => hclause ⟨s, hs⟩
    obtain ⟨f, hf⟩ := hrefused d clause hextra hne
    obtain ⟨f', hf'⟩ := hrefused d' clause hextra hne
    rw [hf, hf']
    exact .error f f'

/-- A selection has the same pieces in both styles of an engine. -/
theorem select?_agree (hd : d.Escapes d') (hr : r.PercentFree) (paged : Bool) :
    Agree Eq (select? d r paged) (select? d' r paged) := by
  unfold select?
  split
  · exact .ok rfl
  · rw [fromClause_eq hr d d', hd.engine]
    refine .bind_self fun source _ => .bind_self fun restriction _ => ?_
    refine (extraClause_agree d d' r.expression).bind fun extra extra' hextra => ?_
    rw [hextra]
    exact .ok rfl

theorem select?_eq (hd : d.Escapes d') (hr : r.PercentFree)
    (hextra : ∀ clause, r.expression.extra? = some clause → ∃ s, clause = .text s) (paged : Bool) :
    select? d r paged = select? d' r paged := by
  unfold select?
  rw [fromClause_eq hr d d', hd.engine, extraClause_eq hextra d d']

/-- A request has the same statement in both styles of an engine, or has none in either. -/
theorem compose_agree (hd : d.Escapes d') (hr : r.PercentFree) (kind : StatementKind)
    (withTotal : Bool) : Agree Eq (compose d kind withTotal r) (compose d' kind withTotal r) := by
  have hcount : count d r = count d' r := by
    unfold count
    rw [fromClause_eq hr d d']
  unfold compose
  split
  · refine (select?_agree hd hr false).bind fun s s' hs => ?_
    rw [hs]
    exact .ok rfl
  · split
    · exact select?_agree hd hr false
    · refine (select?_agree hd hr withTotal).bind fun s s' hs => ?_
      rw [hs, hd.engine]
      exact .eq _
  · rw [hcount]
    exact .eq _
  · unfold Statement.insert
    rw [hd.engine]
    exact .eq _
  · exact .eq _
  · exact .eq _

/-- With a text as its trailing clause, or none, a request even fails for the same reason. -/
theorem compose_eq (hd : d.Escapes d') (hr : r.PercentFree)
    (hextra : ∀ clause, r.expression.extra? = some clause → ∃ s, clause = .text s)
    (kind : StatementKind) (withTotal : Bool) :
    compose d kind withTotal r = compose d' kind withTotal r := by
  unfold compose count Statement.insert
  simp only [select?_eq hd hr hextra, fromClause_eq hr d d', hd.engine]

/-- No statement of a request has a percent sign outside the text of the caller. -/
theorem percentFree_of_compose {kind : StatementKind} {withTotal : Bool} {s : Statement}
    (hr : r.PercentFree) (h : compose d kind withTotal r = .ok (some s)) : s.PercentFree := by
  obtain ⟨before, clause, behind, rfl, hbefore, hbehind, -, hclause⟩ := framed_of_compose hr.toNamesPercentFree h
  refine (hbefore.append (.whereClause (fun l hl => ?_) hclause)).append hbehind
  -- the leaves that restrict the statement have the operators they had
  rw [r.leaves_effectiveFilter] at hl
  obtain ⟨given, hgiven, heffective⟩ := List.mem_filterMap.mp hl
  rw [Leaf.op_of_effective? heffective]
  exact hr.operators given hgiven

/-! ## The texts of both styles -/

/-- A request either has no statement in either style of an engine or the same in both, with the same
bound values. Without any of these the texts are the same; with some, the driver takes the text in
which percent signs are doubled as the other text, putting its placeholders in. -/
theorem styles_agree (hd : d.Escapes d') (hr : r.PercentFree) (kind : StatementKind)
    (withTotal : Bool) :
    (∃ f f', compose d kind withTotal r = .error f ∧ compose d' kind withTotal r = .error f' ∧
      ((∀ clause, r.expression.extra? = some clause → ∃ s, clause = .text s) → f = f')) ∨
    (compose d kind withTotal r = .ok none ∧ compose d' kind withTotal r = .ok none) ∨
    ∃ s s', compose d kind withTotal r = .ok (some s) ∧
      compose d' kind withTotal r = .ok (some s') ∧ s.values = s'.values ∧
      (s.values = [] → d.render s = d'.render s') ∧
      (s.values ≠ [] →
        Text.interpolate ((List.range' 1 s.values.length).map d'.placeholder) (d.render s).toList =
          some (d'.render s').toList) := by
  have hagree := compose_agree hd hr kind withTotal
  cases hs : compose d kind withTotal r with
  | error f =>
    rw [hs] at hagree
    cases hs' : compose d' kind withTotal r with
    | ok composed =>
      rw [hs'] at hagree
      cases hagree
    | error f' =>
      refine Or.inl ⟨f, f', rfl, rfl, fun hextra => ?_⟩
      have heq := compose_eq hd hr hextra kind withTotal
      rw [hs, hs'] at heq
      exact Except.error.inj heq
  | ok composed =>
    have hs' : compose d' kind withTotal r = .ok composed := by
      rw [hs] at hagree
      generalize compose d' kind withTotal r = other at hagree
      cases hagree with
      | ok heq => rw [heq]
    cases composed with
    | none => exact Or.inr (Or.inl ⟨rfl, hs'⟩)
    | some s =>
      have hfree := percentFree_of_compose hr hs
      exact Or.inr (Or.inr ⟨s, s, rfl, hs', rfl, hd.render_eq hfree, hd.interpolate_render hfree⟩)

end Statement

/-- A list with percent signs in a column, in the condition of a join, in the column of a comparison
and in the trailing clause. -/
def Request.shares : Request where
  expression :=
    { source := ⟨"Person psn", ⟨none, "Person", some "psn"⟩, TableRef.ofWords?_person⟩
      joins := [⟨"Department dpt", some "left", none, some "dpt.code LIKE '%s%' || psn.code"⟩]
      columns := ["psn.name", "psn.age % 10 AS digit"]
      transformers := []
      filter := some (.leaf ⟨"psn.age % 7", ">", false⟩)
      extra := .text "ORDER BY psn.age%%2" }
  data := none
  query := [("age % 7", .int 3)]
  fields := none
  page := none
  schema := none

/-- Also where a percent sign of the caller stands before an `s` or before another one. -/
theorem Statement.styles_agree_shares :
    ∃ s s', compose ⟨.mysql, .format, by decide⟩ (.of .list) true Request.shares = .ok (some s) ∧
      compose ⟨.mysql, .qmark, by decide⟩ (.of .list) true Request.shares = .ok (some s') ∧
      Dialect.render ⟨.mysql, .format, by decide⟩ s =
        "SELECT `psn`.`name`, psn.age %% 10 AS `digit` FROM `Person` AS `psn` " ++
          "LEFT JOIN `Department` AS `dpt` ON dpt.code LIKE '%%s%%' || psn.code " ++
          "WHERE psn.age %% 7 > %s ORDER BY psn.age%%%%2" ∧
      Text.interpolate ["?"] (Dialect.render ⟨.mysql, .format, by decide⟩ s).toList =
        some (Dialect.render ⟨.mysql, .qmark, by decide⟩ s').toList := by
  have htext : (compose ⟨.mysql, .format, by decide⟩ (.of .list) true
      Request.shares).toOption.join.map (fun s =>
        (Dialect.render ⟨.mysql, .format, by decide⟩ s, s.values.length)) =
      some ("SELECT `psn`.`name`, psn.age %% 10 AS `digit` FROM `Person` AS `psn` " ++
        "LEFT JOIN `Department` AS `dpt` ON dpt.code LIKE '%%s%%' || psn.code " ++
        "WHERE psn.age %% 7 > %s ORDER BY psn.age%%%%2", 1) := by decide +kernel
  obtain ⟨composed, hcomposed, hrender⟩ := Option.map_eq_some_iff.mp htext
  have hok := ok_of_toOption_join hcomposed
  have hd : Dialect.Escapes ⟨.mysql, .format, by decide⟩ ⟨.mysql, .qmark, by decide⟩ :=
    ⟨rfl, rfl, by decide⟩
  have hjoin : Join.NamesPercentFree
      ⟨"Department dpt", some "left", none, some "dpt.code LIKE '%s%' || psn.code"⟩ :=
    ⟨by decide, by rintro kind ⟨⟩; decide, by rintro column ⟨⟩⟩
  have hr : Request.shares.PercentFree :=
    ⟨⟨by decide, List.forall_mem_singleton.mpr hjoin, by rintro schema ⟨⟩⟩,
      List.forall_mem_singleton.mpr (Or.inr (by decide)),
      List.forall_mem_singleton.mpr (by decide)⟩
  rcases styles_agree hd hr (.of .list) true with
    ⟨f, f', herror, -, -⟩ | ⟨hnone, -⟩ | ⟨s, s', hs, hs', -, -, hread⟩
  · rw [hok] at herror
    cases herror
  · rw [hok] at hnone
    cases hnone
  · rw [hok] at hs
    cases hs
    obtain ⟨hrender, hlength⟩ := Prod.mk.inj hrender
    have hvalues : composed.values ≠ [] := by
      intro hnil
      rw [hnil] at hlength
      cases hlength
    have htaken := hread hvalues
    rw [hlength] at htaken
    exact ⟨composed, s', hok, hs', hrender, htaken⟩

end TableOps
