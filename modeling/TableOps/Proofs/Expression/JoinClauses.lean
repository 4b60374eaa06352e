import TableOps.Proofs.Expression.PlainForm
import TableOps.Proofs.Statement.Composed

/-!
# Joins that are accepted and joins that can be written

A join is accepted when one of the members `using`, `use`, `on` and `onWhat` counts as present. What
it is then read as is another matter: of two names for the same thing the first one that is a member
is read, even if it is null or empty, and the text under the other name is passed over.

* `Join.Spelled` — mappings of texts with a readable table; `Join.ofValue_spelled`, which of them
  are accepted and what they are read as.
* `Join.Clause` — the clauses that a join may be written with.
* `Join.matching_of_hasClause`, `Join.matching_of_not_hasClause` — what is written for a join.
* `Request.Composed.joined` — the joins stand in every statement that reads.

Main statement: `Expression.clause_of_spelled`, when a join that is accepted has a clause.
-/

namespace TableOps

namespace Join

/-! ## Reading a mapping of texts -/

/-- The member is absent, null or a text. -/
def IsTextMember (members : Entries Value) (name : String) : Prop :=
  ∀ v, members.get? name = some v → v = .null ∨ ∃ s, v = .text s

/-- A mapping that describes a join: the table can be read, everything else that a join looks at is
absent, null or a text. -/
structure Spelled (members : Entries Value) : Prop where
  table : ∃ s ref, members.get? "table" = some (.text s) ∧ TableRef.parse s = .ok ref
  others : ∀ name ∈ ["type", "using", "use", "on", "onWhat"], IsTextMember members name

/-- The text under the first of two names that is a member. -/
def firstText? (members : Entries Value) (name other : String) : Option String :=
  match members.get? name with
  | some v => v.text?
  | none => (members.get? other).bind Value.text?

/-- One of the ways of matching counts as present. -/
def givesClause (members : Entries Value) : Bool :=
  ["using", "use", "on", "onWhat"].any (gives members)

/-- The join that a mapping of texts is read as. -/
def spelledOf (members : Entries Value) : Join where
  table := ((members.get? "table").bind Value.text?).getD ""
  kind := (members.get? "type").bind Value.text?
  using? := firstText? members "using" "use"
  on? := firstText? members "on" "onWhat"

theorem orNull_text {v : Value} (h : v = .null ∨ ∃ s, v = .text s) (name : String) :
    Check.within (.member name) (Check.orNull Check.text v) = .ok v.text? := by
  rcases h with rfl | ⟨s, rfl⟩ <;> rfl

theorem optional_one {members : Entries Value} {name : String} (h : IsTextMember members name) :
    Check.optional [name] Check.text members = .ok ((members.get? name).bind Value.text?) := by
  unfold Check.optional Check.withDefault
  cases hget : members.get? name with
  | none =>
    have hpick : Check.pick? [name] members = none := by simp [Check.pick?, hget]
    rw [hpick]
    rfl
  | some v =>
    have hpick : Check.pick? [name] members = some (name, v) := by simp [Check.pick?, hget]
    rw [hpick]
    exact orNull_text (h v hget) name

/-- Of two names the first one that is a member is read. -/
theorem optional_two {members : Entries Value} {name other : String}
    (hname : IsTextMember members name) (hother : IsTextMember members other) :
    Check.optional [name, other] Check.text members = .ok (firstText? members name other) := by
  unfold Check.optional Check.withDefault firstText?
  cases hget : members.get? name with
  | some v =>
    have hpick : Check.pick? [name, other] members = some (name, v) := by
      simp [Check.pick?, hget]
    rw [hpick]
    exact orNull_text (hname v hget) name
  | none =>
    cases hget' : members.get? other with
    | some v =>
      have hpick : Check.pick? [name, other] members = some (other, v) := by
        simp [Check.pick?, hget, hget']
      rw [hpick]
      exact orNull_text (hother v hget') other
    | none =>
      have hpick : Check.pick? [name, other] members = none := by
        simp [Check.pick?, hget, hget']
      rw [hpick]
      rfl

/-- A text that refers to a table has characters in it. -/
theorem ne_empty_of_parse {s : String} {ref : TableRef} (h : TableRef.parse s = .ok ref) :
    s ≠ "" := by
  rintro rfl
  cases h

section

variable {members : Entries Value} (h : Spelled members)

include h

theorem ofMembers_spelled : ofMembers members = .ok (spelledOf members) := by
  obtain ⟨s, ref, hget, -⟩ := h.table
  have htable : Check.required ["table"] Check.text members = .ok s := by
    have hpick : Check.pick? ["table"] members = some ("table", .text s) := by
      simp [Check.pick?, hget]
    rw [Check.required, hpick]
    rfl
  have hkind := optional_one (h.others "type" (by decide))
  have husing := optional_two (h.others "using" (by decide)) (h.others "use" (by decide))
  have hon := optional_two (h.others "on" (by decide)) (h.others "onWhat" (by decide))
  rw [ofMembers, htable, hkind, husing, hon, spelledOf, hget]
  rfl

/-- A mapping of texts is accepted when one of the ways of matching counts as present. -/
theorem ofValue_spelled : ofValue (.map members) =
    if givesClause members then .ok (spelledOf members)
    else .error (.malformed (.joinWithoutClause (.map members))) := by
  obtain ⟨s, ref, hget, hparse⟩ := h.table
  have htable : gives members "table" = true := by
    have hne := ne_empty_of_parse hparse
    simpa [gives, hget, Value.truthy] using hne
  have hall : ["using", "use", "on", "onWhat"].all (!gives members ·) = !givesClause members := by
    rw [givesClause, List.not_any_eq_all_not]
  rw [ofValue, htable, hall, ofMembers_spelled h]
  cases givesClause members <;> rfl

theorem tableRef_spelledOf : ∃ ref, (spelledOf members).tableRef = .ok ref := by
  obtain ⟨s, ref, hget, hparse⟩ := h.table
  refine ⟨ref, ?_⟩
  rw [tableRef, spelledOf, hget]
  exact hparse

end

/-- A text counts as present when it has characters in it. -/
theorem filled?_text_isSome (v : Option Value) (h : ∀ w, v = some w → w = .null ∨ ∃ s, w = .text s) :
    (filled? (v.bind Value.text?)).isSome = v.any Value.truthy := by
  cases v with
  | none => rfl
  | some w =>
    rcases h w rfl with rfl | ⟨s, rfl⟩
    · rfl
    · by_cases hs : s.isEmpty <;> simp [filled?, Value.text?, Value.truthy, Option.filter, hs]

/-- What is found under two names has characters in it when the first name gives it, or is no member
and the second one gives it. -/
theorem filled?_firstText? {members : Entries Value} {name other : String}
    (hname : IsTextMember members name) (hother : IsTextMember members other) :
    (filled? (firstText? members name other)).isSome =
      (gives members name || (!members.has name && gives members other)) := by
  have hfirst := filled?_text_isSome _ hname
  have hsecond := filled?_text_isSome _ hother
  unfold firstText? gives Entries.has
  cases hget : members.get? name with
  | some v =>
    rw [hget] at hfirst
    simpa using hfirst
  | none => simpa using hsecond

/-- What a mapping of texts is read as has a clause when a way of matching counts as present that is
not hidden behind its other name. -/
theorem hasClause_spelledOf {members : Entries Value} (h : Spelled members) :
    (spelledOf members).hasClause =
      ((gives members "using" || (!members.has "using" && gives members "use")) ||
        (gives members "on" || (!members.has "on" && gives members "onWhat"))) := by
  rw [← filled?_firstText? (h.others "using" (by decide)) (h.others "use" (by decide)),
    ← filled?_firstText? (h.others "on" (by decide)) (h.others "onWhat" (by decide))]
  rfl

/-! ## What is written for a join -/

/-- The clauses that a join may be written with, each from a text of the join. -/
inductive Clause (j : Join) (primary : TableRef) : Statement → Prop where
  /-- A column that both tables have. -/
  | shared {column : String} (husing : filled? j.using? = some column) :
      Clause j primary [.text " USING (", .name column, .text ")"]
  /-- A condition as it was given. -/
  | condition {on : String} (husing : filled? j.using? = none) (hon : filled? j.on? = some on)
      (hcomparison : hasComparison on.toList = true) :
      Clause j primary [.text " ON ", .raw on]
  /-- A column that is compared with the one of the same name in the joined table. -/
  | equality {on : String} {ref : TableRef} (husing : filled? j.using? = none)
      (hon : filled? j.on? = some on) (hcomparison : hasComparison on.toList = false)
      (htable : j.tableRef = .ok ref) :
      Clause j primary [.text " ON ",
        .column (if (filled? (Reference.splitQualifier on).1).isSome then Text.trimmed on
          else primary.qualifier ++ "." ++ (Reference.splitQualifier on).2),
        .text " = ", .column (ref.qualifier ++ "." ++ (Reference.splitQualifier on).2)]

/-- A condition that is spelled out compares no two columns of one name. -/
theorem equality?_of_comparison {j : Join} {on : String} (husing : filled? j.using? = none)
    (hon : filled? j.on? = some on) (h : hasComparison on.toList = true) (primary : TableRef) :
    j.equality? primary = .ok none := by
  unfold equality?
  rw [husing, hon]
  exact if_pos h

/-- A column alone is compared with the one of the same name in the joined table. -/
theorem equality?_of_column {j : Join} {on : String} {ref : TableRef}
    (husing : filled? j.using? = none) (hon : filled? j.on? = some on)
    (h : hasComparison on.toList = false) (htable : j.tableRef = .ok ref) (primary : TableRef) :
    j.equality? primary = .ok (some
      (if (filled? (Reference.splitQualifier on).1).isSome then Text.trimmed on
        else primary.qualifier ++ "." ++ (Reference.splitQualifier on).2,
        ref.qualifier ++ "." ++ (Reference.splitQualifier on).2)) := by
  unfold equality?
  rw [husing, hon]
  dsimp only
  rw [if_neg (Bool.eq_false_iff.mp h), htable]
  generalize Reference.splitQualifier on = cut
  rfl

/-- In every dialect a join with a clause is written with one. -/
theorem matching_of_hasClause {j : Join} {ref : TableRef} (htable : j.tableRef = .ok ref)
    (h : j.hasClause = true) (d : Dialect) (primary : TableRef) :
    ∃ clause, Statement.matching d j primary = .ok clause ∧ Clause j primary clause := by
  unfold Statement.matching
  cases husing : filled? j.using? with
  | some column => exact ⟨_, rfl, .shared husing⟩
  | none =>
    cases hon : filled? j.on? with
    | none => simp [hasClause, husing, hon] at h
    | some on =>
      cases hcomparison : hasComparison on.toList with
      | true =>
        refine ⟨_, ?_, .condition husing hon hcomparison⟩
        rw [equality?_of_comparison husing hon hcomparison, (Option.filter_eq_some_iff.mp hon).1]
        rfl
      | false =>
        refine ⟨_, ?_, .equality husing hon hcomparison htable⟩
        rw [equality?_of_column husing hon hcomparison htable]
        rfl

/-- A join without a clause cannot be written where percent signs are doubled; elsewhere the word
`ON` is written with nothing behind it, or with the word for nothing. -/
theorem matching_of_not_hasClause {j : Join} (h : j.hasClause = false) (d : Dialect)
    (primary : TableRef) : Statement.matching d j primary =
      match j.on?, d.style with
      | some _, _ => .ok [.text " ON ", .raw ""]
      | none, .format => .error .unsupportedValue
      | none, _ => .ok [.text " ON None"] := by
  have hnone : filled? j.using? = none ∧ filled? j.on? = none := by
    simpa [hasClause] using h
  obtain ⟨husing, hon⟩ := hnone
  unfold Statement.matching equality?
  rw [husing, hon]
  cases hon? : j.on? with
  | none => cases d.style <;> rfl
  | some on =>
    obtain rfl : on = "" := by
      rw [hon?] at hon
      simpa [filled?, Option.filter] using hon
    rfl

end Join

/-! ## Where it stands -/

namespace Statement

/-- A join with a clause is written as its kind, its table and that clause. -/
theorem joinClause_of_hasClause {j : Join} {ref : TableRef} (htable : j.tableRef = .ok ref)
    (h : j.hasClause = true) (d : Dialect) (primary : TableRef) :
    ∃ clause, j.Clause primary clause ∧ joinClause d primary j =
      .ok ([.text (" " ++ joinKind j ++ "JOIN "), .table ref] ++ clause) := by
  obtain ⟨clause, hmatching, hclause⟩ := Join.matching_of_hasClause htable h d primary
  refine ⟨clause, hclause, ?_⟩
  rw [joinClause, htable, hmatching]
  rfl

/-- Every join stands in what a statement reads from. -/
theorem joined_of_fromClause {d : Dialect} {table : TableRef} {joins : List Join} {s : Statement}
    (h : fromClause d table joins = .ok s) {j : Join} (hj : j ∈ joins) :
    ∃ clause, joinClause d table j = .ok clause ∧ clause <:+: s := by
  obtain ⟨clauses, hclauses, h⟩ := ok_of_bind h
  cases h
  obtain ⟨clause, hmem, hclause⟩ := exists_of_mapM hclauses j hj
  exact ⟨clause, hclause, (List.infix_of_mem_flatten hmem).trans (List.suffix_append _ _).isInfix⟩

end Statement

/-- Every join stands in every statement that reads. -/
theorem Request.Composed.joined {d : Dialect} {r : Request} {kind : StatementKind} {s : Statement}
    (h : r.Composed d kind s) (hreads : kind = .of .query ∨ kind = .of .list ∨ kind = .total)
    {j : Join} (hj : j ∈ r.expression.joins) :
    ∃ clause, Statement.joinClause d r.expression.table j = .ok clause ∧ clause <:+: s := by
  cases h with
  | @selection _ _ paged source restriction extra cut _ _ hsource _ _ =>
    obtain ⟨clause, hclause, hstands⟩ := Statement.joined_of_fromClause hsource hj
    refine ⟨clause, hclause, hstands.trans ?_⟩
    refine ⟨[.text "SELECT "] ++ Statement.commaSeparated (Statement.items d.engine
      (Statement.selected r.expression r.fields) paged) ++ [.text " "],
      restriction ++ extra ++ cut.toList.map Piece.text, ?_⟩
    simp only [Statement.selection, List.append_assoc]
  | counting hsource _ =>
    obtain ⟨clause, hclause, hstands⟩ := Statement.joined_of_fromClause hsource hj
    exact ⟨clause, hclause, (hstands.trans (List.suffix_append _ _).isInfix).trans
      (List.prefix_append _ _).isInfix⟩
  | inserting _ => simp at hreads
  | updating _ _ _ => simp at hreads
  | deleting _ _ => simp at hreads

namespace Expression

open Join

/-- A mapping of texts as a join. It is added when a way of matching counts as present, and refused
without a trace otherwise. What it is read as has a clause exactly when a way of matching counts as
present whose other name, where it comes first, is no member. Then the join is written with that
clause in every dialect, and stands so in every statement that reads; if not, there is no text for
its clause. -/
theorem clause_of_spelled {members : Entries Value} (h : Spelled members) :
    (∀ e, (join (.map members)).run.run e =
      if givesClause members then (.ok (), { e with joins := e.joins ++ [spelledOf members] })
      else (.error (.malformed (.joinWithoutClause (.map members))), e)) ∧
    ((spelledOf members).hasClause = true ↔
      (gives members "using" = true ∨ members.has "using" = false ∧ gives members "use" = true) ∨
        gives members "on" = true ∨ members.has "on" = false ∧ gives members "onWhat" = true) ∧
    ((spelledOf members).hasClause = true → givesClause members = true ∧
      ∃ ref, (spelledOf members).tableRef = .ok ref ∧
        (∀ d primary, ∃ clause, (spelledOf members).Clause primary clause ∧
          Statement.joinClause d primary (spelledOf members) =
            .ok ([.text (" " ++ Statement.joinKind (spelledOf members) ++ "JOIN "), .table ref] ++
              clause)) ∧
        ∀ d (r : Request) kind s, r.Composed d kind s →
          (kind = .of .query ∨ kind = .of .list ∨ kind = .total) →
          spelledOf members ∈ r.expression.joins →
            ∃ clause, (spelledOf members).Clause r.expression.table clause ∧
              [.text (" " ++ Statement.joinKind (spelledOf members) ++ "JOIN "), .table ref] ++
                clause <:+: s) ∧
    ((spelledOf members).hasClause = false → ∀ d primary,
      Statement.matching d (spelledOf members) primary =
        match (spelledOf members).on?, d.style with
        | some _, _ => .ok [.text " ON ", .raw ""]
        | none, .format => .error .unsupportedValue
        | none, _ => .ok [.text " ON None"]) := by
  have hiff : (spelledOf members).hasClause = true ↔
      (gives members "using" = true ∨ members.has "using" = false ∧ gives members "use" = true) ∨
        gives members "on" = true ∨ members.has "on" = false ∧ gives members "onWhat" = true := by
    rw [hasClause_spelledOf h]
    simp only [Bool.or_eq_true, Bool.and_eq_true, Bool.not_eq_true']
  refine ⟨fun e => ?_, hiff, fun hclause => ⟨?_, ?_⟩, matching_of_not_hasClause⟩
  · have hread : readJoin (.map members) = Join.ofValue (.map members) := rfl
    rw [join, run_bind, run_liftM, hread, ofValue_spelled h]
    cases givesClause members <;> rfl
  · have hgiven := hiff.mp hclause
    simp only [givesClause, List.any_cons, List.any_nil, Bool.or_eq_true]
    tauto
  · obtain ⟨ref, htable⟩ := tableRef_spelledOf h
    refine ⟨ref, htable, Statement.joinClause_of_hasClause htable hclause, ?_⟩
    intro d r kind s hs hreads hj
    obtain ⟨written, hwritten, hstands⟩ := hs.joined hreads hj
    obtain ⟨clause, hspells, hjoin⟩ :=
      Statement.joinClause_of_hasClause htable hclause d r.expression.table
    cases hwritten.symm.trans hjoin
    exact ⟨clause, hspells, hstands⟩

/-- People with where they are, joined on a column that both tables have. -/
def sharedColumn : Entries Value :=
  [("table", .text "PsnLoc"), ("type", .null), ("use", .text "psnID")]

theorem clause_of_spelled_shared :
    Spelled sharedColumn ∧ givesClause sharedColumn = true ∧
      (spelledOf sharedColumn).hasClause = true := by
  have hspelled : Spelled sharedColumn := by
    refine ⟨⟨"PsnLoc", ⟨none, "PsnLoc", none⟩, rfl, rfl⟩, ?_⟩
    intro name hname v hv
    have hmem := Entries.mem_of_get? hv
    simp [sharedColumn] at hmem
    rcases hmem with ⟨-, rfl⟩ | ⟨-, rfl⟩ | ⟨-, rfl⟩
    · exact Or.inr ⟨_, rfl⟩
    · exact Or.inl rfl
    · exact Or.inr ⟨_, rfl⟩
  obtain ⟨-, hiff, hclause, -⟩ := clause_of_spelled hspelled
  have hhas := hiff.mpr (Or.inl (Or.inr ⟨rfl, rfl⟩))
  exact ⟨hspelled, (hclause hhas).1, hhas⟩

/-- The same column behind a null under the other name. -/
def hiddenColumn : Entries Value :=
  [("table", .text "PsnLoc"), ("using", .null), ("use", .text "psnID")]

/-- Such a join is added to an expression, with neither a column nor a condition: where percent signs
are doubled no statement can be written with it, and elsewhere one without a clause. -/
theorem clause_of_hidden :
    (∀ e, (join (.map hiddenColumn)).run.run e =
        (.ok (), { e with joins := e.joins ++ [⟨"PsnLoc", none, none, none⟩] })) ∧
      (∀ primary, Statement.matching (.standard .mysql) ⟨"PsnLoc", none, none, none⟩ primary =
        .error .unsupportedValue) ∧
      ∀ primary, Statement.matching ⟨.mysql, .qmark, by decide⟩ ⟨"PsnLoc", none, none, none⟩
        primary = .ok [.text " ON None"] :=
  ⟨fun _ => rfl, fun _ => rfl, fun _ => rfl⟩

end Expression

end TableOps
