import TableOps.Proofs.Session.TotalHistory

/-!
# Remembered totals

Expressions are built on in place, copied and run as commands, in any order; an expression and its
copies share one remembered total. A page that takes its total from there takes the one that was
counted last, for an equal query, and neither a step nor a copy forgets it. So the total may have
been counted over something else; where it was not, the statement that would count it now is the
same.

* `Run` — the runs, with what they record; `Run.remembers` is what holds at their ends.
* `Plan.Recalls` — a page takes the total of another one.

Main statement: `Run.reported_total`, where the total comes from that is reported with a page.
-/

namespace TableOps

open Session

/-! ## Runs -/

/-- A run on expressions that may share their totals, with what it records: expressions are begun,
built on in place and copied, and commands are run on them. -/
inductive Run (s₀ : Session) : List Recorded → Session → Prop where
  | start : Run s₀ [] s₀
  | share {history : List Recorded} {s : Session} (h : Run s₀ history s) (e : Expression) :
      Run s₀ history ((share e).run s).2
  /-- A step of an expression: a join, columns, a filter or a trailing clause. -/
  | build {history : List Recorded} {s : Session} (h : Run s₀ history s) (id : ExpressionId)
      {x : SharedExpression} (hx : s.shared? id = some x) (step : Draft.Step Unit) :
      Run s₀ history ((updateShared id (step.run.run x.toDraft).2).run s).2
  /-- A copy, which shares the total. -/
  | derive {history : List Recorded} {s : Session} (h : Run s₀ history s) (id : ExpressionId)
      {x : SharedExpression} (hx : s.shared? id = some x) {changes : Value} {d : Draft}
      (hd : x.toDraft.derive changes = .ok d) : Run s₀ history ((addShared d x.cache).run s).2
  | command {history : List Recorded} {s : Session} (h : Run s₀ history s) (p : Patched) :
      Run s₀ (history ++ p.record s) ((executePatched p).run.run s).2
  /-- Anything else that leaves the expressions and the remembered totals as they are. -/
  | aside {history : List Recorded} {s s' : Session} (h : Run s₀ history s)
      (hs' : KeepsTotals s s') : Run s₀ history s'

namespace Session

/-- Nothing has been remembered yet, and every shared expression has a place for its total. -/
structure Uncounted (s : Session) : Prop where
  total : ∀ id, s.total id = (.null, none)
  placed : ∀ e ∈ s.expressions, e.cache.index < s.caches.length

variable {s s' : Session} {history : List Recorded}

theorem mem_expressions_of_shared? {id : ExpressionId} {x : SharedExpression}
    (h : s.shared? id = some x) : x ∈ s.expressions :=
  List.mem_of_getElem? h

theorem Remembers.addShared (h : s.Remembers history) (d : Draft) {cache : CacheId}
    (hplaced : cache.index < s.caches.length) :
    (((addShared d cache).run s).2).Remembers history where
  total := h.total
  placed e he := by
    rcases List.mem_append.mp he with he | he
    · exact h.placed e he
    · rw [List.mem_singleton.mp he]
      exact hplaced

theorem Remembers.share (h : s.Remembers history) (e : Expression) :
    (((share e).run s).2).Remembers history := by
  refine (h.keeps (keepsTotals_addCache s)).addShared _ ?_
  show s.caches.length < (s.caches ++ [CountCache.empty]).length
  rw [List.length_append]
  exact Nat.lt_succ_self _

theorem Remembers.updateShared (h : s.Remembers history) (id : ExpressionId) (d : Draft) :
    (((updateShared id d).run s).2).Remembers history where
  total := h.total
  -- the step changes what the expression says, and not where its total is
  placed := forall_mem_modify h.placed fun x hx => h.placed x (List.mem_of_getElem? hx)

end Session

namespace Run

variable {s₀ s s' : Session} {history : List Recorded}

/-- What is remembered after a run is what it recorded last. -/
theorem remembers (hs₀ : s₀.Uncounted) (h : Run s₀ history s) : s.Remembers history := by
  induction h with
  | start => exact ⟨hs₀.total, hs₀.placed⟩
  | share h e ih => exact ih.share e
  | build h id hx step ih => exact ih.updateShared id _
  | derive h id hx hd ih => exact ih.addShared _ (ih.placed _ (mem_expressions_of_shared? hx))
  | command h p ih => exact ih.executePatched p
  | aside h hs' ih => exact ih.keeps hs'

end Run

/-! ## The totals of pages -/

/-- Two totals are sent as the same text with equal values. -/
def SentAlike (d : Dialect) (s t : Statement) : Prop :=
  d.render s = d.render t ∧ List.Forall₂ (Value.same · ·) s.values t.values

namespace Plan

/-- A page takes the total of another one, which stands after a history. -/
structure Recalls (history : List Recorded) (x y : Plan) (n : Int) : Prop where
  /-- It was counted in the history, and neither forgotten nor counted again since. -/
  counted : ∃ before after, history = before ++ .counted y n :: after ∧
    ∀ e ∈ after, ¬ e.Changes x.cache
  cache : y.cache = x.cache
  query : Value.same y.query x.query = true
  /-- Where both count over the same, the same is asked for. -/
  total : y.query.Distinct → y.counted = x.counted → y.dialect = x.dialect →
    Agree (Option.Rel (SentAlike x.dialect)) y.total x.total

/-- Plans that count over the same for equal queries ask for the same total. -/
theorem total_agree {x y : Plan} (hquery : Value.same y.query x.query = true)
    (hdistinct : y.query.Distinct) (hcounted : y.counted = x.counted)
    (hdialect : y.dialect = x.dialect) :
    Agree (Option.Rel (SentAlike x.dialect)) y.total x.total := by
  rw [total_eq, total_eq, hcounted, hdialect]
  exact (x.counted.total_agree x.dialect hquery hdistinct).map fun s t hst =>
    .some ⟨hst.render_eq x.dialect, hst.values⟩

end Plan

namespace Run

variable {s₀ s s' : Session} {history : List Recorded}

/-- The total that is reported with a page was counted for it, or it is that of another page which
was counted last. -/
theorem reported_total (hs₀ : s₀.Uncounted) (hrun : Run s₀ history s) {p : Patched}
    {rows : List Row} {n : Int}
    (hpage : (executePatched p).run.run s = (.ok (.page rows n), s')) :
    ∃ x : Plan, .counted x n ∈ p.record s ∨
      p.record s = [.recalled x n] ∧ ∃ y, x.Recalls history y n := by
  -- the page is the outcome of the command's plan
  have hfollows : ((plan p >>= fun x => x.prepared.outcome).run.run s).1 = .ok (.page rows n) :=
    (follows_executePatched p s).1.symm.trans (congrArg Prod.fst hpage)
  obtain ⟨x, u, hplan, houtcome⟩ := ok_of_run_bind (Prod.ext hfollows rfl)
  obtain ⟨⟨shared, d⟩, t, hannounced, hplanned⟩ := ok_of_run_bind hplan
  have hrecord := record_of_planned hannounced hplanned
  refine ⟨x, ?_⟩
  rcases Plan.record_of_outcome houtcome with hcounted | ⟨hrecalled, hfound⟩
  · refine Or.inl ?_
    rw [hrecord, hcounted]
    exact List.mem_append_right _ List.mem_cons_self
  · -- what was found stands after the history, so the command has forgotten nothing
    have hu := (hrun.remembers hs₀).planned hannounced
    rw [hplanned] at hu
    have htotal : (u.cache x.cache).countFor x.query =
        if Value.same (u.total x.cache).1 x.query then (u.total x.cache).2 else none := rfl
    rw [htotal, hu.1.total, cache_of_planned hplanned] at hfound
    obtain ⟨y, hstanding, hquery⟩ := standing_of_found hfound
    have hforgets := forgets_of_standing hstanding
    rw [hforgets, List.append_nil, ← cache_of_planned hplanned] at hstanding
    rw [hforgets, List.nil_append] at hrecord
    obtain ⟨before, after, hhistory, hcache, hafter⟩ := counted_of_standing hstanding
    exact Or.inr ⟨hrecord.trans hrecalled, y, ⟨before, after, hhistory, hafter⟩, hcache, hquery,
      Plan.total_agree hquery⟩

end Run

/-! ## The people of an age -/

/-- What is recorded of a page: whether its total was counted for it, where it is remembered, the
total, and the text that asks for it. -/
def Recorded.asked : Recorded → Option (Bool × CacheId × Int × String)
  | .forgotten _ => none
  | .counted x n => x.total.toOption.join.map fun t => (true, x.cache, n, x.dialect.render t)
  | .recalled x n => x.total.toOption.join.map fun t => (false, x.cache, n, x.dialect.render t)

theorem exists_of_asked {record : List Recorded} {isCounted : Bool} {cache : CacheId} {n : Int}
    {text : String} (h : record.map Recorded.asked = [some (isCounted, cache, n, text)]) :
    ∃ x t, record = [if isCounted then .counted x n else .recalled x n] ∧ x.cache = cache ∧
      x.total = .ok (some t) ∧ x.dialect.render t = text := by
  obtain ⟨e, rfl, he⟩ := List.map_eq_singleton_iff.mp h
  cases e with
  | forgotten cache => cases he
  | counted x m | recalled x m =>
    obtain ⟨t, ht, heq⟩ := Option.map_eq_some_iff.mp he
    cases heq
    exact ⟨x, t, rfl, rfl, ok_of_toOption_join ht, rfl⟩

/-- The total that is reported with a page. -/
def Outcome.total? : Outcome → Option Int
  | .page _ n => some n
  | _ => none

theorem exists_page_of_total? {r : Except Failure Outcome × Session} {n : Int}
    (h : r.1.toOption.bind Outcome.total? = some n) : ∃ rows, r = (.ok (.page rows n), r.2) := by
  obtain ⟨r, s⟩ := r
  obtain ⟨o, ho, hn⟩ := Option.bind_eq_some_iff.mp h
  cases o with
  | page rows m =>
    cases hn
    exact ⟨rows, Prod.ext (ok_of_toOption ho) rfl⟩
  | _ => cases hn

/-- The names of the people of an age. -/
def Expression.people : Expression where
  source := ⟨"Person", ⟨none, "Person", none⟩, by decide +kernel⟩
  joins := []
  columns := ["name"]
  transformers := []
  filter := some (.leaf (.equals "age"))
  extra := .null

/-- The first page of the people who are thirty. -/
def Patched.people : Patched :=
  .ofCommand
    { operation := .list
      target := .shared ⟨0⟩
      data := none
      query := [("age", .int 30)]
      page := some ⟨1, Page.defaultSize, Nat.one_pos, Page.defaultSize_pos⟩
      fields := none
      connection := .null
      refresh := false
      schema := none
      debug := false }

/-- The people are put in order. -/
def Draft.sorted : Draft.Step Unit :=
  Draft.setExtra (.text "ORDER BY name")

/-- Those are asked for who are older. -/
def Draft.older : Draft.Step Unit :=
  Draft.filterBy (.map [("name", .text "age"), ("op", .text ">")])

namespace Session

/-- A database that answers with a page, its total, and another page. -/
def peopleDatabase : Session :=
  let page := Reply.done [.text "name"] [.list [.text "Jane"]] (.int 1) .null
  let total := Reply.done [.text "ct"] [.list [.int 3]] (.int 1) .null
  { empty .empty with
    databases := [.fresh (some "shop") (.standard .mysql) .factory ⟨none, none, 1, .null, none⟩]
    registry := ⟨[("shop", ⟨0⟩)], some "shop"⟩
    server := ⟨0, [], [page, total, page]⟩ }

/-- The expression is shared, and no command has been run on it. -/
def peopleShared : Session :=
  ((share .people).run peopleDatabase).2

/-- The people have been listed, and then a step of the expression is taken. -/
def peopleAfter (step : Draft.Step Unit) : Session :=
  ((updateShared ⟨0⟩ (step.run.run (.ofExpression .people)).2).run
    ((executePatched .people).run.run peopleShared).2).2

theorem uncounted_peopleDatabase : peopleDatabase.Uncounted :=
  ⟨fun _ => rfl, fun _ he => by cases he⟩

/-- The total is counted for the first page. -/
theorem asked_peopleShared : (Patched.people.record peopleShared).map Recorded.asked =
    [some (true, ⟨0⟩, 3, "SELECT COUNT(*) AS `ct` FROM `Person` WHERE `age` = %s")] := by
  decide +kernel

end Session

namespace Run

theorem people (step : Draft.Step Unit) :
    Run peopleDatabase (Patched.people.record peopleShared) (peopleAfter step) :=
  have hcounted := (Run.start.share .people).command .people
  hcounted.build ⟨0⟩ (x := ⟨.ofExpression .people, ⟨0⟩⟩) rfl step

/-- When a trailing clause is added between two pages, the second one takes the total of the first
one. -/
theorem reported_total_sorted :
    ∃ rows s' x y, peopleDatabase.Uncounted ∧
      Run peopleDatabase (Patched.people.record peopleShared) (peopleAfter Draft.sorted) ∧
      (executePatched .people).run.run (peopleAfter Draft.sorted) = (.ok (.page rows 3), s') ∧
      Patched.people.record (peopleAfter Draft.sorted) = [.recalled x 3] ∧
      x.Recalls (Patched.people.record peopleShared) y 3 := by
  obtain ⟨rows, hpage⟩ := exists_page_of_total? (n := 3)
    (r := (executePatched .people).run.run (peopleAfter Draft.sorted)) (by decide +kernel)
  have hasked : (Patched.people.record (peopleAfter Draft.sorted)).map Recorded.asked =
      [some (false, ⟨0⟩, 3, "SELECT COUNT(*) AS `ct` FROM `Person` WHERE `age` = %s")] := by
    decide +kernel
  obtain ⟨x, t, hrecord, -, -, -⟩ := exists_of_asked hasked
  obtain ⟨x', hcounted | ⟨hrecalled, y, hy⟩⟩ :=
    reported_total uncounted_peopleDatabase (people Draft.sorted) hpage
  · rw [hrecord] at hcounted
    cases List.mem_singleton.mp hcounted
  · exact ⟨rows, _, x', y, uncounted_peopleDatabase, people _, hpage, hrecalled, hy⟩

/-- When the filter is replaced between two pages, the total of the first one is reported with the
second one, though it would be another statement that counts its rows. -/
theorem recalled_other_total :
    ∃ rows s' x y t t', peopleDatabase.Uncounted ∧
      Run peopleDatabase [.counted y 3] (peopleAfter Draft.older) ∧
      (executePatched .people).run.run (peopleAfter Draft.older) = (.ok (.page rows 3), s') ∧
      Patched.people.record (peopleAfter Draft.older) = [.recalled x 3] ∧ y.cache = x.cache ∧
      y.total = .ok (some t) ∧ x.total = .ok (some t') ∧
      y.dialect.render t = "SELECT COUNT(*) AS `ct` FROM `Person` WHERE `age` = %s" ∧
      x.dialect.render t' = "SELECT COUNT(*) AS `ct` FROM `Person` WHERE `age` > %s" := by
  obtain ⟨rows, hpage⟩ := exists_page_of_total? (n := 3)
    (r := (executePatched .people).run.run (peopleAfter Draft.older)) (by decide +kernel)
  have hasked : (Patched.people.record (peopleAfter Draft.older)).map Recorded.asked =
      [some (false, ⟨0⟩, 3, "SELECT COUNT(*) AS `ct` FROM `Person` WHERE `age` > %s")] := by
    decide +kernel
  obtain ⟨y, t, hhistory, hy, ht, htext⟩ := exists_of_asked asked_peopleShared
  obtain ⟨x, t', hrecord, hx, ht', htext'⟩ := exists_of_asked hasked
  have hrun := people Draft.older
  rw [hhistory] at hrun
  exact ⟨rows, _, x, y, t, t', uncounted_peopleDatabase, hrun, hpage, hrecord, hy.trans hx.symm, ht,
    ht', htext, htext'⟩

end Run

end TableOps
