import TableOps.Proofs.Session.Issued
import TableOps.Proofs.Session.PageExchanges
import TableOps.Proofs.Session.RememberedTotals

/-!
# Totals that are taken again

In a run of commands the total of a page is the one that stands, or it is computed and stands from
then on. It is taken again where the one that stands was computed for an equal query, and then the
rows are all that is asked for.

* `Patched.AsksPage` — a command asks for a page.
* `Patched.Finds` — a command comes to compute a total; `Patched.finds_of_record` and
  `Patched.mem_record_of_finds`, that is recorded, and nothing else is but what is forgotten.
* `Plan.listed_of_recalled`, `Plan.tallied_of_outcome` — what is asked for in the two ways of a
  page.
* `Plan.Reports` — where the total of a page comes from.

Main statement: `Run.total_again_or_computed`, the totals of pages along a run.
-/

namespace TableOps

open Session Statement

/-! ## Commands that ask for pages -/

/-- A page is asked for: rows are listed, and there is a range. -/
def Patched.AsksPage (p : Patched) : Prop :=
  p.kind? = some (.of .list) ∧ p.isPaged = true

/-- A command comes to compute a total, as none is remembered for an equal query. -/
def Patched.Finds (p : Patched) (s : Session) (x : Plan) (n : Int) : Prop :=
  ∃ t u rows, (plan p).run.run s = (.ok x, t) ∧ (t.cache x.cache).countFor x.query = none ∧
    x.prepared.tally.run.run t = (.ok (rows, n), u)

namespace Session

variable {s s' : Session} {p : Patched} {x : Plan}

/-- The plan of a command is one of a page if the command asks for one. -/
theorem isPage_iff_of_planned {shared : SharedExpression} {d : DatabaseId}
    (h : (planned p shared d).run.run s = (.ok x, s')) : x.IsPage ↔ p.AsksPage := by
  obtain ⟨r, t, -, h⟩ := ok_of_run_bind h
  unfold planFor at h
  split at h
  · rename_i hread
    -- there are no unread members, so that the command itself is looked at
    have hunread : p.unread = [] := List.isEmpty_iff.mp (Bool.and_eq_true_iff.mp hread).1
    obtain ⟨schema, t, -, h⟩ := ok_of_run_bind h
    obtain ⟨e, t, -, h⟩ := ok_of_run_bind h
    obtain ⟨database, t, -, h⟩ := ok_of_run_bind h
    cases h
    unfold Patched.AsksPage Patched.kind? Patched.isPaged
    rw [hunread]
    exact Iff.rfl
  · obtain ⟨given, t, -, h⟩ := ok_of_run_bind h
    obtain ⟨schema, t, -, h⟩ := ok_of_run_bind h
    obtain ⟨draft, t, -, h⟩ := ok_of_run_bind h
    obtain ⟨database, t, -, h⟩ := ok_of_run_bind h
    cases h
    exact Iff.rfl

/-- A command that succeeds has been planned and run; what it does after that sends nothing and
forgets nothing. -/
theorem outcome_of_executePatched {o : Outcome} (h : (executePatched p).run.run s = (.ok o, s')) :
    ∃ x t u, (plan p).run.run s = (.ok x, t) ∧ x.prepared.outcome.run.run t = (.ok o, u) ∧
      Issues (fun _ => False) u s' ∧ KeepsTotals u s' := by
  have hquiet := (issues_stepEffects fun _ => False).callEffects.toQuietEffects
  obtain ⟨hsame, hissues⟩ := follows_plan hquiet p s
  have hkeeps := (follows_executePatched p s).2
  rw [h] at hsame hissues hkeeps
  have houtcome : ((plan p >>= fun x => x.prepared.outcome).run.run s).1 = .ok o := hsame.symm
  obtain ⟨x, t, hplan, hrun⟩ := ok_of_run_bind (Prod.ext houtcome rfl)
  exact ⟨x, t, _, hplan, hrun, hissues, hkeeps⟩

end Session

/-! ## The two ways of a page -/

namespace Session

variable {s t u : Session}

/-- What sends nothing adds no exchange. -/
theorem Proceeds.exchanges_quiet (hst : s.Proceeds t) (htu : Issues (fun _ => False) t u) :
    s.exchanges u = s.exchanges t := by
  obtain ⟨added, ht, hreplies⟩ := hst
  obtain ⟨events, hu, hnone⟩ := htu
  have hall : u.server.events = s.server.events ++ (added ++ events) := by
    rw [hu, ht, List.append_assoc]
  rw [exchanges_eq hall, exchanges_eq ht, exchanges_append, exchanges_eq_nil hnone, List.append_nil]

end Session

namespace Plan

variable {x : Plan} {s s' : Session} {rows : List Row} {m n : Int}

/-- A page whose total is remembered is asked for without a total, and nothing else is. -/
theorem listed_of_recalled (hpage : x.IsPage) (hn : (s.cache x.cache).countFor x.query = some n)
    (h : x.prepared.outcome.run.run s = (.ok (.page rows m), s')) :
    s.Proceeds s' ∧ ∃ e result, s.exchanges s' = [e] ∧ x.Listed false result e := by
  rw [← prepared_cache] at hn
  rw [hpage.outcome_eq, Prepared.page_of_remembered hn] at h
  obtain ⟨result, t, hrun, h⟩ := ok_of_run_bind h
  obtain ⟨hproceeds, e, hexchange, hasked⟩ := Prepared.exchange_of_run hrun
  obtain ⟨shown, u, hshown, h⟩ := ok_of_run_bind h
  cases (congrArg Prod.snd hshown : t = u)
  cases h
  exact ⟨hproceeds, e, result, hexchange, listed_of_asked hpage hasked⟩

/-- A page whose total is not remembered has it computed. -/
theorem tallied_of_outcome (hpage : x.IsPage) (hn : (s.cache x.cache).countFor x.query = none)
    (h : x.prepared.outcome.run.run s = (.ok (.page rows n), s')) :
    s.Proceeds s' ∧ x.Tallied n (s.exchanges s') := by
  rw [← prepared_cache] at hn
  rw [hpage.outcome_eq, Prepared.page_of_not_remembered hn] at h
  obtain ⟨⟨listed, m⟩, t, htally, h⟩ := ok_of_run_bind h
  obtain ⟨hproceeds, htallied⟩ := tallied_of_tally hpage htally
  obtain ⟨_, u, hstore, h⟩ := ok_of_run_bind h
  obtain ⟨shown, v, hshown, h⟩ := ok_of_run_bind h
  cases (congrArg Prod.snd hshown : u = v)
  cases h
  -- remembering the total asks for nothing
  have hserver : s'.server = t.server := (congrArg (fun r => r.2.server) hstore).symm
  have hquiet : Issues (fun _ => False) t s' := issues_of_eq (congrArg Server.events hserver)
  rw [hproceeds.exchanges_quiet hquiet]
  exact ⟨chained_proceeds.trans hproceeds (proceeds_of_eq (congrArg Server.events hserver)
    (congrArg Server.replies hserver)), htallied⟩

/-! ## Where the total of a page comes from -/

/-- Where the total of a page comes from, between the session in which it is planned and the one in
which it has been listed, and what is recorded of that; `last` stands before. -/
inductive Reports (x : Plan) (last : Option (Plan × Int)) (s s' : Session) (n : Int) :
    List Recorded → Prop where
  /-- It is the one that stands, for an equal query: nothing is asked for but the rows. -/
  | again {y : Plan} {e : Exchange} {result : Result} (hlast : last = some (y, n))
      (hquery : Value.same y.query x.query = true) (hexchanges : s.exchanges s' = [e])
      (hlisted : x.Listed false result e) (hkept : ∀ id, s'.total id = s.total id) :
      Reports x last s s' n [.recalled x n]
  /-- None stands for an equal query: it is computed, and stands from then on. -/
  | computed (hlast : ∀ y m, last = some (y, m) → Value.same y.query x.query = false)
      (htallied : x.Tallied n (s.exchanges s')) (hstored : s'.total x.cache = (x.query, some n))
      (hkept : ∀ id, id ≠ x.cache → s'.total id = s.total id) :
      Reports x last s s' n [.counted x n]

end Plan

/-! ## What is recorded of a page -/

namespace Plan

variable {x : Plan} {s s' u : Session} {history : List Recorded}

/-- What a plan records changes a total only where it comes to compute one. -/
theorem finds_of_record {e : Recorded} (he : e ∈ x.record s) {id : CacheId} (h : e.Changes id) :
    x.IsPage ∧ (s.cache x.cache).countFor x.query = none ∧
      ∃ rows n u, x.prepared.tally.run.run s = (.ok (rows, n), u) := by
  unfold record at he
  split at he
  · rename_i hpage
    split at he
    · cases List.mem_singleton.mp he
      exact h.elim
    · rename_i hnone
      split at he
      · rename_i rows n htally
        exact ⟨hpage, hnone, rows, n, _, Prod.ext htally rfl⟩
      · cases he
  · cases he

/-- A page that succeeds reports its total in one of the two ways. -/
theorem reports_of_outcome (hs : s.Remembers history) (hplaced : x.cache.index < s.caches.length)
    (hpage : x.IsPage) {rows : List Row} {n : Int}
    (houtcome : x.prepared.outcome.run.run s = (.ok (.page rows n), u))
    (hissues : Issues (fun _ => False) u s') (hkeeps : KeepsTotals u s') :
    x.Reports (standing history x.cache) s s' n (x.record s) := by
  have hs' : s'.Remembers (history ++ x.record s) := by
    have hu := remembers_outcome hs hplaced
    rw [houtcome] at hu
    exact hu.keeps hkeeps
  have hfound := hs.countFor_eq x.cache x.query
  rcases record_of_outcome houtcome with hrecord | ⟨hrecord, hn⟩
  · have hchanges : (Recorded.counted x n).Changes x.cache := rfl
    obtain ⟨-, hn, -⟩ := finds_of_record (hrecord ▸ List.mem_singleton_self _) hchanges
    obtain ⟨hproceeds, htallied⟩ := tallied_of_outcome hpage hn houtcome
    rw [hrecord] at hs' ⊢
    rw [← hproceeds.exchanges_quiet hissues] at htallied
    refine .computed (fun y m hlast => ?_) htallied ?_ fun id hid => ?_
    · rw [hn, hlast] at hfound
      by_contra hquery
      rw [Bool.not_eq_false] at hquery
      cases hfound.trans (if_pos hquery)
    · rw [hs'.total, standing_append]
      exact congrArg asRemembered (if_pos rfl)
    · exact hs.total_eq hs' fun e he => List.mem_singleton.mp he ▸ Ne.symm hid
  · rw [hrecord] at hs' ⊢
    rw [hn] at hfound
    obtain ⟨y, hstanding, hquery⟩ := standing_of_found hfound.symm
    obtain ⟨hproceeds, e, result, hexchanges, hlisted⟩ := listed_of_recalled hpage hn houtcome
    refine .again hstanding hquery ((hproceeds.exchanges_quiet hissues).trans hexchanges) hlisted ?_
    exact fun id => hs.total_eq hs' fun e he => List.mem_singleton.mp he ▸ not_false

end Plan

/-- What a command records changes a total only where that is to be forgotten or a page has it
computed. -/
theorem Patched.finds_of_record {p : Patched} {s : Session} {e : Recorded} (he : e ∈ p.record s)
    {id : CacheId} (h : e.Changes id) : p.refresh = true ∨ p.AsksPage ∧ ∃ x n, p.Finds s x n := by
  unfold record at he
  split at he
  · cases he
  · rename_i shared d t hannounced
    rcases List.mem_append.mp he with he | he
    · unfold forgets at he
      split at he
      · rename_i hrefresh
        exact .inl hrefresh
      · cases he
    · split at he
      · cases he
      · rename_i x u hplanned
        obtain ⟨hpage, hnone, rows, n, v, htally⟩ := Plan.finds_of_record he h
        have hplan : (plan p).run.run s = (.ok x, u) := by
          unfold plan
          rw [run_bind, hannounced]
          exact hplanned
        have hasks := (isPage_iff_of_planned hplanned).mp hpage
        exact .inr ⟨hasks, x, n, u, v, rows, hplan, hnone, htally⟩

/-- What a page comes to compute is recorded. -/
theorem Patched.mem_record_of_finds {p : Patched} {s : Session} {x : Plan} {n : Int}
    (hasks : p.AsksPage) (h : p.Finds s x n) : .counted x n ∈ p.record s := by
  obtain ⟨t, u, rows, hplan, hnone, htally⟩ := h
  obtain ⟨⟨shared, d⟩, t₀, hannounced, hplanned⟩ := ok_of_run_bind hplan
  rw [record_of_planned hannounced hplanned, Plan.record,
    if_pos ((isPage_iff_of_planned hplanned).mpr hasks), hnone]
  dsimp only
  rw [htally]
  exact List.mem_append_right _ (List.mem_singleton_self _)

/-! ## Runs -/

namespace Run

variable {s₀ s s' : Session} {history : List Recorded}

/-- Along a run, a page that succeeds takes the total that stands, without asking for one, where
that was computed for an equal query; everywhere else it computes one, which stands from then on. A
command that finds no total and forgets none leaves all of them as they are. -/
theorem total_again_or_computed (hs₀ : s₀.Uncounted) (hrun : Run s₀ history s) (p : Patched) :
    (p.AsksPage → ∀ o s', (executePatched p).run.run s = (.ok o, s') →
      ∃ rows n x t record, o = .page rows n ∧ (plan p).run.run s = (.ok x, t) ∧
        Issues IsIntrospection s t ∧ t.Remembers (history ++ p.forgets x.cache) ∧
        p.record s = p.forgets x.cache ++ record ∧
        x.Reports (standing (history ++ p.forgets x.cache) x.cache) t s' n record) ∧
    (p.refresh = false → (p.AsksPage → ∀ x n, ¬ p.Finds s x n) →
      ∀ id, ((executePatched p).run.run s).2.total id = s.total id) := by
  have hs := hrun.remembers hs₀
  constructor
  · intro hasks o s' hrun
    obtain ⟨x, t, u, hplan, houtcome, hissues, hkeeps⟩ := outcome_of_executePatched hrun
    obtain ⟨⟨shared, d⟩, t₀, hannounced, hplanned⟩ := ok_of_run_bind hplan
    have hpage := (isPage_iff_of_planned hplanned).mpr hasks
    obtain ⟨rows, n, rfl⟩ := hpage.page_of_outcome houtcome
    have hintrospection : Issues IsIntrospection s t := by
      have hwithin := within_plan (issues_stepEffects IsIntrospection).callEffects
        (fun _ h => h) p s
      rwa [hplan] at hwithin
    have ht := hs.planned hannounced
    rw [hplanned, ← cache_of_planned hplanned] at ht
    have hrecord := record_of_planned hannounced hplanned
    rw [← cache_of_planned hplanned] at hrecord
    exact ⟨rows, n, x, t, x.record t, rfl, hplan, hintrospection, ht.1, hrecord,
      Plan.reports_of_outcome ht.1 ht.2 hpage houtcome hissues hkeeps⟩
  · intro hrefresh hnone id
    refine hs.total_eq (hs.executePatched p) fun e he hchanges => ?_
    rcases Patched.finds_of_record he hchanges with hforgets | ⟨hasks, x, n, hfinds⟩
    · rw [hrefresh] at hforgets
      cases hforgets
    · exact hnone hasks x n hfinds

end Run

/-! ## A page that is refused -/

/-- The first page of the people of an age. -/
def Patched.peopleOf (age : Int) : Patched :=
  .ofCommand { Patched.people.command with query := [("age", .int age)] }

/-- The first page of the people who are thirty, whose total is to be forgotten. -/
def Patched.refreshedPeople : Patched :=
  .ofCommand { Patched.people.command with refresh := true }

/-- The same page, asked for with a copy of their expression. -/
def Patched.peopleCopy : Patched :=
  .ofCommand { Patched.people.command with target := .shared ⟨1⟩ }

namespace Session

/-- A database that answers with a page and its total, refuses a statement, and answers as
before. -/
def refusingDatabase : Session :=
  let answers := peopleDatabase.server.replies.take 2
  { peopleDatabase with server := ⟨0, [], answers ++ [.refused "server has gone away"] ++ answers⟩ }

/-- The people who are thirty have been listed. -/
def peopleListed : Session :=
  ((executePatched .people).run.run ((share .people).run refusingDatabase).2).2

/-- A page of the people of another age has been refused behind that. -/
def peopleRefused : Session :=
  ((executePatched (.peopleOf 31)).run.run peopleListed).2

/-- The people who are thirty have been listed, and their next page, with which the total was to be
forgotten, has been refused. -/
def refreshRefused : Session :=
  ((executePatched .refreshedPeople).run.run peopleListed).2

/-- Their expression has been copied behind that. -/
def refusedCopied : Session :=
  ((addShared (.ofExpression .people) ⟨0⟩).run refreshRefused).2

theorem uncounted_refusingDatabase : refusingDatabase.Uncounted :=
  ⟨fun _ => rfl, fun _ he => by cases he⟩

end Session

namespace Run

theorem exists_peopleListed : ∃ history, Run refusingDatabase history peopleListed :=
  ⟨_, (Run.start.share .people).command .people⟩

/-- A page of another age is refused, which leaves the total as it is; so the next page takes it
again. -/
theorem total_again_people :
    ∃ history rows s' x t, refusingDatabase.Uncounted ∧
      Run refusingDatabase history peopleRefused ∧
      (∀ id, peopleRefused.total id = peopleListed.total id) ∧
      (executePatched .people).run.run peopleRefused = (.ok (.page rows 3), s') ∧
      (plan .people).run.run peopleRefused = (.ok x, t) ∧
      x.Reports (standing history x.cache) t s' 3 [.recalled x 3] := by
  obtain ⟨listed, hlisted⟩ := exists_peopleListed
  have hrefused : Run refusingDatabase _ peopleRefused := hlisted.command (.peopleOf 31)
  obtain ⟨rows, hpage⟩ := exists_page_of_total? (n := 3)
    (r := (executePatched .people).run.run peopleRefused) (by decide +kernel)
  have hnothing : ((Patched.peopleOf 31).record peopleListed).length = 0 := by decide +kernel
  have hasked : (Patched.people.record peopleRefused).map Recorded.asked =
      [some (false, ⟨0⟩, 3, "SELECT COUNT(*) AS `ct` FROM `Person` WHERE `age` = %s")] := by
    decide +kernel
  have hkept := (total_again_or_computed uncounted_refusingDatabase hlisted (.peopleOf 31)).2 rfl
    fun hasks x n hfinds => by
      have hcounted := Patched.mem_record_of_finds hasks hfinds
      rw [List.eq_nil_of_length_eq_zero hnothing] at hcounted
      cases hcounted
  obtain ⟨rows', n, x, t, record, hrows, hplan, -, -, hrecord, hreports⟩ :=
    (total_again_or_computed uncounted_refusingDatabase hrefused .people).1 ⟨rfl, rfl⟩ _ _ hpage
  cases hrows
  have hforgets : Patched.people.forgets x.cache = [] := rfl
  rw [hforgets, List.nil_append] at hrecord
  rw [hforgets, List.append_nil] at hreports
  rw [hrecord] at hasked
  cases hreports with
  | again hlast hquery hexchanges hlisted' hkept' =>
    exact ⟨_, rows, _, x, t, uncounted_refusingDatabase, hrefused, hkept, hpage,
      hplan, .again hlast hquery hexchanges hlisted' hkept'⟩
  | computed hlast htallied hstored hkept' =>
    obtain ⟨x', t', hcounted, -⟩ := exists_of_asked hasked
    cases hcounted

/-- A page of an expression is refused, and the total is to be forgotten with it. Then it is gone for
a copy of the expression too: no total has been dropped with a command on the copy, the last one was
computed for the very query, and the page of the copy has it computed again. -/
theorem total_dropped_by_copy :
    (∃ history, Run refusingDatabase history refusedCopied) ∧
      refusedCopied.shared? ⟨1⟩ = some ⟨.ofExpression .people, ⟨0⟩⟩ ∧
      Value.same (peopleListed.total ⟨0⟩).1 (.map [("age", .int 30)]) = true ∧
      (peopleListed.total ⟨0⟩).2 = some 3 ∧
      ((executePatched .refreshedPeople).run.run peopleListed).1.toOption.isNone = true ∧
      (peopleListed.exchanges refreshRefused).map (fun e => e.statement.text?) =
        [some "SELECT `name` FROM `Person` WHERE `age` = %s LIMIT 0, 20"] ∧
      (refusedCopied.total ⟨0⟩).2 = none ∧
      ((executePatched .peopleCopy).run.run refusedCopied).1.toOption.bind Outcome.total? = some 3 ∧
      (refusedCopied.exchanges ((executePatched .peopleCopy).run.run refusedCopied).2).map
          (fun e => e.statement.text?) =
        [some "SELECT `name` FROM `Person` WHERE `age` = %s LIMIT 0, 20",
          some "SELECT COUNT(*) AS `ct` FROM `Person` WHERE `age` = %s"] := by
  obtain ⟨history, hlisted⟩ := exists_peopleListed
  have hrefused : Run refusingDatabase _ refreshRefused := hlisted.command .refreshedPeople
  have hcopy : (Draft.ofExpression .people).derive (.map []) = .ok (.ofExpression .people) := rfl
  have hcopied : Run refusingDatabase _ refusedCopied :=
    hrefused.derive ⟨0⟩ (x := ⟨.ofExpression .people, ⟨0⟩⟩) rfl hcopy
  exact ⟨⟨_, hcopied⟩, rfl, by decide +kernel⟩

end Run

end TableOps
