import TableOps.Proofs.Session.RegisteredNames

/-!
# Configurations

A configuration replaces the registered databases. It is read as a whole before anything happens.
From then on there is no way back: the databases that were registered are closed down, and the new
ones are built and registered one after another, each of which may fail, and may take over a name of
those before it.

* `Session.Installed` — databases were added and registered one after another.
* `Session.installed_installAll` — what installing leads to, whether it fails or not.
* `Session.SameResolved` — the same names lead to the same databases, as open as they were.

Main statement: `Session.configure_outcome`, when a configuration that fails leaves everything as it
was, and when the databases of one that succeeds are all open and registered.
-/

namespace TableOps

open NameHistory

namespace Session

/-! ## Installing databases -/

/-- Databases were added, and each was registered under some names. -/
structure Installed (s : Session) (history : List NameFact) (s' : Session)
    (given : List (DatabaseId × List String)) : Prop where
  run : NamingRun s' (history ++ giving given)
  added : ∀ g ∈ given, s.databases.length ≤ g.1.index ∧ g.1.index < s'.databases.length
  nodup : (given.map Prod.fst).Nodup
  length : s.databases.length ≤ s'.databases.length
  name : ∀ id : DatabaseId, id.index < s.databases.length →
    (s'.database id).name = (s.database id).name

/-- The session in which a new database was added and registered, and that was noted. -/
def withInstalled (d : Database) (aliasName : Option String) (s : Session) : Session :=
  ((note .info .settings
    ("Configured database `" ++ d.name ++ "` (" ++ d.dialect.engine.name ++ ")")).run
      ((install d aliasName).run s).2).2

namespace Installed

variable {s t u : Session} {history : List NameFact} {given rest : List (DatabaseId × List String)}

theorem keep (run : NamingRun s history) (hst : KeepsNames s t) : Installed s history t [] where
  run := by
    rw [giving, List.flatMap_nil, List.append_nil]
    exact run.aside hst
  added _ hg := by cases hg
  nodup := List.nodup_nil
  length := Nat.le_of_eq hst.length.symm
  name id _ := hst.name id

theorem trans (hst : Installed s history t given)
    (htu : Installed t (history ++ giving given) u rest) :
    Installed s history u (given ++ rest) where
  run := by
    rw [giving, List.flatMap_append, ← List.append_assoc]
    exact htu.run
  added g hg := by
    have hlength := htu.length
    have hlength' := hst.length
    rcases List.mem_append.mp hg with hg | hg
    · obtain ⟨hlow, hhigh⟩ := hst.added g hg
      omega
    · obtain ⟨hlow, hhigh⟩ := htu.added g hg
      omega
  nodup := by
    rw [List.map_append, List.nodup_append]
    refine ⟨hst.nodup, htu.nodup, fun id hid id' hid' => ?_⟩
    obtain ⟨g, hg, rfl⟩ := List.mem_map.mp hid
    obtain ⟨g', hg', rfl⟩ := List.mem_map.mp hid'
    rintro hsame
    have hlow := (htu.added g' hg').1
    rw [← hsame] at hlow
    exact absurd (hst.added g hg).2 (Nat.not_lt.mpr hlow)
  length := Nat.le_trans hst.length htu.length
  name id hid := (htu.name id (Nat.lt_of_lt_of_le hid hst.length)).trans (hst.name id hid)

/-- A new database is added and registered. -/
theorem install (run : NamingRun s history) {d : Database} (hd : d.closed = false)
    (aliasName : Option String) :
    Installed s history (withInstalled d aliasName s)
      [(⟨s.databases.length⟩,
        (withInstalled d aliasName s).namesFor ⟨s.databases.length⟩ aliasName)] := by
  have hadded : ((addDatabase d).run s).2.databases = s.databases ++ [d] := rfl
  have hplaced : s.databases.length < ((addDatabase d).run s).2.databases.length := by
    rw [hadded, List.length_append, List.length_singleton]
    exact Nat.lt_succ_self _
  have hsame := sameDatabases_register ((addDatabase d).run s).2 ⟨s.databases.length⟩ aliasName
  have hnote := keepsNames_steps.note .info .settings
    ("Configured database `" ++ d.name ++ "` (" ++ d.dialect.engine.name ++ ")")
    ((Session.install d aliasName).run s).2
  have hlength : (withInstalled d aliasName s).databases.length =
      ((addDatabase d).run s).2.databases.length := hnote.length.trans hsame.length
  have hname : ∀ id, ((withInstalled d aliasName s).database id).name =
      (((addDatabase d).run s).2.database id).name :=
    fun id => (hnote.name id).trans (hsame.name id)
  exact
    { run := by
        have hregistered := (run.add hd).register ⟨s.databases.length⟩ hplaced aliasName
        rw [registering, namesFor, ← hname] at hregistered
        rw [giving, List.flatMap_singleton]
        exact hregistered.aside hnote
      added := by
        intro g hg
        rw [List.mem_singleton.mp hg, hlength]
        exact ⟨Nat.le_refl _, hplaced⟩
      nodup := by simp
      length := by
        rw [hlength]
        exact Nat.le_of_lt hplaced
      name := by
        intro id hid
        rw [hname, database, hadded, List.getD_eq_getElem?_getD,
          List.getElem?_append_left hid, ← List.getD_eq_getElem?_getD]
        rfl }

end Installed

/-- What the databases of a configuration are registered under, each with the names that it and its
settings give. -/
def registrations (s : Session) (ids : List DatabaseId) (settings : List Settings) :
    List (DatabaseId × List String) :=
  List.zipWith (fun id x => (id, s.namesFor id x.aliasName)) ids settings

/-- Installing the databases of some settings: the first one is built, added and registered, and
then the rest. -/
theorem run_installAll_cons (first : Settings) (rest : List Settings) (s : Session) :
    (installAll (first :: rest)).run.run s = match (build first).run.run s with
      | (.error f, t) => (.error f, t)
      | (.ok d, t) =>
        match (installAll rest).run.run (withInstalled d first.aliasName t) with
        | (.error f, u) => (.error f, u)
        | (.ok ids, u) => (.ok (⟨t.databases.length⟩ :: ids), u) := by
  rw [installAll, run_bind]
  obtain ⟨r, t⟩ := (build first).run.run s
  cases r with
  | error f => rfl
  | ok d =>
    -- installing and making a note cannot fail
    show (installAll rest >>= fun ids => pure ((⟨t.databases.length⟩ : DatabaseId) :: ids)).run.run
      (withInstalled d first.aliasName t) = _
    rw [run_bind]
    dsimp only
    split <;> rename_i hrest <;> rw [hrest]
    · rfl

/-- Installing goes on behind the first database, when that one is built. -/
theorem run_installAll_of_built {first : Settings} {rest : List Settings} {s t u : Session}
    {d : Database} (hbuild : (build first).run.run s = (.ok d, t))
    (hinstall : withInstalled d first.aliasName t = u) :
    (installAll (first :: rest)).run.run s = match (installAll rest).run.run u with
      | (.error f, v) => (.error f, v)
      | (.ok ids, v) => (.ok (⟨t.databases.length⟩ :: ids), v) := by
  rw [run_installAll_cons, hbuild]
  dsimp only
  rw [hinstall]

/-- However far the installing of some settings comes, it leads to databases that were added and
registered one after another. If it succeeds, these are the ones that it yields. -/
theorem installed_installAll {s : Session} {history : List NameFact} (run : NamingRun s history)
    (settings : List Settings) :
    ∃ given, Installed s history ((installAll settings).run.run s).2 given ∧
      ∀ ids s', (installAll settings).run.run s = (.ok ids, s') →
        ids.length = settings.length ∧ given = s'.registrations ids settings := by
  induction settings generalizing s history with
  | nil =>
    refine ⟨[], .keep run (chained_keepsNames.refl s), fun ids s' h => ?_⟩
    cases h
    exact ⟨rfl, rfl⟩
  | cons first rest ih =>
    have hbuild : KeepsNames s ((build first).run.run s).2 :=
      keepsNames_steps.callEffects.build first s
    rw [run_installAll_cons]
    cases hrun : (build first).run.run s with
    | mk r t =>
      rw [hrun] at hbuild
      have hbuilt := Installed.keep run hbuild
      cases r with
      | error f => exact ⟨[], hbuilt, fun ids s' h => by cases h⟩
      | ok d =>
        have hd : d.closed = false := by
          obtain ⟨name, dialect, origin, o, rfl⟩ := exists_fresh_of_build hrun
          rfl
        have hinstalled := hbuilt.trans (.install hbuilt.run hd first.aliasName)
        have hplaced := (hinstalled.added _ (List.mem_append_right _ List.mem_cons_self)).2
        obtain ⟨given, hrest, hok⟩ := ih hinstalled.run
        have hall := hinstalled.trans hrest
        dsimp only
        cases hrestRun : (installAll rest).run.run (withInstalled d first.aliasName t) with
        | mk r u =>
          rw [hrestRun] at hrest hok hall
          cases r with
          | error f => exact ⟨_, hall, fun ids s' h => by cases h⟩
          | ok ids =>
            refine ⟨_, hall, fun ids' s' h => ?_⟩
            cases h
            obtain ⟨hlength, rfl⟩ := hok ids u rfl
            refine ⟨congrArg Nat.succ hlength, ?_⟩
            -- later databases do not change the name of this one
            have hname := hrest.name _ hplaced
            rw [namesFor, ← hname]
            rfl

/-! ## Replacing the registered databases -/

/-- A configuration is read, and then the registered databases are closed down and the new ones
installed. -/
theorem run_configure (source : Value) (s : Session) :
    (configure source).run.run s = match loadSettings s.files source with
      | .error f => (.error f, s)
      | .ok settings => (installAll settings).run.run (closeAll.run s).2 := by
  unfold configure
  show (SessionM.ofExcept (loadSettings s.files source) >>= fun settings =>
    SessionM.lift closeAll >>= fun _ => installAll settings).run.run s = _
  rw [run_bind]
  cases loadSettings s.files source <;> rfl

theorem length_closeAll (s : Session) :
    (closeAll.run s).2.databases.length = s.databases.length :=
  (closing_forM_closeDown (s.registry.databases.map Prod.snd).eraseDups s).length

/-- The same names lead to the same databases as before, and these are as open as they were. -/
structure SameResolved (s s' : Session) : Prop where
  leads : ∀ name id, ((lookup name).run.run s').1 = .ok id ↔ ((lookup name).run.run s).1 = .ok id
  closed : ∀ name id, ((lookup name).run.run s).1 = .ok id →
    (s'.database id).closed = (s.database id).closed

/-- Nothing is found in an empty registry. -/
theorem not_lookup_of_empty {s : Session} (h : s.registry.databases = []) (name : Option String)
    (id : DatabaseId) : ((lookup name).run.run s).1 ≠ .ok id := by
  rw [run_lookup, h]
  cases (Join.filled? name).or s.registry.default <;> exact fun heq => by cases heq

/-- Two sessions with empty registries resolve the same names. -/
theorem sameResolved_of_empty {s s' : Session} (h : s.registry.databases = [])
    (h' : s'.registry.databases = []) : SameResolved s s' where
  leads name id := iff_of_false (not_lookup_of_empty h' name id) (not_lookup_of_empty h name id)
  closed name id hid := absurd hid (not_lookup_of_empty h name id)

section

variable {s s' : Session} {history : List NameFact} {given : List (DatabaseId × List String)}

/-- No name has an owner when all are forgotten. -/
theorem ownerOf_cleared (history : List NameFact) (name : String) :
    ownerOf (history ++ [.cleared]) name = none :=
  ownerOf_append_fact history .cleared name

/-- What was registered before is closed down. -/
theorem closed_of_installed (run : NamingRun s history)
    (h : Installed (closeAll.run s).2 (history ++ [.cleared]) s' given) {name : String}
    {id : DatabaseId} (hid : s.registry.databases.get? name = some id) :
    (s'.database id).closed = true := by
  have howner := (run.named.owner name).symm.trans hid
  have hplaced : id.index < s'.databases.length :=
    Nat.lt_of_lt_of_le (run.named.placed name id howner) (length_closeAll s ▸ h.length)
  have hcloses : Closes history .cleared id := ⟨name, howner⟩
  rw [h.run.named.closed id hplaced]
  exact (shutDown_append_fact.mpr (Or.inr hcloses)).append _

/-- No database that is found was there before. -/
theorem length_le_of_lookup (h : Installed (closeAll.run s).2 (history ++ [.cleared]) s' given)
    {name : Option String} {id : DatabaseId} {t : Session}
    (hid : (lookup name).run.run s' = (.ok id, t)) : s.databases.length ≤ id.index := by
  obtain ⟨known, howner⟩ := h.run.exists_owned_of_lookup hid
  obtain ⟨g, hg, rfl, -⟩ := mem_of_ownerOf_giving (ownerOf_cleared history) howner
  rw [← length_closeAll s]
  exact (h.added g hg).1

/-- After databases were replaced, the same names lead to the same ones only if there were none and
are none. -/
theorem sameResolved_iff_of_installed (run : NamingRun s history)
    (h : Installed (closeAll.run s).2 (history ++ [.cleared]) s' given) :
    SameResolved s s' ↔ s.registry.databases = [] ∧ s'.registry.databases = [] := by
  constructor
  · intro hsame
    have hempty : s.registry.databases = [] := by
      by_contra hne
      -- the default name led to a database of before, and none of those is found any more
      obtain ⟨id, hid⟩ := run.exists_lookup_default hne
      obtain ⟨known, howner⟩ := run.exists_owned_of_lookup hid
      have hlead := (hsame.leads none id).mpr (congrArg Prod.fst hid)
      have hnew := length_le_of_lookup h (Prod.ext hlead rfl)
      exact absurd (run.named.placed known id howner) (Nat.not_lt.mpr hnew)
    refine ⟨hempty, ?_⟩
    by_contra hne
    obtain ⟨id, hid⟩ := h.run.exists_lookup_default hne
    exact not_lookup_of_empty hempty none id ((hsame.leads none id).mp (congrArg Prod.fst hid))
  · rintro ⟨hempty, hempty'⟩
    exact sameResolved_of_empty hempty hempty'

theorem map_fst_registrations (s : Session) {ids : List DatabaseId} {settings : List Settings}
    (h : ids.length = settings.length) : (s.registrations ids settings).map Prod.fst = ids := by
  induction ids generalizing settings with
  | nil => rfl
  | cons id ids ih =>
    cases settings with
    | nil => cases h
    | cons first rest => exact congrArg (id :: ·) (ih (Nat.succ.inj h))

/-- The installed databases are all open exactly when no name is given twice. -/
theorem open_iff_of_installed (run : NamingRun s history)
    (h : Installed (closeAll.run s).2 (history ++ [.cleared]) s' given) :
    (∀ g ∈ given, (s'.database g.1).closed = false) ↔
      given.Pairwise fun g g' => List.Disjoint g.2 g'.2 := by
  rw [← not_shutDown_giving_iff (ownerOf_cleared history) ?_ h.nodup]
  · refine forall₂_congr fun g hg => ?_
    rw [← h.run.named.closed g.1 (h.added g hg).2, Bool.not_eq_true]
  · intro g hg hshut
    exact absurd (run.closeAll.named.fresh g.1 hshut) (Nat.not_lt.mpr (h.added g hg).1)

/-- Then each of them has all its names. -/
theorem get?_of_installed (h : Installed (closeAll.run s).2 (history ++ [.cleared]) s' given)
    (hdisjoint : given.Pairwise fun g g' => List.Disjoint g.2 g'.2) {g : DatabaseId × List String}
    (hg : g ∈ given) {name : String} (hname : name ∈ g.2) :
    s'.registry.databases.get? name = some g.1 := by
  rw [h.run.named.owner]
  exact ownerOf_giving hdisjoint hg hname

/-- And the first one is the default. -/
theorem lookup_none_of_installed {id : DatabaseId} {first : String} {names : List String}
    {rest : List (DatabaseId × List String)}
    (h : Installed (closeAll.run s).2 (history ++ [.cleared]) s' ((id, first :: names) :: rest))
    (hdisjoint : ((id, first :: names) :: rest).Pairwise fun g g' => List.Disjoint g.2 g'.2) :
    (lookup none).run.run s' = (.ok id, s') := by
  have hfirst : firstOf (history ++ [.cleared] ++ giving ((id, first :: names) :: rest)) =
      some first := by
    have hsplit : giving ((id, first :: names) :: rest) =
        (first :: names).map (.named · id) ++ giving rest := by simp [giving]
    rw [hsplit, ← List.append_assoc]
    refine firstOf_giving_of_some ?_
    rw [firstOf_append_named, firstOf_append_fact]
    rfl
  refine h.run.lookup_iff.mpr ⟨rfl, ?_⟩
  rw [hfirst]
  exact ownerOf_giving hdisjoint List.mem_cons_self List.mem_cons_self

end

/-- A configuration that cannot be read changes nothing. If it fails later, the databases that were
registered are closed down, and the names lead where they did only if there were none and none has
been registered yet. If it succeeds, its databases are all open exactly when no two of them
are given the same name. Then each has all its names, and the first one is the default. -/
theorem configure_outcome {s : Session} {history : List NameFact} (run : NamingRun s history)
    (source : Value) :
    (∀ f, loadSettings s.files source = .error f →
        (configure source).run.run s = (.error f, s)) ∧
      ∀ settings, loadSettings s.files source = .ok settings →
        (∀ f s', (configure source).run.run s = (.error f, s') →
          (∀ name id, s.registry.databases.get? name = some id →
            (s'.database id).closed = true) ∧
          (SameResolved s s' ↔ s.registry.databases = [] ∧ s'.registry.databases = [])) ∧
        ∀ ids s', (configure source).run.run s = (.ok ids, s') →
          ids.length = settings.length ∧
          ((∀ id ∈ ids, (s'.database id).closed = false) ↔
            (s'.registrations ids settings).Pairwise fun g g' => List.Disjoint g.2 g'.2) ∧
          ((∀ id ∈ ids, (s'.database id).closed = false) →
            (∀ g ∈ s'.registrations ids settings, ∀ name ∈ g.2,
              s'.registry.databases.get? name = some g.1) ∧
            ∀ id, ids.head? = some id → (lookup none).run.run s' = (.ok id, s')) := by
  have hrun := run_configure source s
  refine ⟨fun f hload => ?_, fun settings hload => ?_⟩
  · rw [hrun, hload]
  · rw [hload] at hrun
    dsimp only at hrun
    -- however it ends, the names were forgotten and some databases installed
    obtain ⟨given, hinstalled, hok⟩ := installed_installAll run.closeAll settings
    rw [← hrun] at hinstalled hok
    refine ⟨fun f s' hfails => ?_, fun ids s' hyields => ?_⟩
    · rw [hfails] at hinstalled
      exact ⟨fun name id => closed_of_installed run hinstalled,
        sameResolved_iff_of_installed run hinstalled⟩
    · obtain ⟨hlength, rfl⟩ := hok ids s' hyields
      rw [hyields] at hinstalled
      have hids := map_fst_registrations s' hlength
      have hopen : (∀ id ∈ ids, (s'.database id).closed = false) ↔
          (s'.registrations ids settings).Pairwise fun g g' => List.Disjoint g.2 g'.2 := by
        rw [← open_iff_of_installed run hinstalled]
        nth_rewrite 1 [← hids]
        exact List.forall_mem_map
      refine ⟨hlength, hopen, fun hall => ?_⟩
      have hdisjoint := hopen.mp hall
      refine ⟨fun g hg name hname => get?_of_installed hinstalled hdisjoint hg hname, ?_⟩
      intro id hhead
      cases ids with
      | nil => cases hhead
      | cons first rest =>
        cases hhead
        cases settings with
        | nil => cases hlength
        | cons x xs => exact lookup_none_of_installed hinstalled hdisjoint

/-! ## Two configurations -/

/-- The database of a URL, as it is built. -/
private def built (name : String) : Database :=
  .fresh (some name) (.standard .mysql) (.url ("mysql://db/" ++ name)) ⟨none, none, 10, .null, none⟩

/-- The settings of a URL. -/
private def settingsOf (url : String) (aliasName : Option String) : Settings :=
  ⟨some url, "mysql", "localhost", none, none, none, none, aliasName, ⟨10, by decide⟩, none, none⟩

/-- A session with one database, which is registered. -/
private def registered : Session :=
  { empty .empty with databases := [built "old"], registry := ⟨[("old", ⟨0⟩)], some "old"⟩ }

private theorem namingRun_registered : NamingRun registered [.named "old" ⟨0⟩] :=
  ((NamingRun.start .empty).add (d := built "old") rfl).register ⟨0⟩ (by decide) none

/-- The session behind it when its database is closed down, others are added and all names are given
anew. -/
private def replaced (added : List Database) (registry : Registry) : Session :=
  { empty .empty with databases := { built "old" with closed := true } :: added, registry }

theorem configure_outcome_replaced :
    ∃ s', (configure (.list [.map [("url", .text "mysql://db/new")],
        .map [("url", .text "mysql://db/more"), ("alias", .text "spare")]])).run.run registered =
          (.ok [⟨1⟩, ⟨2⟩], s') ∧
      s'.registry.databases.get? "spare" = some ⟨2⟩ ∧ (lookup none).run.run s' = (.ok ⟨1⟩, s') := by
  have hload : loadSettings registered.files (.list [.map [("url", .text "mysql://db/new")],
      .map [("url", .text "mysql://db/more"), ("alias", .text "spare")]]) =
      .ok [settingsOf "mysql://db/new" none, settingsOf "mysql://db/more" (some "spare")] := rfl
  have hcleared : (closeAll.run registered).2 = replaced [] ⟨[], none⟩ := rfl
  have hrun := run_configure (.list [.map [("url", .text "mysql://db/new")],
    .map [("url", .text "mysql://db/more"), ("alias", .text "spare")]]) registered
  rw [hload] at hrun
  dsimp only at hrun
  rw [hcleared,
    run_installAll_of_built (d := built "new") (t := replaced [] ⟨[], none⟩)
      (u := replaced [built "new"] ⟨[("new", ⟨1⟩)], some "new"⟩) rfl rfl,
    run_installAll_of_built (d := built "more")
      (t := replaced [built "new"] ⟨[("new", ⟨1⟩)], some "new"⟩)
      (u := replaced [built "new", built "more"]
        ⟨[("new", ⟨1⟩), ("more", ⟨2⟩), ("spare", ⟨2⟩)], some "new"⟩) rfl rfl] at hrun
  have houtcome := ((configure_outcome namingRun_registered _).2 _ hload).2 _ _ hrun
  obtain ⟨hnames, hdefault⟩ := houtcome.2.2 fun id hid => by
    simp only [List.mem_cons, List.not_mem_nil, or_false] at hid
    rcases hid with rfl | rfl <;> rfl
  exact ⟨_, hrun, hnames _ (List.mem_cons_of_mem _ List.mem_cons_self) "spare" (by decide),
    hdefault _ rfl⟩

/-- A configuration whose second entry cannot be built closes the registered database down and
leaves its first entry in its place. One whose entries share an alias yields a default database that
is closed down. -/
theorem configure_not_restored :
    (∃ f s', (configure (.list [.map [("url", .text "mysql://db/new")],
          .map [("url", .text "oracle://db/x")]])).run.run registered = (.error f, s') ∧
        (registered.database ⟨0⟩).closed = false ∧ (s'.database ⟨0⟩).closed = true ∧
        (lookup none).run.run registered = (.ok ⟨0⟩, registered) ∧
        (lookup none).run.run s' = (.ok ⟨1⟩, s') ∧ s'.registry.databases.get? "old" = none) ∧
      ∃ s', (configure (.list
          [.map [("url", .text "mysql://db/new"), ("alias", .text "spare")],
            .map [("url", .text "mysql://db/more"), ("alias", .text "spare")]])).run.run
          registered = (.ok [⟨1⟩, ⟨2⟩], s') ∧
        (lookup none).run.run s' = (.ok ⟨1⟩, s') ∧ (s'.database ⟨1⟩).closed = true := by
  have hcleared : (closeAll.run registered).2 = replaced [] ⟨[], none⟩ := rfl
  constructor
  · have hload : loadSettings registered.files (.list [.map [("url", .text "mysql://db/new")],
        .map [("url", .text "oracle://db/x")]]) =
        .ok [settingsOf "mysql://db/new" none, settingsOf "oracle://db/x" none] := rfl
    rw [run_configure, hload]
    dsimp only
    rw [hcleared,
      run_installAll_of_built (d := built "new") (t := replaced [] ⟨[], none⟩)
        (u := replaced [built "new"] ⟨[("new", ⟨1⟩)], some "new"⟩) rfl rfl,
      run_installAll_cons]
    exact ⟨_, _, rfl, rfl, rfl, rfl, rfl, rfl⟩
  · have hload : loadSettings registered.files (.list
        [.map [("url", .text "mysql://db/new"), ("alias", .text "spare")],
          .map [("url", .text "mysql://db/more"), ("alias", .text "spare")]]) =
        .ok [settingsOf "mysql://db/new" (some "spare"),
          settingsOf "mysql://db/more" (some "spare")] := rfl
    rw [run_configure, hload]
    dsimp only
    rw [hcleared,
      run_installAll_of_built (d := built "new") (t := replaced [] ⟨[], none⟩)
        (u := replaced [built "new"] ⟨[("new", ⟨1⟩), ("spare", ⟨1⟩)], some "new"⟩) rfl rfl,
      run_installAll_of_built (d := built "more")
        (t := replaced [built "new"] ⟨[("new", ⟨1⟩), ("spare", ⟨1⟩)], some "new"⟩)
        (u := replaced [{ built "new" with closed := true }, built "more"]
          ⟨[("new", ⟨1⟩), ("spare", ⟨2⟩), ("more", ⟨2⟩)], some "new"⟩) rfl rfl]
    exact ⟨_, rfl, rfl, rfl⟩

end Session

end TableOps
