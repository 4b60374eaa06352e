import Mathlib.Data.List.Induction
import TableOps.Session.State

/-!
# What has happened to the names of databases

A name belongs to the database that it was given to last, until all names are forgotten. A database
is closed down when another one takes over a name that belongs to it, when all names are forgotten
while it has one, and when that is asked for.

* `NameFact` — what can happen; a history is a list of facts, the first one first.
* `NameHistory.ownerOf`, `NameHistory.firstOf` — the owner of a name and the first name, behind a
  history.
* `NameHistory.ShutDown` — the databases that some fact of a history closed down.
* `NameHistory.isSome_firstOf`, `NameHistory.owned_of_firstOf` — there is a first name when some
  name has an owner, and then it has one itself.
* `NameHistory.giving` — databases that are given names one after another;
  `NameHistory.not_shutDown_giving_iff`, `NameHistory.ownerOf_giving`, what becomes of them.
-/

namespace TableOps

/-- What can happen to the names of databases. -/
inductive NameFact where
  /-- A name is given to a database. -/
  | named (name : String) (id : DatabaseId)
  /-- All names are forgotten, and the databases that had one are closed down. -/
  | cleared
  /-- A database is closed down, and keeps its names. -/
  | closed (id : DatabaseId)
  deriving DecidableEq, Repr

namespace NameFact

/-- The owner of a name behind a fact. -/
def owner (name : String) (last : Option DatabaseId) : NameFact → Option DatabaseId
  | .named given id => if given = name then some id else last
  | .cleared => none
  | .closed _ => last

/-- The first name that was given, behind a fact. -/
def first (last : Option String) : NameFact → Option String
  | .named given _ => last.or (some given)
  | .cleared => none
  | .closed _ => last

end NameFact

namespace NameHistory

variable {history : List NameFact} {fact : NameFact} {name : String} {id : DatabaseId}

/-- The database that a name belongs to. -/
def ownerOf (history : List NameFact) (name : String) : Option DatabaseId :=
  history.foldl (NameFact.owner name) none

/-- The first name that was given since all names were forgotten last. -/
def firstOf (history : List NameFact) : Option String :=
  history.foldl NameFact.first none

/-- A fact closes a database down, behind a history. -/
def Closes (history : List NameFact) (fact : NameFact) (id : DatabaseId) : Prop :=
  match fact with
  | .named name taker => ownerOf history name = some id ∧ taker ≠ id
  | .cleared => ∃ name, ownerOf history name = some id
  | .closed other => other = id

/-- One of the facts of a history closed a database down. -/
def ShutDown (history : List NameFact) (id : DatabaseId) : Prop :=
  ∃ before fact after, history = before ++ fact :: after ∧ Closes before fact id

/-- What was closed down stays so. -/
theorem ShutDown.append (h : ShutDown history id) (more : List NameFact) :
    ShutDown (history ++ more) id := by
  obtain ⟨before, fact, after, rfl, hcloses⟩ := h
  exact ⟨before, fact, after ++ more, by simp, hcloses⟩

/-! ## One more fact -/

theorem ownerOf_append_fact (history : List NameFact) (fact : NameFact) (name : String) :
    ownerOf (history ++ [fact]) name = fact.owner name (ownerOf history name) :=
  List.foldl_append

theorem firstOf_append_fact (history : List NameFact) (fact : NameFact) :
    firstOf (history ++ [fact]) = fact.first (firstOf history) :=
  List.foldl_append

theorem not_shutDown_nil : ¬ ShutDown [] id := by
  rintro ⟨before, fact, after, h, -⟩
  exact List.append_ne_nil_of_right_ne_nil before (List.cons_ne_nil fact after) h.symm

/-- Behind one more fact those are closed down that were so before, and those that it closes. -/
theorem shutDown_append_fact :
    ShutDown (history ++ [fact]) id ↔ ShutDown history id ∨ Closes history fact id := by
  constructor
  · rintro ⟨before, fact', after, h, hcloses⟩
    rcases List.eq_nil_or_concat after with rfl | ⟨after', last, rfl⟩
    · obtain ⟨rfl, hlast⟩ := List.append_inj' h rfl
      cases hlast
      exact Or.inr hcloses
    · have hsplit : history ++ [fact] = (before ++ fact' :: after') ++ [last] := by simpa using h
      exact Or.inl ⟨before, fact', after', (List.append_inj' hsplit rfl).1, hcloses⟩
  · rintro (⟨before, fact', after, rfl, hcloses⟩ | hcloses)
    · exact ⟨before, fact', after ++ [fact], by simp, hcloses⟩
    · exact ⟨history, fact, [], rfl, hcloses⟩

/-! ## The first name -/

/-- There is a first name when some name has an owner. -/
theorem isSome_firstOf (history : List NameFact) :
    (firstOf history).isSome = true ↔ ∃ name, (ownerOf history name).isSome = true := by
  induction history using List.reverseRecOn with
  | nil => simp [firstOf, ownerOf]
  | append_singleton history fact ih =>
    simp only [firstOf_append_fact, ownerOf_append_fact]
    cases fact with
    | named given id =>
      refine iff_of_true (by simp [NameFact.first]) ⟨given, ?_⟩
      rw [NameFact.owner, if_pos rfl]
      rfl
    | cleared => simp [NameFact.first, NameFact.owner]
    | closed id => exact ih

/-- Names given in a row: the first of them counts if none was given before. -/
theorem firstOf_append_named (history : List NameFact) (name : String) (names : List String)
    (id : DatabaseId) :
    firstOf (history ++ (name :: names).map (.named · id)) = (firstOf history).or (some name) := by
  induction names using List.reverseRecOn with
  | nil => exact firstOf_append_fact history _
  | append_singleton names last ih =>
    have hsplit : history ++ (name :: (names ++ [last])).map (NameFact.named · id) =
        history ++ (name :: names).map (NameFact.named · id) ++ [.named last id] := by simp
    rw [hsplit, firstOf_append_fact, ih, NameFact.first, Option.or_assoc]
    rfl

/-- The first name has an owner. -/
theorem owned_of_firstOf (h : firstOf history = some name) :
    (ownerOf history name).isSome = true := by
  induction history using List.reverseRecOn generalizing name with
  | nil => cases h
  | append_singleton history fact ih =>
    rw [firstOf_append_fact] at h
    rw [ownerOf_append_fact]
    cases fact with
    | named given id =>
      by_cases hgiven : given = name
      · rw [NameFact.owner, if_pos hgiven]
        rfl
      · rw [NameFact.owner, if_neg hgiven]
        refine ih ?_
        -- the name was there before, since it is not the one that is given
        cases hfirst : firstOf history with
        | none =>
          rw [hfirst] at h
          exact absurd (Option.some.inj h) hgiven
        | some first =>
          rw [hfirst] at h
          exact h
    | cleared => cases h
    | closed id => exact ih h

/-! ## Names given in a row -/

theorem ownerOf_append_named (history : List NameFact) (names : List String) (id : DatabaseId)
    (name : String) :
    ownerOf (history ++ names.map (.named · id)) name =
      if name ∈ names then some id else ownerOf history name := by
  induction names using List.reverseRecOn with
  | nil => simp
  | append_singleton names last ih =>
    rw [List.map_append, List.map_singleton, ← List.append_assoc, ownerOf_append_fact, ih,
      NameFact.owner]
    by_cases hlast : last = name
    · simp [hlast]
    · simp [hlast, Ne.symm hlast]

/-- Names given to one database close the other ones down that they belonged to. -/
theorem shutDown_append_named {names : List String} {taker : DatabaseId} :
    ShutDown (history ++ names.map (.named · taker)) id ↔
      ShutDown history id ∨ taker ≠ id ∧ ∃ name ∈ names, ownerOf history name = some id := by
  induction names using List.reverseRecOn with
  | nil => simp
  | append_singleton names last ih =>
    rw [List.map_append, List.map_singleton, ← List.append_assoc, shutDown_append_fact, ih, Closes,
      ownerOf_append_named, or_assoc]
    refine or_congr_right ?_
    by_cases hlast : last ∈ names
    · -- the name has the same owner already
      rw [if_pos hlast]
      constructor
      · rintro (⟨hne, name, hname, howner⟩ | ⟨hsame, hne⟩)
        · exact ⟨hne, name, List.mem_append_left _ hname, howner⟩
        · exact absurd (Option.some.inj hsame) hne
      · rintro ⟨hne, name, hname, howner⟩
        rcases List.mem_append.mp hname with hname | hname
        · exact Or.inl ⟨hne, name, hname, howner⟩
        · exact Or.inl ⟨hne, last, hlast, List.mem_singleton.mp hname ▸ howner⟩
    · rw [if_neg hlast]
      constructor
      · rintro (⟨hne, name, hname, howner⟩ | ⟨howner, hne⟩)
        · exact ⟨hne, name, List.mem_append_left _ hname, howner⟩
        · exact ⟨hne, last, List.mem_append_right _ (List.mem_singleton_self last), howner⟩
      · rintro ⟨hne, name, hname, howner⟩
        rcases List.mem_append.mp hname with hname | hname
        · exact Or.inl ⟨hne, name, hname, howner⟩
        · exact Or.inr ⟨List.mem_singleton.mp hname ▸ howner, hne⟩

/-- The facts of databases that are given names one after another. -/
def giving (given : List (DatabaseId × List String)) : List NameFact :=
  given.flatMap fun g => g.2.map (.named · g.1)

variable {given : List (DatabaseId × List String)}

theorem giving_append_singleton (given : List (DatabaseId × List String))
    (last : DatabaseId × List String) :
    giving (given ++ [last]) = giving given ++ last.2.map (.named · last.1) := by
  simp [giving]

/-- The first name stays when more are given. -/
theorem firstOf_giving_of_some (h : firstOf history = some name) :
    firstOf (history ++ giving given) = some name := by
  induction given using List.reverseRecOn with
  | nil =>
    rw [giving, List.flatMap_nil, List.append_nil]
    exact h
  | append_singleton given last ih =>
    rw [giving_append_singleton, ← List.append_assoc]
    cases last.2 with
    | nil =>
      rw [List.map_nil, List.append_nil]
      exact ih
    | cons first rest =>
      rw [firstOf_append_named, ih]
      rfl

/-- When no name had an owner before, those that are given belong to one that they are given to. -/
theorem mem_of_ownerOf_giving (hnone : ∀ name, ownerOf history name = none)
    (h : ownerOf (history ++ giving given) name = some id) :
    ∃ g ∈ given, g.1 = id ∧ name ∈ g.2 := by
  induction given using List.reverseRecOn with
  | nil =>
    rw [giving, List.flatMap_nil, List.append_nil, hnone] at h
    cases h
  | append_singleton given last ih =>
    rw [giving_append_singleton, ← List.append_assoc, ownerOf_append_named] at h
    split at h
    · rename_i hname
      exact ⟨last, List.mem_append_right _ (List.mem_singleton_self last), Option.some.inj h, hname⟩
    · obtain ⟨g, hg, hid, hname⟩ := ih h
      exact ⟨g, List.mem_append_left _ hg, hid, hname⟩

/-- A name that is given has an owner. -/
theorem owned_of_mem_giving {g : DatabaseId × List String} (hg : g ∈ given) (hname : name ∈ g.2) :
    ∃ id, ownerOf (history ++ giving given) name = some id := by
  induction given using List.reverseRecOn with
  | nil => cases hg
  | append_singleton given last ih =>
    rw [giving_append_singleton, ← List.append_assoc, ownerOf_append_named]
    split
    · exact ⟨_, rfl⟩
    · rename_i hlast
      rcases List.mem_append.mp hg with hg | hg
      · exact ih hg
      · exact absurd (List.mem_singleton.mp hg ▸ hname) hlast

/-- When no name is given twice, all that are given names have them. -/
theorem ownerOf_giving (hdisjoint : given.Pairwise fun g g' => List.Disjoint g.2 g'.2)
    {g : DatabaseId × List String} (hg : g ∈ given) (hname : name ∈ g.2) :
    ownerOf (history ++ giving given) name = some g.1 := by
  induction given using List.reverseRecOn with
  | nil => cases hg
  | append_singleton given last ih =>
    obtain ⟨hgiven, -, hlast⟩ := List.pairwise_append.mp hdisjoint
    rw [giving_append_singleton, ← List.append_assoc, ownerOf_append_named]
    rcases List.mem_append.mp hg with hg | hg
    · have hother := hlast g hg last (List.mem_singleton_self last)
      rw [if_neg (hother hname)]
      exact ih hgiven hg
    · rw [List.mem_singleton.mp hg] at hname ⊢
      rw [if_pos hname]

/-- Only those are closed down that are given names themselves. -/
theorem mem_of_shutDown_giving (hnone : ∀ name, ownerOf history name = none)
    (h : ShutDown (history ++ giving given) id) : ShutDown history id ∨ ∃ g ∈ given, g.1 = id := by
  induction given using List.reverseRecOn with
  | nil =>
    rw [giving, List.flatMap_nil, List.append_nil] at h
    exact Or.inl h
  | append_singleton given last ih =>
    rw [giving_append_singleton, ← List.append_assoc, shutDown_append_named] at h
    rcases h with h | ⟨-, name, -, howner⟩
    · exact (ih h).imp_right fun ⟨g, hg, hid⟩ => ⟨g, List.mem_append_left _ hg, hid⟩
    · obtain ⟨g, hg, hid, -⟩ := mem_of_ownerOf_giving hnone howner
      exact Or.inr ⟨g, List.mem_append_left _ hg, hid⟩

/-- Databases that are given names one after another all stay open exactly when no name is given
twice. -/
theorem not_shutDown_giving_iff (hnone : ∀ name, ownerOf history name = none)
    (hfresh : ∀ g ∈ given, ¬ ShutDown history g.1) (hnodup : (given.map Prod.fst).Nodup) :
    (∀ g ∈ given, ¬ ShutDown (history ++ giving given) g.1) ↔
      given.Pairwise fun g g' => List.Disjoint g.2 g'.2 := by
  induction given using List.reverseRecOn with
  | nil => simp
  | append_singleton given last ih =>
    rw [List.forall_mem_append] at hfresh
    rw [List.map_append, List.nodup_append] at hnodup
    obtain ⟨hnodup, -, hlast⟩ := hnodup
    have hne : ∀ g ∈ given, last.1 ≠ g.1 := fun g hg =>
      (hlast _ (List.mem_map_of_mem hg) _ (List.mem_singleton_self _)).symm
    -- the last one is new, so that nothing can have closed it down
    have hopen : ¬ ShutDown (history ++ giving given) last.1 := by
      intro h
      rcases mem_of_shutDown_giving hnone h with h | ⟨g, hg, hid⟩
      · exact hfresh.2 last (List.mem_singleton_self last) h
      · exact hne g hg hid.symm
    rw [List.pairwise_append, ← ih hfresh.1 hnodup, giving_append_singleton, ← List.append_assoc]
    simp only [shutDown_append_named, not_or, List.forall_mem_append, List.mem_singleton,
      forall_eq, List.pairwise_singleton, true_and]
    constructor
    · rintro ⟨hgiven, -⟩
      refine ⟨fun g hg => (hgiven g hg).1, fun g hg name hname hname' => ?_⟩
      -- the owner of a name that is given again is one of those before, and is closed down
      obtain ⟨id, howner⟩ : ∃ id, ownerOf (history ++ giving given) name = some id :=
        owned_of_mem_giving hg hname
      obtain ⟨g', hg', rfl, -⟩ := mem_of_ownerOf_giving hnone howner
      exact (hgiven g' hg').2 ⟨hne g' hg', name, hname', howner⟩
    · rintro ⟨hgiven, hdisjoint⟩
      refine ⟨fun g hg => ⟨hgiven g hg, ?_⟩, hopen, fun h => h.1 rfl⟩
      rintro ⟨-, name, hname, howner⟩
      obtain ⟨g', hg', hid, hname'⟩ := mem_of_ownerOf_giving hnone howner
      exact hdisjoint g' hg' hname' hname

end NameHistory

end TableOps
