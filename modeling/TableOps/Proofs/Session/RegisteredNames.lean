import TableOps.Proofs.Session.KeptSchemas
import TableOps.Proofs.Session.NameHistory
import TableOps.Proofs.Session.WholeCalls

/-!
# Registered names

What the registry holds, and which databases are closed down, is read off from what has happened to
the names. A database may have several names. It is closed down as a whole when another one takes
one of them over, and the rest still lead to it.

* `Session.Closing` — a step that does nothing to databases and names but close some databases down;
  `Session.KeepsNames`, one that closes none.
* `Session.keepsNames_steps` — single steps elsewhere are of that kind.
* `Session.Named` — the session is as a history of names says.
* `Session.Named.register`, `Session.Named.closeAll`, … — what calls add to the history.
* `NamingRun` — sessions that are reached by such calls, with their history.

Main statement: `NamingRun.resolves_open_unless_shutDown`, every name that resolves leads to a
database that is open unless a fact of the history closed it down.
-/

namespace TableOps

open NameHistory

namespace Session

/-! ## Closing databases down -/

/-- Between two sessions nothing happens to databases and names, but that some databases are closed
down. -/
structure Closing (P : DatabaseId → Prop) (s s' : Session) : Prop where
  registry : s'.registry = s.registry
  length : s'.databases.length = s.databases.length
  name : ∀ id, (s'.database id).name = (s.database id).name
  closed : ∀ id, (s'.database id).closed = true ↔ (s.database id).closed = true ∨ P id

/-- Nothing happens to names, and no database is closed down. -/
def KeepsNames : Session → Session → Prop :=
  Closing fun _ => False

theorem KeepsNames.of_eq {s t : Session} (hdatabases : t.databases = s.databases)
    (hregistry : t.registry = s.registry) : KeepsNames s t where
  registry := hregistry
  length := by rw [hdatabases]
  name id := by rw [database, database, hdatabases]
  closed id := by rw [database, database, hdatabases, or_false]

namespace Closing

variable {P Q : DatabaseId → Prop} {s t u : Session}

theorem congr (h : Closing P s t) (hPQ : ∀ id, P id ↔ Q id) : Closing Q s t :=
  { h with closed := fun id => by rw [h.closed, hPQ] }

theorem trans (hst : Closing P s t) (htu : Closing Q t u) :
    Closing (fun id => P id ∨ Q id) s u where
  registry := htu.registry.trans hst.registry
  length := htu.length.trans hst.length
  name id := (htu.name id).trans (hst.name id)
  closed id := by rw [htu.closed, hst.closed, or_assoc]

/-- What follows closes no further database down. -/
theorem then_keeps (hst : Closing P s t) (htu : KeepsNames t u) : Closing P s u :=
  (hst.trans htu).congr fun _ => iff_of_eq (or_false _)

end Closing

theorem chained_keepsNames : Chained KeepsNames where
  refl _ := .of_eq rfl rfl
  trans hst htu := hst.then_keeps htu

/-- A number that no database has stands for a closed one. -/
theorem closed_of_length_le {s : Session} {id : DatabaseId} (h : s.databases.length ≤ id.index) :
    (s.database id).closed = true := by
  rw [database_of_length_le h]
  rfl

/-- A change of one database that leaves its name. -/
theorem closing_updateDatabase {P : DatabaseId → Prop} {f : Database → Database} {id : DatabaseId}
    (hname : ∀ d, (f d).name = d.name)
    (hclosed : ∀ d, (f d).closed = true ↔ d.closed = true ∨ P id) (hP : ∀ x, P x → x = id)
    (s : Session) : Closing P s ((updateDatabase id f).run s).2 where
  registry := rfl
  length := List.length_modify _ _ _
  name x := by
    rw [database_updateDatabase]
    split
    · exact hname _
    · rfl
  closed x := by
    rw [database_updateDatabase]
    split
    · rename_i hx
      rw [hclosed, hx.1]
    · rename_i hx
      by_cases hid : x = id
      · -- no database was changed, and a number without one counts as closed on both sides
        have hlength : s.databases.length ≤ x.index := by
          subst hid
          simpa using hx
        exact iff_of_true (closed_of_length_le hlength) (Or.inl (closed_of_length_le hlength))
      · rw [or_iff_left fun hPx => hid (hP x hPx)]

/-- Steps that neither register nor close a database down leave the names as they are. -/
theorem keepsNames_steps : StepEffects KeepsNames fun _ => True where
  toChained := chained_keepsNames
  executed _ _ _ _ _ := .of_eq rfl rfl
  quiet _ _ _ := .of_eq rfl rfl
  openRaw _ := .openRaw chained_keepsNames (fun _ _ => .of_eq rfl rfl) fun _ _ => .of_eq rfl rfl
  nextReply := .nextReply chained_keepsNames fun _ _ => .of_eq rfl rfl
  note := .note chained_keepsNames fun _ _ => .of_eq rfl rfl
  updateConnection _ _ _ := .of_eq rfl rfl
  addConnection _ _ := .of_eq rfl rfl
  idle id f := closing_updateDatabase (fun _ => rfl) (fun _ => by rw [or_false]) fun _ h => h.elim
  schemas id f :=
    closing_updateDatabase (fun _ => rfl) (fun _ => by rw [or_false]) fun _ h => h.elim
  addCache _ := .of_eq rfl rfl
  updateCache _ _ _ := .of_eq rfl rfl
  addShared _ _ _ := .of_eq rfl rfl
  updateShared _ _ _ := .of_eq rfl rfl

/-- Closing a database down does nothing else to databases and names. -/
theorem closing_closeDown (id : DatabaseId) (s : Session) :
    Closing (· = id) s (id.closeDown.run s).2 := by
  have hclosed : Closing (· = id) s
      ((updateDatabase id fun d => { d with closed := true, idle := [] }).run s).2 :=
    closing_updateDatabase (P := (· = id)) (f := fun d => { d with closed := true, idle := [] })
      (fun _ => rfl) (fun _ => by simp) (fun _ h => h) s
  have hrest : Within KeepsNames (do
      (s.database id).idle.forM fun raw => emit (.closed raw)
      note .info .database ("Database `" ++ (s.database id).name ++ "` closed down")) := by
    refine .bind chained_keepsNames (.forM chained_keepsNames (fun raw => ?_) _) fun _ => ?_
    · exact keepsNames_steps.quiet _ fun _ _ _ he => by cases he
    · exact keepsNames_steps.note _ _ _
  exact hclosed.then_keeps (hrest _)

theorem closing_forM_closeDown (ids : List DatabaseId) (s : Session) :
    Closing (· ∈ ids) s ((ids.forM DatabaseId.closeDown).run s).2 := by
  induction ids generalizing s with
  | nil => exact (chained_keepsNames.refl s).congr fun _ => by simp
  | cons id ids ih =>
    exact ((closing_closeDown id s).trans (ih _)).congr fun _ => List.mem_cons.symm

/-! ## Sessions and the history of names -/

/-- The registry and the databases that are closed down are as a history says, but for the default
name. -/
structure Owned (s : Session) (history : List NameFact) : Prop where
  owner : ∀ name, s.registry.databases.get? name = ownerOf history name
  keys : s.registry.databases.keys.Nodup
  placed : ∀ name id, ownerOf history name = some id → id.index < s.databases.length
  fresh : ∀ id, ShutDown history id → id.index < s.databases.length
  closed : ∀ id, id.index < s.databases.length →
    ((s.database id).closed = true ↔ ShutDown history id)

/-- The same databases under the same names, perhaps closed down or registered differently. -/
structure SameDatabases (s s' : Session) : Prop where
  length : s'.databases.length = s.databases.length
  name : ∀ id, (s'.database id).name = (s.database id).name

/-- The registry and the databases that are closed down are as a history says. -/
structure Named (s : Session) (history : List NameFact) : Prop extends Owned s history where
  first : s.registry.default = firstOf history

namespace Owned

variable {s t : Session} {history : List NameFact}

/-- A fact closes down databases of the session only. -/
theorem placed_of_closes (h : Owned s history) {fact : NameFact}
    (hfact : ∀ id, fact = .closed id → id.index < s.databases.length) {id : DatabaseId}
    (hcloses : Closes history fact id) : id.index < s.databases.length := by
  cases fact with
  | named name taker => exact h.placed name id hcloses.1
  | cleared =>
    obtain ⟨name, hname⟩ := hcloses
    exact h.placed name id hname
  | closed other => exact hfact id (congrArg NameFact.closed hcloses)

/-- A fact that closes down what it should, behind which the registry is as it should be. -/
theorem step (h : Owned s history) {fact : NameFact} (hclosing : Closing (Closes history fact) s t)
    (hfact : ∀ id, fact = .closed id → id.index < s.databases.length)
    (hnamed : ∀ name id, fact = .named name id → id.index < s.databases.length)
    {databases : Entries DatabaseId}
    (howner : ∀ name, databases.get? name = fact.owner name (s.registry.databases.get? name))
    (hkeys : databases.keys.Nodup) (first : Option String) :
    Owned { t with registry := ⟨databases, first⟩ } (history ++ [fact]) where
  owner name := by
    rw [ownerOf_append_fact, ← h.owner]
    exact howner name
  keys := hkeys
  placed name id hid := by
    show id.index < t.databases.length
    rw [hclosing.length]
    rw [ownerOf_append_fact] at hid
    cases fact with
    | named given taker =>
      rw [NameFact.owner] at hid
      split at hid
      · cases hid
        exact hnamed _ _ rfl
      · exact h.placed name id hid
    | cleared => cases hid
    | closed other => exact h.placed name id hid
  fresh id hid := by
    show id.index < t.databases.length
    rw [hclosing.length]
    rcases shutDown_append_fact.mp hid with hid | hid
    · exact h.fresh id hid
    · exact h.placed_of_closes hfact hid
  closed id hid := by
    show (t.database id).closed = true ↔ _
    rw [hclosing.closed, shutDown_append_fact, h.closed id (hclosing.length ▸ hid)]

end Owned

/-! ## Giving names -/

/-- The session with a name given to a database, and nothing else. -/
def withName (s : Session) (name : String) (id : DatabaseId) : Session :=
  { s with registry := { s.registry with databases := s.registry.databases.put name id } }

/-- A name is given to a database. If it is another one's, that one is closed down first. -/
theorem run_enroll (s : Session) (id : DatabaseId) (name : String) :
    ((enroll id name).run s).2 = match s.registry.databases.get? name with
      | some previous =>
        if previous ≠ id then
          withName (previous.closeDown.run ((note .info .registry
            ("Replacing database `" ++ name ++ "`")).run s).2).2 name id
        else withName s name id
      | none => withName s name id := by
  unfold enroll
  show ((match s.registry.databases.get? name with
    | some previous => _
    | none => _ : StateM Session Unit).run s).2 = _
  cases s.registry.databases.get? name with
  | none => rfl
  | some previous =>
    by_cases hsame : previous = id
    · subst hsame
      simp only [ne_eq, not_true_eq_false, if_false]
      rfl
    · simp only [ne_eq, hsame, not_false_eq_true, if_true]
      rfl

/-- When a name is given, its last owner is closed down if it is another database. -/
theorem exists_closing_enroll (s : Session) (id : DatabaseId) (name : String) :
    ∃ t, Closing (fun x => s.registry.databases.get? name = some x ∧ id ≠ x) s t ∧
      ((enroll id name).run s).2 = withName t name id := by
  rw [run_enroll]
  cases hget : s.registry.databases.get? name with
  | none => exact ⟨s, (chained_keepsNames.refl s).congr fun x => by simp, rfl⟩
  | some previous =>
    by_cases hsame : previous = id
    · refine ⟨s, (chained_keepsNames.refl s).congr fun x => ?_, by simp [hsame]⟩
      simp [hsame]
    · have hnote := keepsNames_steps.note .info .registry
        ("Replacing database `" ++ name ++ "`") s
      refine ⟨_, (hnote.trans (closing_closeDown previous _)).congr fun x => ?_, by
        simp only [ne_eq, hsame, not_false_eq_true, if_true]⟩
      have hne : id ≠ previous := Ne.symm hsame
      constructor
      · rintro (h | rfl)
        · exact h.elim
        · exact ⟨rfl, hne⟩
      · rintro ⟨h, -⟩
        exact Or.inr (Option.some.inj h).symm

theorem sameDatabases_enroll (s : Session) (id : DatabaseId) (name : String) :
    SameDatabases s ((enroll id name).run s).2 := by
  obtain ⟨t, hclosing, hrun⟩ := exists_closing_enroll s id name
  rw [hrun]
  exact ⟨hclosing.length, hclosing.name⟩

theorem sameDatabases_enrollAll (s : Session) (id : DatabaseId) (names : List String) :
    SameDatabases s ((names.forM (enroll id)).run s).2 := by
  induction names generalizing s with
  | nil => exact ⟨rfl, fun _ => rfl⟩
  | cons name names ih =>
    have hfirst := sameDatabases_enroll s id name
    have hrest := ih ((enroll id name).run s).2
    exact ⟨hrest.length.trans hfirst.length, fun x => (hrest.name x).trans (hfirst.name x)⟩

/-- Giving names leaves the default one. -/
theorem default_enrollAll (s : Session) (id : DatabaseId) (names : List String) :
    ((names.forM (enroll id)).run s).2.registry.default = s.registry.default := by
  induction names generalizing s with
  | nil => rfl
  | cons name names ih =>
    obtain ⟨t, hclosing, hrun⟩ := exists_closing_enroll s id name
    have hfirst : ((enroll id name).run s).2.registry.default = s.registry.default := by
      rw [hrun, withName, hclosing.registry]
    exact (ih _).trans hfirst

namespace Owned

variable {s : Session} {history : List NameFact}

/-- Giving a name adds to the history. -/
theorem enroll (h : Owned s history) {id : DatabaseId} (hid : id.index < s.databases.length)
    (name : String) :
    Owned ((Session.enroll id name).run s).2 (history ++ [.named name id]) := by
  obtain ⟨t, hclosing, hrun⟩ := exists_closing_enroll s id name
  have hcloses : Closing (Closes history (.named name id)) s t :=
    hclosing.congr fun x => by rw [h.owner]; rfl
  rw [hrun, withName, hclosing.registry]
  refine h.step hcloses (fun _ he => by cases he) ?_ ?_ ?_ s.registry.default
  · rintro _ _ he
    cases he
    exact hid
  · intro other
    rw [Entries.get?_put]
    rfl
  · exact Entries.nodup_keys_put h.keys name id

/-- Giving names one after another adds to the history. -/
theorem enrollAll (h : Owned s history) {id : DatabaseId} (hid : id.index < s.databases.length)
    (names : List String) :
    Owned ((names.forM (Session.enroll id)).run s).2 (history ++ names.map (.named · id)) := by
  induction names generalizing s history with
  | nil =>
    rw [List.map_nil, List.append_nil]
    exact h
  | cons name names ih =>
    have hfirst := h.enroll hid name
    have hlength : id.index < ((Session.enroll id name).run s).2.databases.length := by
      rw [(sameDatabases_enroll s id name).length]
      exact hid
    have hsplit : history ++ (name :: names).map (NameFact.named · id) =
        history ++ [.named name id] ++ names.map (NameFact.named · id) := by simp
    rw [hsplit]
    exact ih hfirst hlength

end Owned

/-! ## Calls and the history -/

/-- The names that a database is registered under. -/
def namesFor (s : Session) (id : DatabaseId) (aliasName : Option String) : List String :=
  (s.database id).name :: (Join.filled? aliasName).toList

/-- What registering a database adds to the history. -/
def registering (s : Session) (id : DatabaseId) (aliasName : Option String) : List NameFact :=
  (s.namesFor id aliasName).map (.named · id)

theorem register_run (s : Session) (id : DatabaseId) (aliasName : Option String) :
    ((register id aliasName).run s).2 =
      { (((s.namesFor id aliasName).forM (enroll id)).run s).2 with
        registry := ⟨(((s.namesFor id aliasName).forM (enroll id)).run s).2.registry.databases,
          (((s.namesFor id aliasName).forM (enroll id)).run s).2.registry.default.or
            (some (s.database id).name)⟩ } :=
  rfl

theorem sameDatabases_register (s : Session) (id : DatabaseId) (aliasName : Option String) :
    SameDatabases s ((register id aliasName).run s).2 := by
  rw [register_run]
  have hnames := sameDatabases_enrollAll s id (s.namesFor id aliasName)
  exact ⟨hnames.length, hnames.name⟩

namespace Named

variable {s t : Session} {history : List NameFact}

theorem empty (files : FileTree) : Named (.empty files) [] where
  owner _ := rfl
  keys := List.nodup_nil
  placed _ _ h := by cases h
  fresh _ h := (not_shutDown_nil h).elim
  closed _ h := absurd h (Nat.not_lt_zero _)
  first := rfl

/-- What leaves the names as they are adds nothing to the history. -/
theorem keep (h : Named s history) (hst : KeepsNames s t) : Named t history where
  owner := by
    rw [hst.registry]
    exact h.owner
  keys := by
    rw [hst.registry]
    exact h.keys
  placed := by
    rw [hst.length]
    exact h.placed
  fresh := by
    rw [hst.length]
    exact h.fresh
  closed id hid := by
    rw [hst.closed, or_false]
    exact h.closed id (hst.length ▸ hid)
  first := by
    rw [hst.registry]
    exact h.first

/-- A new database has no names yet. -/
theorem addDatabase (h : Named s history) {d : Database} (hd : d.closed = false) :
    Named ((Session.addDatabase d).run s).2 history where
  owner := h.owner
  keys := h.keys
  placed name id hid := by
    have hlt := h.placed name id hid
    show id.index < (s.databases ++ [d]).length
    rw [List.length_append]
    omega
  fresh id hid := by
    have hlt := h.fresh id hid
    show id.index < (s.databases ++ [d]).length
    rw [List.length_append]
    omega
  closed id hid := by
    have hlength : ((Session.addDatabase d).run s).2.databases = s.databases ++ [d] := rfl
    rw [hlength, List.length_append, List.length_singleton] at hid
    rw [database, hlength, List.getD_eq_getElem?_getD]
    by_cases hlt : id.index < s.databases.length
    · rw [List.getElem?_append_left hlt, ← List.getD_eq_getElem?_getD]
      exact h.closed id hlt
    · have hlast : id.index = s.databases.length := by omega
      rw [hlast, List.getElem?_concat_length]
      exact iff_of_false (by simp [hd]) fun hshut => hlt (h.fresh id hshut)
  first := h.first

theorem register (h : Named s history) {id : DatabaseId} (hid : id.index < s.databases.length)
    (aliasName : Option String) :
    Named ((Session.register id aliasName).run s).2 (history ++ s.registering id aliasName) := by
  have howned := h.enrollAll hid (s.namesFor id aliasName)
  have hdefault := default_enrollAll s id (s.namesFor id aliasName)
  rw [register_run, hdefault]
  exact
    { owner := howned.owner
      keys := howned.keys
      placed := howned.placed
      fresh := howned.fresh
      closed := howned.closed
      first := by
        rw [registering, namesFor, firstOf_append_named, ← h.first] }

/-- The databases that have a name. -/
theorem mem_eraseDups_iff (h : Named s history) (id : DatabaseId) :
    id ∈ (s.registry.databases.map Prod.snd).eraseDups ↔
      ∃ name, ownerOf history name = some id := by
  rw [List.mem_eraseDups, List.mem_map]
  constructor
  · rintro ⟨⟨name, id'⟩, hmem, rfl⟩
    exact ⟨name, by rw [← h.owner, Entries.get?_of_mem h.keys hmem]⟩
  · rintro ⟨name, hname⟩
    rw [← h.owner] at hname
    exact ⟨(name, id), Entries.mem_of_get? hname, rfl⟩

theorem closeAll (h : Named s history) :
    Named (Session.closeAll.run s).2 (history ++ [.cleared]) := by
  -- those that are closed down are the ones with a name, which is what the fact closes
  have hclosing := (closing_forM_closeDown (s.registry.databases.map Prod.snd).eraseDups s).congr
    (Q := Closes history .cleared) h.mem_eraseDups_iff
  have hkeys : (Entries.keys ([] : Entries DatabaseId)).Nodup := List.nodup_nil
  have howned : Owned (Session.closeAll.run s).2 (history ++ [.cleared]) :=
    h.step hclosing (fun _ he => by cases he) (fun _ _ he => by cases he) (fun _ => rfl) hkeys none
  exact { howned with first := (firstOf_append_fact history .cleared).symm }

theorem closeDown (h : Named s history) {id : DatabaseId} (hid : id.index < s.databases.length) :
    Named (id.closeDown.run s).2 (history ++ [.closed id]) := by
  have hclosing := (closing_closeDown id s).congr (Q := Closes history (.closed id))
    fun _ => eq_comm
  have howned := h.step hclosing (fun _ he => by cases he; exact hid)
    (fun _ _ he => by cases he) (fun _ => rfl) h.keys s.registry.default
  have hregistry : (id.closeDown.run s).2.registry = s.registry := hclosing.registry
  have hsame : { (id.closeDown.run s).2 with
      registry := ⟨s.registry.databases, s.registry.default⟩ } = (id.closeDown.run s).2 := by
    rw [← hregistry]
  rw [hsame] at howned
  exact { howned with
    first := by rw [hregistry, firstOf_append_fact, h.first]; rfl }

end Named

end Session

open Session

/-! ## Refused connections -/

namespace Url

theorem input_of_checkBracketed {host : List Char} {f : Failure}
    (h : checkBracketed host = .error f) : ∃ fault, f = .input fault := by
  unfold checkBracketed at h
  split_ifs at h <;> cases h <;> exact ⟨_, rfl⟩

theorem input_of_checkBrackets {location : List Char} {f : Failure}
    (h : checkBrackets location = .error f) : ∃ fault, f = .input fault := by
  unfold checkBrackets at h
  split at h
  · cases h
  · unfold checkHost at h
    split at h
    · dsimp only at h
      split at h
      · cases h
        exact ⟨_, rfl⟩
      · exact input_of_checkBracketed h
    · exact input_of_checkBracketed h
  · cases h
    exact ⟨_, rfl⟩

theorem input_of_checkCharacters {location : List Char} {f : Failure}
    (h : checkCharacters location = .error f) : ∃ fault, f = .input fault := by
  unfold checkCharacters at h
  split at h
  · cases h
    exact ⟨_, rfl⟩
  · cases h

/-- A text that is no URL is refused as an input. -/
theorem input_of_split {text : String} {f : Failure} (h : split text = .error f) :
    ∃ fault, f = .input fault := by
  unfold split at h
  rcases error_of_bind h with h | ⟨_, _, h⟩
  · exact input_of_checkBrackets h
  · rcases error_of_bind h with h | ⟨_, _, h⟩
    · exact input_of_checkCharacters h
    · cases h

theorem input_of_port {u : Url} {f : Failure} (h : u.port = .error f) :
    ∃ fault, f = .input fault := by
  unfold port at h
  dsimp only at h
  split_ifs at h <;> cases h <;> exact ⟨_, rfl⟩

end Url

theorem Location.input_of_ofUrl {text : String} {f : Failure} (h : Location.ofUrl text = .error f) :
    ∃ fault, f = .input fault := by
  rcases error_of_bind h with h | ⟨u, -, h⟩
  · exact Url.input_of_split h
  · rcases error_of_bind h with h | ⟨_, -, h⟩
    · exact Url.input_of_port h
    · cases h

/-- Taking a driver connection fails for its URL only. -/
theorem DatabaseId.input_of_takeRaw {id : DatabaseId} {f : Failure} {s s' : Session}
    (h : id.takeRaw.run.run s = (.error f, s')) : ∃ fault, f = .input fault := by
  unfold takeRaw at h
  rw [run_read_bind] at h
  split at h
  · cases h
  · unfold openRaw at h
    rw [run_read_bind, run_bind] at h
    split at h
    · rename_i hnote
      split at h
      · rename_i url _
        unfold Engine.openUrl at h
        rw [run_bind] at h
        cases hurl : Location.ofUrl url with
        | error f' =>
          rw [hurl] at h
          cases h
          exact Location.input_of_ofUrl hurl
        | ok l =>
          rw [hurl] at h
          cases h
      · cases h
    · rename_i hnote
      cases hnote

/-- A connection is refused to a database that is closed down, and to no other for that reason. -/
theorem DatabaseId.connect_closedDown_iff {id : DatabaseId} {s : Session} :
    (∃ name s', id.connect.run.run s = (.error (.configuration (.closedDown name)), s')) ↔
      (s.database id).closed = true := by
  have hrun : id.connect.run.run s = if (s.database id).closed = true then
      (.error (.configuration (.closedDown (s.database id).name)), s) else
      (id.takeRaw >>= fun raw =>
        SessionM.lift (addConnection ⟨raw, some id, 0, false⟩)).run.run s := by
    unfold connect
    rw [run_read_bind]
    dsimp only
    split <;> rfl
  rw [hrun]
  split
  · rename_i hclosed
    exact iff_of_true ⟨_, _, rfl⟩ hclosed
  · rename_i hopen
    -- an open database is refused for its URL only
    refine iff_of_false ?_ hopen
    rintro ⟨name, s', h⟩
    rw [run_bind] at h
    split at h
    · cases h
    · rename_i f t htake
      obtain ⟨fault, rfl⟩ := input_of_takeRaw htake
      cases h

namespace Session

theorem run_lookup (s : Session) (name : Option String) :
    (lookup name).run.run s =
      match ((Join.filled? name).or s.registry.default).bind s.registry.databases.get? with
      | some id => (.ok id, s)
      | none => (.error (.configuration
          (.unknownDatabase ((Join.filled? name).or s.registry.default))), s) := by
  unfold lookup
  show (match ((Join.filled? name).or s.registry.default).bind s.registry.databases.get? with
    | some _ => _
    | none => _ : SessionM DatabaseId).run.run s = _
  cases ((Join.filled? name).or s.registry.default).bind s.registry.databases.get? <;> rfl

end Session

/-! ## Runs -/

/-- A session that is reached from an empty one by calls on names and others, with what has happened
to the names. -/
inductive NamingRun : Session → List NameFact → Prop where
  | start (files : FileTree) : NamingRun (.empty files) []
  | add {s : Session} {history : List NameFact} (run : NamingRun s history) {d : Database}
      (hd : d.closed = false) : NamingRun ((addDatabase d).run s).2 history
  | register {s : Session} {history : List NameFact} (run : NamingRun s history) (id : DatabaseId)
      (hid : id.index < s.databases.length) (aliasName : Option String) :
      NamingRun ((register id aliasName).run s).2 (history ++ s.registering id aliasName)
  | connect {s : Session} {history : List NameFact} (run : NamingRun s history) (id : DatabaseId) :
      NamingRun (id.connect.run.run s).2 history
  | closeAll {s : Session} {history : List NameFact} (run : NamingRun s history) :
      NamingRun (closeAll.run s).2 (history ++ [.cleared])
  | closeDown {s : Session} {history : List NameFact} (run : NamingRun s history) (id : DatabaseId)
      (hid : id.index < s.databases.length) :
      NamingRun (id.closeDown.run s).2 (history ++ [.closed id])
  /-- Any other call, be it a command, a transaction or what the driver does. -/
  | aside {s s' : Session} {history : List NameFact} (run : NamingRun s history)
      (hkeeps : KeepsNames s s') : NamingRun s' history

namespace NamingRun

variable {s : Session} {history : List NameFact}

/-- The session is as the history says. -/
theorem named (run : NamingRun s history) : Named s history := by
  induction run with
  | start files => exact .empty files
  | add _ hd ih => exact ih.addDatabase hd
  | register _ id hid aliasName ih => exact ih.register hid aliasName
  | connect _ id ih => exact ih.keep (keepsNames_steps.pool.connect id _)
  | closeAll _ ih => exact ih.closeAll
  | closeDown _ id hid ih => exact ih.closeDown hid
  | aside _ hkeeps ih => exact ih.keep hkeeps

/-- What a name leads to, as the history says. -/
theorem lookup_iff (run : NamingRun s history) {name : Option String} {id : DatabaseId}
    {s' : Session} : (lookup name).run.run s = (.ok id, s') ↔
      s' = s ∧ ((Join.filled? name).or (firstOf history)).bind (ownerOf history) = some id := by
  have howner : s.registry.databases.get? = ownerOf history := funext run.named.owner
  rw [run_lookup, run.named.first, howner]
  cases ((Join.filled? name).or (firstOf history)).bind (ownerOf history) with
  | none =>
    constructor
    · intro h
      cases h
    · rintro ⟨-, h⟩
      cases h
  | some found =>
    constructor
    · intro h
      cases h
      exact ⟨rfl, rfl⟩
    · rintro ⟨rfl, h⟩
      cases h
      rfl

/-- There is a default name exactly when some name is registered. -/
theorem isSome_default_iff (run : NamingRun s history) :
    s.registry.default.isSome = true ↔ s.registry.databases ≠ [] := by
  rw [run.named.first, isSome_firstOf]
  constructor
  · rintro ⟨name, hname⟩ hempty
    rw [← run.named.owner, hempty] at hname
    cases hname
  · intro hne
    obtain ⟨⟨name, id⟩, hmem⟩ := List.exists_mem_of_ne_nil _ hne
    refine ⟨name, ?_⟩
    rw [← run.named.owner, Entries.get?_of_mem run.named.keys hmem]
    rfl

/-- The default name leads to a database when some name is registered. -/
theorem exists_lookup_default (run : NamingRun s history) (hne : s.registry.databases ≠ []) :
    ∃ id, (lookup none).run.run s = (.ok id, s) := by
  have hdefault := run.isSome_default_iff.mpr hne
  rw [run.named.first] at hdefault
  obtain ⟨first, hfirst⟩ := Option.isSome_iff_exists.mp hdefault
  obtain ⟨id, hid⟩ := Option.isSome_iff_exists.mp (owned_of_firstOf hfirst)
  refine ⟨id, run.lookup_iff.mpr ⟨rfl, ?_⟩⟩
  rw [hfirst]
  exact hid

/-- What a name leads to belongs to some name. -/
theorem exists_owned_of_lookup (run : NamingRun s history) {name : Option String} {id : DatabaseId}
    {s' : Session} (h : (lookup name).run.run s = (.ok id, s')) :
    ∃ known, ownerOf history known = some id := by
  obtain ⟨-, hfound⟩ := run.lookup_iff.mp h
  obtain ⟨known, -, howner⟩ := Option.bind_eq_some_iff.mp hfound
  exact ⟨known, howner⟩

/-- In every session that is reached there is a default name exactly when some name is registered,
and then it leads to a database. Every name that leads to a database leads to one of the session. It
is closed down, and refuses connections for that reason, exactly when a fact of the history closed
it down. -/
theorem resolves_open_unless_shutDown (run : NamingRun s history) :
    (s.registry.default.isSome = true ↔ s.registry.databases ≠ []) ∧
      (s.registry.databases ≠ [] → ∃ id, (lookup none).run.run s = (.ok id, s)) ∧
      ∀ name id s', (lookup name).run.run s = (.ok id, s') →
        id.index < s.databases.length ∧
          ((s.database id).closed = true ↔ ShutDown history id) ∧
          ((∃ known s', id.connect.run.run s = (.error (.configuration (.closedDown known)), s')) ↔
            ShutDown history id) := by
  refine ⟨run.isSome_default_iff, run.exists_lookup_default, fun name id s' hlookup => ?_⟩
  obtain ⟨known, howner⟩ := run.exists_owned_of_lookup hlookup
  have hplaced := run.named.placed known id howner
  have hclosed := run.named.closed id hplaced
  exact ⟨hplaced, hclosed, DatabaseId.connect_closedDown_iff.trans hclosed⟩

/-- A database under two names, both of which lead to it, and which is open. -/
theorem resolves_open_unless_shutDown_shop : ∃ s history, NamingRun s history ∧
    s.registry.default = some "shop" ∧ ¬ ShutDown history ⟨0⟩ ∧
    (lookup (some "store")).run.run s = (.ok ⟨0⟩, s) ∧ (lookup none).run.run s = (.ok ⟨0⟩, s) ∧
    (s.database ⟨0⟩).closed = false := by
  have hrun := ((start .empty).add (d := .fresh (some "shop") (.standard .mysql) .factory
    ⟨none, none, 1, .null, none⟩) rfl).register ⟨0⟩ (by decide) (some "store")
  obtain ⟨-, -, hlookup⟩ := resolves_open_unless_shutDown hrun
  obtain ⟨-, hclosed, -⟩ := hlookup (some "store") ⟨0⟩ _ rfl
  refine ⟨_, _, hrun, rfl, fun hshut => ?_, rfl, rfl, rfl⟩
  cases hclosed.mpr hshut

/-- A database is closed down with the alias that another one takes over, and its own name and the
default one still lead to it. -/
theorem closed_with_alias : ∃ s history, NamingRun s history ∧
    history = [.named "one" ⟨0⟩, .named "shared" ⟨0⟩, .named "two" ⟨1⟩, .named "shared" ⟨1⟩] ∧
    s.registry.default = some "one" ∧ (lookup none).run.run s = (.ok ⟨0⟩, s) ∧
    (lookup (some "one")).run.run s = (.ok ⟨0⟩, s) ∧
    (DatabaseId.connect ⟨0⟩).run.run s = (.error (.configuration (.closedDown "one")), s) := by
  have hone := ((start .empty).add (d := .fresh (some "one") (.standard .mysql) .factory
    ⟨none, none, 1, .null, none⟩) rfl).register ⟨0⟩ (by decide) (some "shared")
  have htwo := (hone.add (d := .fresh (some "two") (.standard .mysql) .factory
    ⟨none, none, 1, .null, none⟩) rfl).register ⟨1⟩ (by decide) (some "shared")
  exact ⟨_, _, htwo, rfl, rfl, rfl, rfl, rfl⟩

end NamingRun

end TableOps
