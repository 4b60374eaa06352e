import Mathlib.Data.List.TakeWhile
import TableOps.Expression.Basic
import TableOps.Proofs.Entries
import TableOps.Proofs.Except

/-!
# Transformers after a sequence of column calls

A call appends one column or replaces all of them by a list, whose entries may carry transformers.
The columns are replaced when the whole list has been read. The transformers are not: each is put
into the table as soon as its entry is read, so that a rejected list leaves those of its readable
beginning behind, and none is taken out when its column is replaced.

* `ColumnEntry.listed?` — what an entry gives; `ColumnEntry.given`, the transformers of a list.
* `Expression.run_column` — what one call does.
* `ColumnHistory` — the list in force after some calls, with what was registered before it and by
  rejected lists since; `Expression.afterColumns_eq`, the expression is as its history says.

Main statement: `Expression.transformers_afterColumns`, the table after any calls, and when it is
that of the list in force.
-/

namespace TableOps

/-! ## Entries -/

namespace ColumnEntry

/-- The column an entry names, with its transformer if it has one; none if it is not readable. -/
def listed? : Value → Option (String × Option Value)
  | .text name => some (name, none)
  | .map [(name, .transformer t)] => some (name, some (.transformer t))
  | _ => none

/-- What is wrong with an entry that is not readable. -/
def refusal : Value → Failure
  | .map [(name, _)] => .malformed (.notATransformer name)
  | _ => .malformed .unreadableColumn

/-- The entry is readable. -/
def Readable (entry : Value) : Bool :=
  (listed? entry).isSome

/-- The columns that a list names. -/
def names (entries : List Value) : List String :=
  entries.filterMap fun entry => (listed? entry).map Prod.fst

/-- The output name and the transformer of an entry that has one. -/
def givenBy? (entry : Value) : Option (String × Value) :=
  match listed? entry with
  | some (name, some t) => some (Reference.outputName name, t)
  | _ => none

/-- The transformers that a list gives, by output name and in its order. -/
def given (entries : List Value) : List (String × Value) :=
  entries.filterMap givenBy?

/-- The entries in front of the first one that is not readable. -/
def readableFront (entries : List Value) : List Value :=
  entries.takeWhile Readable

theorem names_texts (columns : List String) : names (columns.map .text) = columns := by
  induction columns with
  | nil => rfl
  | cons c columns ih => exact congrArg (c :: ·) ih

theorem given_texts (columns : List String) : given (columns.map .text) = [] := by
  induction columns with
  | nil => rfl
  | cons c columns ih => exact ih

theorem names_append (entries entries' : List Value) :
    names (entries ++ entries') = names entries ++ names entries' :=
  List.filterMap_append

theorem given_append (entries entries' : List Value) :
    given (entries ++ entries') = given entries ++ given entries' :=
  List.filterMap_append

theorem readableFront_eq_self {entries : List Value} (h : entries.all Readable) :
    readableFront entries = entries :=
  List.takeWhile_eq_self_iff.mpr (List.all_eq_true.mp h)

end ColumnEntry

open ColumnEntry

/-! ## One call -/

namespace ColumnCall

/-- The call succeeds: it appends a column, or all entries of its list are readable. -/
def Accepted : Value → Bool
  | .text _ => true
  | .list entries => entries.all Readable
  | _ => false

/-- What a rejected call fails with: what is wrong with its first entry that is not readable. -/
def refusal : Value → Failure
  | .list entries => ((entries.find? (!Readable ·)).map ColumnEntry.refusal).getD
      (.malformed .columnsNotList)
  | _ => .malformed .columnsNotList

/-- The transformers that a call puts into the table. -/
def registered : Value → List (String × Value)
  | .list entries => given (readableFront entries)
  | _ => []

/-- The columns after a call that succeeds. -/
def columnsAfter (columns : List String) : Value → List String
  | .text name => columns ++ [name]
  | .list entries => names entries
  | _ => columns

end ColumnCall

namespace Expression

/-- The expression with some more transformers put into its table. -/
def registering (e : Expression) (pairs : List (String × Value)) : Expression :=
  { e with transformers := e.transformers.update pairs }

theorem registering_append (e : Expression) (pairs pairs' : List (String × Value)) :
    e.registering (pairs ++ pairs') = (e.registering pairs).registering pairs' := by
  rw [registering, Entries.update_append]
  rfl

theorem run_columnEntry (entry : Value) (e : Expression) :
    (columnEntry entry).run.run e =
      match listed? entry with
      | some (name, _) => (.ok name, e.registering (givenBy? entry).toList)
      | none => (.error (ColumnEntry.refusal entry), e) := by
  unfold columnEntry
  split
  · rfl
  · rfl
  · rename_i name v hv
    have hnone : listed? (.map [(name, v)]) = none := by
      unfold listed?
      split <;> simp_all
    rw [hnone]
    rfl
  · rename_i htext hnamed hsingle
    have hnone : listed? entry = none := by
      unfold listed?
      split
      · exact (htext _ rfl).elim
      · exact (hnamed _ _ rfl).elim
      · rfl
    have hrefusal : ColumnEntry.refusal entry = .malformed .unreadableColumn := by
      unfold ColumnEntry.refusal
      split
      · exact (hsingle _ _ rfl).elim
      · rfl
    rw [hnone, hrefusal]
    rfl

/-- The entries of a list are read one after the other. What those in front of the first
unreadable one registered is in the table, whether or not there is such an entry. -/
theorem run_columnEntries (entries : List Value) (e : Expression) :
    (entries.mapM columnEntry).run.run e =
      (match entries.find? (!Readable ·) with
        | none => .ok (names entries)
        | some entry => .error (ColumnEntry.refusal entry),
        e.registering (given (readableFront entries))) := by
  induction entries generalizing e with
  | nil => rfl
  | cons entry entries ih =>
    rw [List.mapM_cons, run_bind, run_columnEntry]
    cases hentry : listed? entry with
    | none =>
      have hread : Readable entry = false := by rw [Readable, hentry]; rfl
      rw [List.find?_cons_of_pos (by rw [hread]; rfl), readableFront,
        List.takeWhile_cons_of_neg (by rw [hread]; exact Bool.false_ne_true)]
      rfl
    | some listed =>
      obtain ⟨name, t⟩ := listed
      have hread : Readable entry = true := by rw [Readable, hentry]; rfl
      have hgiven : given (readableFront (entry :: entries)) =
          (givenBy? entry).toList ++ given (readableFront entries) := by
        rw [readableFront, List.takeWhile_cons_of_pos hread]
        unfold given
        rw [List.filterMap_cons]
        cases givenBy? entry <;> rfl
      have hnames : names (entry :: entries) = name :: names entries := by
        unfold names
        rw [List.filterMap_cons, hentry]
        rfl
      rw [List.find?_cons_of_neg (by rw [hread]; exact Bool.false_ne_true), hgiven, hnames,
        registering_append]
      dsimp only
      rw [run_bind, ih]
      cases entries.find? (!Readable ·) <;> rfl

/-- What one call does: it registers the transformers of the readable beginning of its list in any
case, and changes the columns when it succeeds. -/
theorem run_column (call : Value) (e : Expression) :
    (column call).run.run e =
      if ColumnCall.Accepted call then
        (.ok (), { e.registering (ColumnCall.registered call) with
          columns := ColumnCall.columnsAfter e.columns call })
      else (.error (ColumnCall.refusal call), e.registering (ColumnCall.registered call)) := by
  cases call with
  | text name => rfl
  | list entries =>
    rw [column, run_bind, run_columnEntries]
    cases hfind : entries.find? (!Readable ·) with
    | none =>
      have hall : entries.all Readable := by
        rw [List.all_eq_true]
        intro entry hentry
        simpa using List.find?_eq_none.mp hfind entry hentry
      rw [if_pos (show ColumnCall.Accepted (.list entries) = true from hall)]
      rfl
    | some entry =>
      have hnot : ColumnCall.Accepted (.list entries) ≠ true := by
        intro hall
        have hunread := List.find?_some hfind
        rw [List.all_eq_true.mp hall entry (List.mem_of_find?_eq_some hfind)] at hunread
        cases hunread
      rw [if_neg hnot, ColumnCall.refusal, hfind]
      rfl
  | _ => rfl

end Expression

/-! ## A sequence of calls -/

/-- What a sequence of calls leaves to be known. -/
structure ColumnHistory where
  /-- The column list in force: the last accepted list, and behind it the columns appended since. -/
  entries : List Value
  /-- What was registered before that list. -/
  earlier : List (String × Value)
  /-- What rejected lists registered since. -/
  since : List (String × Value)

namespace ColumnHistory

/-- Before any call the columns are those that are there, without transformers. -/
def start (columns : List String) : ColumnHistory :=
  ⟨columns.map .text, [], []⟩

/-- All that was registered, in order. -/
def registered (h : ColumnHistory) : List (String × Value) :=
  h.earlier ++ given h.entries ++ h.since

/-- The history with one more call. -/
def call (h : ColumnHistory) : Value → ColumnHistory
  | .text name => { h with entries := h.entries ++ [.text name] }
  | .list entries =>
    if entries.all Readable then ⟨entries, h.registered, []⟩
    else { h with since := h.since ++ given (readableFront entries) }
  | _ => h

/-- The history of some calls, from the first one on. -/
def after (columns : List String) (calls : List Value) : ColumnHistory :=
  calls.foldl call (start columns)

/-- Nothing is left over: the list in force gives a transformer under every name that was registered
before it, and the one that rejected lists registered since where they registered any. -/
structure Clean (h : ColumnHistory) : Prop where
  earlier : ∀ name ∈ Entries.keys h.earlier, name ∈ Entries.keys (given h.entries)
  since : ∀ name t, Entries.get? h.since.reverse name = some t →
    Entries.get? (given h.entries).reverse name = some t

/-- What all calls registered is what the list in force gives, exactly when nothing is left
over. -/
theorem clean_iff (h : ColumnHistory) :
    (∀ name, Entries.get? (Entries.ofPairs h.registered) name =
      Entries.get? (given h.entries).reverse name) ↔ h.Clean := by
  have hfound : ∀ name, Entries.get? (Entries.ofPairs h.registered) name =
      (Entries.get? h.since.reverse name).or ((Entries.get? (given h.entries).reverse name).or
        (Entries.get? h.earlier.reverse name)) := by
    intro name
    rw [Entries.get?_ofPairs, registered, List.reverse_append, List.reverse_append,
      Entries.get?_append, Entries.get?_append]
  constructor
  · intro heq
    refine ⟨fun name hname => ?_, fun name t ht => ?_⟩
    · by_contra hnot
      have hnone := Entries.get?_reverse_eq_none_iff.mpr hnot
      have hall := (hfound name).symm.trans (heq name)
      rw [hnone, Option.none_or, Option.or_eq_none_iff] at hall
      exact Entries.get?_reverse_eq_none_iff.mp hall.2 hname
    · rw [← heq, hfound, ht, Option.some_or]
  · intro hclean name
    rw [hfound]
    cases hsince : Entries.get? h.since.reverse name with
    | some t => rw [hclean.since name t hsince, Option.some_or]
    | none =>
      cases hgiven : Entries.get? (given h.entries).reverse name with
      | some t => rfl
      | none =>
        have hnot : name ∉ Entries.keys h.earlier := fun hname =>
          Entries.get?_reverse_eq_none_iff.mp hgiven (hclean.earlier name hname)
        rw [Entries.get?_reverse_eq_none_iff.mpr hnot]
        rfl

end ColumnHistory

namespace Expression

/-- The expression after some column calls, whether they succeed or not. -/
def afterColumns (e : Expression) (calls : List Value) : Expression :=
  calls.foldl (fun e call => ((column call).run.run e).2) e

/-- The expression with the columns and the transformers that a history tells of. -/
def withHistory (e : Expression) (h : ColumnHistory) : Expression :=
  { e with columns := names h.entries, transformers := .ofPairs h.registered }

theorem withHistory_start {e : Expression} (hstart : e.transformers = []) :
    e.withHistory (.start e.columns) = e := by
  have hregistered : (ColumnHistory.start e.columns).registered = [] := by
    simp only [ColumnHistory.registered, ColumnHistory.start, given_texts, List.append_nil]
  have hnames : names (ColumnHistory.start e.columns).entries = e.columns := names_texts e.columns
  rw [withHistory, hregistered, hnames]
  cases e
  cases hstart
  rfl

/-- One call takes the expression of a history to that of the history with the call. -/
theorem column_withHistory (e : Expression) (h : ColumnHistory) (call : Value) :
    ((column call).run.run (e.withHistory h)).2 = e.withHistory (h.call call) := by
  cases call with
  | text name =>
    have hgiven : given (h.entries ++ [.text name]) = given h.entries := by
      rw [given_append]
      exact List.append_nil _
    rw [run_column, if_pos (show ColumnCall.Accepted (.text name) = true from rfl)]
    simp only [withHistory, ColumnHistory.call, ColumnHistory.registered, names_append, hgiven]
    rfl
  | list entries =>
    rw [run_column, ColumnHistory.call]
    by_cases hall : entries.all Readable = true
    · rw [if_pos (show ColumnCall.Accepted (.list entries) = true from hall), if_pos hall]
      have hnew : ColumnHistory.registered ⟨entries, h.registered, []⟩ =
          h.registered ++ given entries := List.append_nil _
      simp only [withHistory, registering, ColumnCall.registered, ColumnCall.columnsAfter,
        readableFront_eq_self hall, hnew, Entries.ofPairs, Entries.update_append]
    · rw [if_neg (show ColumnCall.Accepted (.list entries) ≠ true from hall), if_neg hall]
      have hnew : ColumnHistory.registered
          { h with since := h.since ++ given (readableFront entries) } =
            h.registered ++ given (readableFront entries) := (List.append_assoc _ _ _).symm
      simp only [withHistory, registering, ColumnCall.registered, hnew, Entries.ofPairs,
        Entries.update_append]
  | _ => rfl

/-- The expression after some calls is as their history says. -/
theorem afterColumns_eq {e : Expression} (hstart : e.transformers = []) (calls : List Value) :
    e.afterColumns calls = e.withHistory (.after e.columns calls) := by
  have hrun : ∀ (calls : List Value) (h : ColumnHistory),
      (e.withHistory h).afterColumns calls = e.withHistory (calls.foldl ColumnHistory.call h) := by
    intro calls
    induction calls with
    | nil => exact fun _ => rfl
    | cons call calls ih =>
      intro h
      rw [afterColumns, List.foldl_cons, column_withHistory]
      exact ih (h.call call)
  have hcalls := hrun calls (.start e.columns)
  rwa [withHistory_start hstart] at hcalls

/-- More transformers leave the table as it was exactly when each is there already. -/
theorem get?_registering_eq_iff (e : Expression) (pairs : List (String × Value)) :
    (∀ name, (e.registering pairs).transformers.get? name = e.transformers.get? name) ↔
      ∀ name t, Entries.get? pairs.reverse name = some t → e.transformers.get? name = some t := by
  have hfound : ∀ name, (e.registering pairs).transformers.get? name =
      (Entries.get? pairs.reverse name).or (e.transformers.get? name) :=
    Entries.get?_update _ _
  constructor
  · intro heq name t ht
    rw [← heq, hfound, ht, Option.some_or]
  · intro hthere name
    rw [hfound]
    cases hpair : Entries.get? pairs.reverse name with
    | none => rfl
    | some t => rw [hthere name t hpair, Option.some_or]

/-- More transformers are all there are exactly when every name in the table gets a new one. -/
theorem get?_registering_eq_given_iff (e : Expression) (pairs : List (String × Value)) :
    (∀ name, (e.registering pairs).transformers.get? name = Entries.get? pairs.reverse name) ↔
      ∀ name ∈ e.transformers.keys, name ∈ Entries.keys pairs := by
  have hfound : ∀ name, (e.registering pairs).transformers.get? name =
      (Entries.get? pairs.reverse name).or (e.transformers.get? name) :=
    Entries.get?_update _ _
  constructor
  · intro heq name hname
    by_contra hnot
    have hnone := Entries.get?_reverse_eq_none_iff.mpr hnot
    have hold := (hfound name).symm.trans (heq name)
    rw [hnone, Option.none_or] at hold
    exact Entries.get?_eq_none_iff.mp hold hname
  · intro hgiven name
    rw [hfound]
    cases hpair : Entries.get? pairs.reverse name with
    | some t => rfl
    | none =>
      have hnot : name ∉ e.transformers.keys := fun hname =>
        Entries.get?_reverse_eq_none_iff.mp hpair (hgiven name hname)
      rw [Entries.get?_eq_none_iff.mpr hnot]
      rfl

/-- An expression without transformers after any column calls: its columns are those of the list in
force, and its table has every name that was ever registered once, with the transformer registered
last. It is the table that the list in force gives exactly when nothing is left over. A call that is
rejected leaves the columns, and the table when it registers only what is there; a list that
replaces the columns leaves its own transformers only when it gives one under every name that has
one. -/
theorem transformers_afterColumns {e : Expression} (hstart : e.transformers = [])
    (calls : List Value) :
    let h := ColumnHistory.after e.columns calls
    let e' := e.afterColumns calls
    e' = { e with columns := names h.entries, transformers := .ofPairs h.registered } ∧
      e'.transformers.keys.Nodup ∧
      ((∀ name, e'.transformers.get? name = Entries.get? (given h.entries).reverse name) ↔
        h.Clean) ∧
      (∀ call, ColumnCall.Accepted call = false →
        ∃ e'', (column call).run.run e' = (.error (ColumnCall.refusal call), e'') ∧
          e''.columns = e'.columns ∧
          ((∀ name, e''.transformers.get? name = e'.transformers.get? name) ↔
            ∀ name t, Entries.get? (ColumnCall.registered call).reverse name = some t →
              e'.transformers.get? name = some t)) ∧
      ∀ entries, entries.all Readable = true →
        ∃ e'', (column (.list entries)).run.run e' = (.ok (), e'') ∧
          e''.columns = names entries ∧
          ((∀ name, e''.transformers.get? name = Entries.get? (given entries).reverse name) ↔
            ∀ name ∈ e'.transformers.keys, name ∈ Entries.keys (given entries)) := by
  intro h e'
  have he' : e' = e.withHistory h := afterColumns_eq hstart calls
  refine ⟨he', ?_, ?_, fun call hcall => ?_, fun entries hall => ?_⟩
  · rw [he']
    have hnil : (Entries.keys ([] : Entries Value)).Nodup := List.nodup_nil
    exact Entries.nodup_keys_update hnil _
  · rw [he']
    exact h.clean_iff
  · refine ⟨e'.registering (ColumnCall.registered call), ?_, rfl, get?_registering_eq_iff _ _⟩
    rw [run_column, if_neg (by rw [hcall]; exact Bool.false_ne_true)]
  · refine ⟨{ e'.registering (given entries) with columns := names entries }, ?_, rfl,
      get?_registering_eq_given_iff _ _⟩
    rw [run_column, if_pos (show ColumnCall.Accepted (.list entries) = true from hall),
      ColumnCall.registered, readableFront_eq_self hall]
    rfl

/-- Cities without columns yet. -/
def bare : Expression :=
  .ofSource ⟨"City", ⟨none, "City", none⟩, by decide +kernel⟩

/-- A list with a transformer, then one that gives another under the same name: nothing is left
over. -/
theorem transformers_afterColumns_renewed :
    bare.transformers = [] ∧
      (bare.afterColumns [.list [.map [("name", .transformer ⟨"upper"⟩)]],
        .list [.map [("City.name", .transformer ⟨"length"⟩)]]]).transformers =
          [("name", .transformer ⟨"length"⟩)] := by
  obtain ⟨hafter, -⟩ := transformers_afterColumns (e := bare) rfl
    [.list [.map [("name", .transformer ⟨"upper"⟩)]],
      .list [.map [("City.name", .transformer ⟨"length"⟩)]]]
  have hname : Reference.outputName "name" = "name" := by decide +kernel
  have hqualified : Reference.outputName "City.name" = "name" := by decide +kernel
  refine ⟨rfl, ?_⟩
  rw [hafter]
  show Entries.ofPairs [(Reference.outputName "name", Value.transformer ⟨"upper"⟩),
    (Reference.outputName "City.name", .transformer ⟨"length"⟩)] = _
  rw [hname, hqualified]
  rfl

/-- The calls that replace a column with a transformer by the same column without one. -/
def plainAgain : List Value :=
  [.list [.map [("name", .transformer ⟨"upper"⟩)]], .list [.text "name"]]

/-- A list that is rejected for its second entry. -/
def halfReadable : Value :=
  .list [.map [("name", .transformer ⟨"upper"⟩)], .int 5]

/-- The list in force gives no transformer, but that of the replaced column stays; and a call that
is rejected leaves the transformer of its first entry in a table that was empty. -/
theorem transformers_left_over :
    (ColumnHistory.after bare.columns plainAgain).entries = [.text "name"] ∧
      given [.text "name"] = [] ∧
      (bare.afterColumns plainAgain).transformers = [("name", .transformer ⟨"upper"⟩)] ∧
      ColumnCall.Accepted halfReadable = false ∧ bare.transformers = [] ∧
      (bare.afterColumns [halfReadable]).transformers = [("name", .transformer ⟨"upper"⟩)] := by
  have hname : Reference.outputName "name" = "name" := by decide +kernel
  have hput : Entries.put ([] : Entries Value) (Reference.outputName "name")
      (.transformer ⟨"upper"⟩) = [("name", .transformer ⟨"upper"⟩)] := by
    rw [hname]
    rfl
  exact ⟨rfl, rfl, hput, rfl, rfl, hput⟩

end Expression

end TableOps
