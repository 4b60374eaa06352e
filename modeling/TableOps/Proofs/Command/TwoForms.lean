import Mathlib.Data.List.Nodup
import TableOps.Proofs.Command.Reading

/-!
# The two forms of a command

A command names its operation and its expression, or it names the expression by the operation.
Beside that it may have query values and other members, in any order. Both forms are one command as
long as the query values hold nothing under `table`; if they do, they are taken for an expression.

* `Entries.without` — entries with some names left aside.
* `Command.ShortForm`, `Command.LongForm` — the members of the two forms.
* `Command.Beside` — members that neither form takes for its operation, expression or query values.
* `Command.check_congr` — a check depends on what is found in the members, and on nothing else.
* `Command.get?_flatMap_beside`, `Command.only_of_target` — what is found in the members of a form.

Main statement: `Command.forms_agree`.
-/

namespace TableOps

namespace Entries

variable {α : Type}

/-- The entries under other names than these. -/
def without (names : List String) (entries : Entries α) : Entries α :=
  entries.filter fun entry => !names.contains entry.1

theorem mem_without {names : List String} {entries : Entries α} {entry : String × α} :
    entry ∈ entries.without names ↔ entry ∈ entries ∧ entry.1 ∉ names := by
  simp [without]

/-- Names that stand once each have one value. -/
theorem eq_of_mem {entries : Entries α} (h : entries.keys.Nodup) {key : String} {v w : α}
    (hv : (key, v) ∈ entries) (hw : (key, w) ∈ entries) : v = w :=
  Option.some.inj ((get?_of_mem h hv).symm.trans (get?_of_mem h hw))

/-- What is found depends only on the entries with the name. -/
theorem get?_filter (entries : Entries α) (key : String) :
    get? (entries.filter fun entry => entry.1 == key) key = get? entries key := by
  induction entries with
  | nil => rfl
  | cons entry rest ih =>
    obtain ⟨k, v⟩ := entry
    by_cases hk : k = key
    · simp [hk]
    · simp [hk, ih]

/-- Two lists of pairs write the same under a name, when their pairs with it are the same. -/
theorem get?_ofPairs_congr {pairs pairs' : List (String × α)} {key : String}
    (h : (pairs.filter fun p => p.1 == key) = pairs'.filter fun p => p.1 == key) :
    get? (ofPairs pairs) key = get? (ofPairs pairs') key := by
  rw [ofPairs, ofPairs, get?_update, get?_update, ← get?_filter, ← get?_filter pairs'.reverse,
    List.filter_reverse, List.filter_reverse, h]

/-- What is written last is found. -/
theorem get?_ofPairs_append {front back : List (String × α)} {key : String} {v : α}
    (h : Only back key v) : get? (ofPairs (front ++ back)) key = some v := by
  rw [ofPairs, update_append]
  exact h.get?_update _

/-- Nothing is found under a name that is not written. -/
theorem get?_ofPairs_eq_none {pairs : List (String × α)} {key : String}
    (h : ∀ v, (key, v) ∉ pairs) : get? (ofPairs pairs) key = none := by
  refine get?_eq_none_of_not_mem fun v hv => ?_
  rcases mem_update hv with hv | hv
  · cases hv
  · exact h v hv

/-- Of two entries in a row of entries, the front one is not behind the other. -/
theorem split_of_sublist {entries : Entries α} (h : entries.keys.Nodup) {a b : String × α}
    (hsub : [a, b].Sublist entries) :
    ∃ front back, entries = front ++ back ∧ b ∈ back ∧ a ∉ back := by
  obtain ⟨front, back, rfl, ha, hb⟩ := List.cons_sublist_iff.mp hsub
  refine ⟨front, back, rfl, List.singleton_sublist.mp hb, fun ha' => ?_⟩
  rw [keys, List.map_append] at h
  exact (List.disjoint_of_nodup_append h) (List.mem_map_of_mem ha) (List.mem_map_of_mem ha')

/-- Two entries stand in a row of entries in one order or the other. -/
theorem sublist_or_sublist {entries : Entries α} {a b : String × α} (ha : a ∈ entries)
    (hb : b ∈ entries) (hne : a ≠ b) : [a, b].Sublist entries ∨ [b, a].Sublist entries := by
  obtain ⟨front, back, rfl⟩ := List.append_of_mem ha
  rcases List.mem_append.mp hb with hb | hb
  · exact Or.inr ((List.singleton_sublist.mpr hb).append
      (List.singleton_sublist.mpr List.mem_cons_self))
  · have hback : b ∈ back := (List.mem_cons.mp hb).resolve_left hne.symm
    exact Or.inl (((List.singleton_sublist.mpr hback).cons_cons a).trans
      (List.sublist_append_right front _))

end Entries

namespace Command

open Check

/-! ## The members of a command -/

/-- The members name an expression by an operation, and have query values. -/
structure ShortForm (op : Operation) (e : Value) (q others members : Entries Value) : Prop where
  nodup : members.keys.Nodup
  target : (op.name, e) ∈ members
  query : ("query", .map q) ∈ members
  others : members.without [op.name, "query"] = others

/-- The members name an operation, an expression and query values. -/
structure LongForm (op : Operation) (e : Value) (q others members : Entries Value) : Prop where
  nodup : members.keys.Nodup
  operation : ("operation", .text op.name) ∈ members
  expression : ("expression", e) ∈ members
  query : ("query", .map q) ∈ members
  others : members.without ["operation", "expression", "query"] = others

/-- None of the members is an operation, an expression or query values, in either form. -/
structure Beside (others : Entries Value) : Prop where
  names : ∀ m ∈ others, fullName m.1 ∉ ["operation", "expression", "query"]
  noTarget : ∀ m ∈ others, (Operation.ofName? m.1).isSome = true → isTarget m.2 = false

/-- What a member says where the operation is not named on its own. -/
def readShort (m : String × Value) : List (String × Value) :=
  shortMember m.1 m.2

/-- What a member says where the operation is named on its own. -/
def readLong (m : String × Value) : List (String × Value) :=
  [(fullName m.1, m.2)]

theorem renamed_eq (members : Entries Value) : renamed members =
    Entries.ofPairs (members.flatMap readLong) := by
  unfold renamed readLong
  rw [List.map_eq_flatMap]

theorem readShort_target {op : Operation} {e : Value} (h : isTarget e = true) :
    readShort (op.name, e) = [("operation", .text op.name), ("expression", e)] := by
  unfold readShort shortMember
  cases op <;> simp [Operation.name, Operation.ofName?, h]

theorem readShort_query {q : Entries Value} (h : q.has "table" = false) :
    readShort ("query", .map q) = [("query", .map q)] := by
  simp [readShort, shortMember, isTarget, h, fullName]

theorem readShort_beside {others : Entries Value} (h : Beside others) {m : String × Value}
    (hm : m ∈ others) : readShort m = readLong m := by
  unfold readShort shortMember readLong
  cases hop : (Operation.ofName? m.1).isSome with
  | false => rfl
  | true => simp [h.noTarget m hm hop]

/-- An operation other than the query has another name. -/
theorem name_ne_query {op : Operation} (h : op ≠ .query) : op.name ≠ "query" := by
  cases op with
  | query => exact absurd rfl h
  | _ => decide

/-- The name of an operation is not that of another member. -/
theorem name_not_mem (op : Operation) :
    op.name ∉ ["op", "operation", "expression"] := by
  cases op <;> decide

/-! ## What is found in the members -/

/-- A name that the members left aside do not give is found as the others give it. -/
theorem get?_flatMap_beside {f : String × Value → List (String × Value)} {names : List String}
    {others members : Entries Value} (hothers : members.without names = others)
    (hread : ∀ m ∈ others, f m = readLong m) {name : String}
    (haside : ∀ m ∈ members, m.1 ∈ names → ∀ v, (name, v) ∉ f m) :
    (Entries.ofPairs (members.flatMap f)).get? name = (renamed others).get? name := by
  rw [renamed_eq]
  refine Entries.get?_ofPairs_congr ?_
  have hsame : others.flatMap readLong = others.flatMap f :=
    List.flatMap_congr fun m hm => (hread m hm).symm
  rw [hsame, ← hothers]
  clear hothers hread hsame
  -- member by member, of which those left aside give nothing with the name
  induction members with
  | nil => rfl
  | cons m rest ih =>
    have hrest := ih fun m' hm' => haside m' (List.mem_cons_of_mem _ hm')
    by_cases hm : m.1 ∈ names
    · have hnone : ((f m).filter fun p => p.1 == name) = [] := by
        refine List.filter_eq_nil_iff.mpr fun p hp hname => ?_
        have hp' : (name, p.2) ∈ f m := by
          rw [← eq_of_beq hname]
          exact hp
        exact haside m List.mem_cons_self hm p.2 hp'
      have hskip : Entries.without names (m :: rest) = Entries.without names rest := by
        simp [Entries.without, hm]
      rw [List.flatMap_cons, List.filter_append, hnone, List.nil_append, hrest, hskip]
    · have hkeep : Entries.without names (m :: rest) = m :: Entries.without names rest := by
        simp [Entries.without, hm]
      rw [List.flatMap_cons, List.filter_append, hrest, hkeep, List.flatMap_cons,
        List.filter_append]

/-- Among members of which one names an expression by an operation, that is what they give. -/
theorem only_of_target {op : Operation} {e : Value} {members : Entries Value}
    (hmem : (op.name, e) ∈ members) (htarget : isTarget e = true)
    (hrest : ∀ m ∈ members, m ≠ (op.name, e) →
      readShort m = readLong m ∧ fullName m.1 ∉ ["operation", "expression"]) :
    Entries.Only (members.flatMap readShort) "operation" (.text op.name) ∧
      Entries.Only (members.flatMap readShort) "expression" e := by
  have hgives : ∀ name v, (name, v) ∈ members.flatMap readShort →
      (name, v) ∈ [("operation", .text op.name), ("expression", e)] ∨
        name ∉ ["operation", "expression"] := by
    intro name v hv
    obtain ⟨m, hm, hv⟩ := List.mem_flatMap.mp hv
    by_cases heq : m = (op.name, e)
    · rw [heq, readShort_target htarget] at hv
      exact Or.inl hv
    · obtain ⟨hread, hname⟩ := hrest m hm heq
      rw [hread, readLong, List.mem_singleton] at hv
      cases hv
      exact Or.inr hname
  have hoperation : ("operation", .text op.name) ∈ members.flatMap readShort :=
    List.mem_flatMap.mpr ⟨_, hmem, by simp [readShort_target htarget]⟩
  have hexpression : ("expression", e) ∈ members.flatMap readShort :=
    List.mem_flatMap.mpr ⟨_, hmem, by simp [readShort_target htarget]⟩
  exact ⟨⟨⟨_, hoperation⟩, fun w hw => by simpa using hgives _ w hw⟩,
    ⟨_, hexpression⟩, fun w hw => by simpa using hgives _ w hw⟩

/-! ## Reading the members -/

/-- A check depends on what is found under each name. -/
theorem check_congr {op : Operation} {ms ms' : Entries Value}
    (h : ∀ name, ms.get? name = ms'.get? name) : check op ms = check op ms' := by
  have hget : ms.get? = ms'.get? := funext h
  simp only [check, required, Check.optional, withDefault, pick?, hget]

/-- Members with an operation and an expression are checked for it. -/
theorem ofValue_of_found {members : Entries Value} {op : Operation} {e : Value}
    (hoperation : (fullMembers members).get? "operation" = some (.text op.name))
    (hexpression : (fullMembers members).get? "expression" = some e) (he : isTarget e = true) :
    ofValue (.map members) [] = (check op (fullMembers members)).toExcept := by
  have htruthy : (Value.text op.name).truthy = true := by cases op <;> rfl
  have hname : operationOf (.text op.name) = .ok op := by cases op <;> rfl
  have hnull : e.isNull = false := by cases e <;> first | rfl | cases he
  have hoverrides : overridesOf [] = .ok [] := rfl
  have hupdate : (fullMembers members).update [] = fullMembers members := rfl
  unfold ofValue
  rw [hoverrides]
  dsimp only [bind, Except.bind]
  rw [hupdate, hoperation, hexpression, Option.filter_some, Option.filter_some, htruthy, hnull]
  simp only [if_true, Bool.not_false, hname]

namespace ShortForm

variable {op : Operation} {e : Value} {q others members : Entries Value}

theorem cases_of_mem (h : ShortForm op e q others members) {m : String × Value} (hm : m ∈ members) :
    m = (op.name, e) ∨ m = ("query", .map q) ∨ m ∈ others := by
  obtain ⟨name, v⟩ := m
  by_cases htarget : name = op.name
  · subst htarget
    exact Or.inl (congrArg _ (Entries.eq_of_mem h.nodup hm h.target))
  · by_cases hquery : name = "query"
    · subst hquery
      exact Or.inr (Or.inl (congrArg _ (Entries.eq_of_mem h.nodup hm h.query)))
    · refine Or.inr (Or.inr ?_)
      rw [← h.others, Entries.mem_without]
      exact ⟨hm, by simp [htarget, hquery]⟩

theorem mem_of_others (h : ShortForm op e q others members) {m : String × Value}
    (hm : m ∈ others) : m ∈ members ∧ m.1 ∉ [op.name, "query"] := by
  rw [← h.others] at hm
  exact Entries.mem_without.mp hm

/-- The operation of a short form is not named on its own. -/
theorem fullMembers_eq (h : ShortForm op e q others members) (hothers : Beside others) :
    fullMembers members = Entries.ofPairs (members.flatMap readShort) := by
  have hnone : ∀ name, fullName name = "operation" → op.name ≠ name → "query" ≠ name →
      members.has name = false := by
    intro name hfull htarget hquery
    rw [Entries.has, Entries.get?_eq_none_of_not_mem]
    · rfl
    · intro v hv
      rcases h.cases_of_mem hv with heq | heq | hmem
      · exact htarget (congrArg Prod.fst heq).symm
      · exact hquery (congrArg Prod.fst heq).symm
      · exact hothers.names _ hmem (by simp [hfull])
  have hname := name_not_mem op
  simp only [List.mem_cons, not_or] at hname
  rw [fullMembers, hnone "op" rfl hname.1 (by decide), hnone "operation" rfl hname.2.1 (by decide)]
  rfl

/-- The last member that names an expression by an operation gives both. -/
theorem get?_of_last (h : ShortForm op e q others members) (hothers : Beside others)
    {front back : Entries Value} (hsplit : members = front ++ back) {o : Operation} {t : Value}
    (hmem : (o.name, t) ∈ back) (ht : isTarget t = true)
    (hrest : ∀ m ∈ back, m ≠ (o.name, t) →
      m ∈ others ∨ m = ("query", .map q) ∧ q.has "table" = false) :
    (fullMembers members).get? "operation" = some (.text o.name) ∧
      (fullMembers members).get? "expression" = some t := by
  have honly := only_of_target hmem ht fun m hm hne => by
    rcases hrest m hm hne with hbeside | ⟨rfl, hq⟩
    · have hnames := hothers.names m hbeside
      simp only [List.mem_cons, not_or] at hnames
      exact ⟨readShort_beside hothers hbeside, by simp [hnames]⟩
    · exact ⟨readShort_query hq, show fullName "query" ∉ ["operation", "expression"] by decide⟩
  rw [h.fullMembers_eq hothers, hsplit, List.flatMap_append]
  exact ⟨Entries.get?_ofPairs_append honly.1, Entries.get?_ofPairs_append honly.2⟩

/-- What the members say that are left aside. -/
theorem names_of_aside (h : ShortForm op e q others members) (he : isTarget e = true)
    {m : String × Value} (hm : m ∈ members) (haside : m.1 ∈ [op.name, "query"]) {name : String}
    {v : Value} (hv : (name, v) ∈ readShort m) :
    name = "operation" ∨ name = "expression" ∨
      q.has "table" = false ∧ name = "query" ∧ v = .map q := by
  rcases h.cases_of_mem hm with rfl | rfl | hbeside
  · rw [readShort_target he] at hv
    simp at hv
    tauto
  · cases hq : q.has "table" with
    | false =>
      rw [readShort_query hq] at hv
      simp at hv
      tauto
    | true =>
      have hread : readShort ("query", .map q) =
          [("operation", .text "query"), ("expression", .map q)] :=
        @readShort_target .query (.map q) hq
      rw [hread] at hv
      simp at hv
      tauto
  · exact absurd haside (h.mem_of_others hbeside).2

/-- Everything else is found as the other members give it. -/
theorem get?_beside (h : ShortForm op e q others members) (hothers : Beside others)
    (he : isTarget e = true) {name : String}
    (hname : name ∉ ["operation", "expression", "query"]) :
    (fullMembers members).get? name = (renamed others).get? name := by
  rw [h.fullMembers_eq hothers]
  refine get?_flatMap_beside h.others (fun m hm => readShort_beside hothers hm) ?_
  intro m hm haside v hv
  refine hname ?_
  rcases h.names_of_aside he hm haside hv with rfl | rfl | ⟨-, rfl, -⟩ <;> decide

/-- Query values are found when they hold nothing under `table`. -/
theorem get?_query (h : ShortForm op e q others members) (hothers : Beside others)
    (he : isTarget e = true) :
    (fullMembers members).get? "query" = if q.has "table" then none else some (.map q) := by
  have hgives : ∀ v, ("query", v) ∈ members.flatMap readShort →
      q.has "table" = false ∧ v = .map q := by
    intro v hv
    obtain ⟨m, hm, hv⟩ := List.mem_flatMap.mp hv
    by_cases haside : m.1 ∈ [op.name, "query"]
    · rcases h.names_of_aside he hm haside hv with heq | heq | ⟨hq, -, heq⟩
      · exact absurd heq (by decide)
      · exact absurd heq (by decide)
      · exact ⟨hq, heq⟩
    · have hbeside : m ∈ others := by
        rw [← h.others, Entries.mem_without]
        exact ⟨hm, haside⟩
      rw [readShort_beside hothers hbeside, readLong, List.mem_singleton] at hv
      have hname : "query" = fullName m.1 := congrArg Prod.fst hv
      exact absurd (by simp [← hname]) (hothers.names m hbeside)
  rw [h.fullMembers_eq hothers]
  cases hq : q.has "table" with
  | true =>
    refine Entries.get?_ofPairs_eq_none fun v hv => ?_
    cases hq.symm.trans (hgives v hv).1
  | false =>
    have hmem : ("query", .map q) ∈ members.flatMap readShort :=
      List.mem_flatMap.mpr ⟨_, h.query, by simp [readShort_query hq]⟩
    have honly : Entries.Only (members.flatMap readShort) "query" (.map q) :=
      ⟨⟨_, hmem⟩, fun v hv => (hgives v hv).2⟩
    exact honly.get?_update []

end ShortForm

namespace LongForm

variable {op : Operation} {e : Value} {q others members : Entries Value}

theorem cases_of_mem (h : LongForm op e q others members) {m : String × Value} (hm : m ∈ members) :
    m = ("operation", .text op.name) ∨ m = ("expression", e) ∨ m = ("query", .map q) ∨
      m ∈ others := by
  obtain ⟨name, v⟩ := m
  by_cases hname : name ∈ ["operation", "expression", "query"]
  · simp only [List.mem_cons, List.not_mem_nil, or_false] at hname
    rcases hname with rfl | rfl | rfl
    · exact Or.inl (congrArg _ (Entries.eq_of_mem h.nodup hm h.operation))
    · exact Or.inr (Or.inl (congrArg _ (Entries.eq_of_mem h.nodup hm h.expression)))
    · exact Or.inr (Or.inr (Or.inl (congrArg _ (Entries.eq_of_mem h.nodup hm h.query))))
  · refine Or.inr (Or.inr (Or.inr ?_))
    rw [← h.others, Entries.mem_without]
    exact ⟨hm, hname⟩

/-- The operation of a long form is named on its own. -/
theorem fullMembers_eq (h : LongForm op e q others members) :
    fullMembers members = Entries.ofPairs (members.flatMap readLong) := by
  have hhas : members.has "operation" = true :=
    Entries.has_of_mem_keys (List.mem_map_of_mem h.operation)
  rw [fullMembers, hhas, Bool.or_true, if_pos rfl, renamed_eq]

/-- What a long form names is found in it. -/
theorem get?_of_mem (h : LongForm op e q others members) (hothers : Beside others)
    {m : String × Value}
    (hm : m ∈ [("operation", .text op.name), ("expression", e), ("query", .map q)]) :
    (fullMembers members).get? m.1 = some m.2 := by
  have hmem : m ∈ members := by
    simp only [List.mem_cons, List.not_mem_nil, or_false] at hm
    rcases hm with rfl | rfl | rfl
    · exact h.operation
    · exact h.expression
    · exact h.query
  have hname : fullName m.1 = m.1 ∧ m.1 ∈ ["operation", "expression", "query"] := by
    simp only [List.mem_cons, List.not_mem_nil, or_false] at hm
    rcases hm with rfl | rfl | rfl <;> exact ⟨rfl, by simp⟩
  have honly : Entries.Only (members.flatMap readLong) m.1 m.2 := by
    refine ⟨⟨m.2, List.mem_flatMap.mpr ⟨m, hmem, by simp [readLong, hname.1]⟩⟩, fun w hw => ?_⟩
    obtain ⟨m', hm', hw⟩ := List.mem_flatMap.mp hw
    rw [readLong, List.mem_singleton] at hw
    have hsame : fullName m'.1 = m.1 := (congrArg Prod.fst hw).symm
    have hown : m'.1 = m.1 := by
      rcases h.cases_of_mem hm' with rfl | rfl | rfl | hbeside
      · exact hsame
      · exact hsame
      · exact hsame
      · exact absurd (hsame ▸ hname.2) (hothers.names m' hbeside)
    have hvalue : w = m'.2 := congrArg Prod.snd hw
    rw [hvalue]
    exact Entries.eq_of_mem h.nodup (hown ▸ hm') hmem
  rw [h.fullMembers_eq]
  exact honly.get?_update []

/-- Everything else is found as the other members give it. -/
theorem get?_beside (h : LongForm op e q others members) {name : String}
    (hname : name ∉ ["operation", "expression", "query"]) :
    (fullMembers members).get? name = (renamed others).get? name := by
  rw [h.fullMembers_eq]
  refine get?_flatMap_beside h.others (fun _ _ => rfl) fun m hm haside v hv => hname ?_
  rw [readLong, List.mem_singleton] at hv
  have hfull : fullName m.1 = m.1 := by
    simp only [List.mem_cons, List.not_mem_nil, or_false] at haside
    rcases haside with heq | heq | heq <;> rw [heq] <;> rfl
  obtain rfl : name = fullName m.1 := congrArg Prod.fst hv
  rw [hfull]
  exact haside

/-- The command of a long form is the one that its members name. -/
theorem found_of_ofValue (h : LongForm op e q others members) (hothers : Beside others)
    (he : isTarget e = true) {c : Command} (hread : ofValue (.map members) [] = .ok c) :
    c.operation = op ∧ checkTarget e = .ok c.target ∧ c.query = q := by
  have hexpression := h.get?_of_mem hothers (m := ("expression", e)) (by simp)
  have hquery := h.get?_of_mem hothers (m := ("query", .map q)) (by simp)
  rw [ofValue_of_found (h.get?_of_mem hothers (m := ("operation", .text op.name)) (by simp))
    hexpression he] at hread
  obtain ⟨hop, htarget, hfound, -⟩ := found_of_check hexpression (passes_of_toExcept hread)
  exact ⟨hop, htarget, hfound q hquery⟩

end LongForm

namespace ShortForm

variable {op : Operation} {e : Value} {q others members : Entries Value}

/-- The command of a short form whose query values hold something under `table` has no query
values. Its operation and expression are the last that are given, and the query values count as
such. -/
theorem found_of_ofValue (h : ShortForm op e q others members) (hothers : Beside others)
    (he : isTarget e = true) (hq : q.has "table" = true) {front back : Entries Value}
    (hsplit : members = front ++ back) {o : Operation} {t : Value} (hmem : (o.name, t) ∈ back)
    (ht : isTarget t = true) (hrest : ∀ m ∈ back, m ≠ (o.name, t) → m ∈ others) {c : Command}
    (hread : ofValue (.map members) [] = .ok c) :
    c.operation = o ∧ checkTarget t = .ok c.target ∧ c.query = [] := by
  obtain ⟨hoperation, hexpression⟩ := h.get?_of_last hothers hsplit hmem ht fun m hm hne =>
    Or.inl (hrest m hm hne)
  have hquery := h.get?_query hothers he
  rw [hq, if_pos rfl] at hquery
  rw [ofValue_of_found hoperation hexpression ht] at hread
  obtain ⟨hop, htarget, -, hfound⟩ := found_of_check hexpression (passes_of_toExcept hread)
  exact ⟨hop, htarget, hfound hquery⟩

end ShortForm

/-! ## Both forms -/

section

variable {op : Operation} {e : Value} {q others short long : Entries Value}

/-- Query values without a `table` make both forms one command. -/
theorem ofValue_eq_of_no_table (he : isTarget e = true) (hothers : Beside others)
    (hshort : ShortForm op e q others short) (hlong : LongForm op e q others long)
    (hq : q.has "table" = false) : ofValue (.map short) [] = ofValue (.map long) [] := by
  obtain ⟨hoperation, hexpression⟩ := hshort.get?_of_last hothers (List.nil_append _).symm
    hshort.target he fun m hm hne => by
      rcases hshort.cases_of_mem hm with heq | heq | hbeside
      · exact absurd heq hne
      · exact Or.inr ⟨heq, hq⟩
      · exact Or.inl hbeside
  have hoperation' := hlong.get?_of_mem hothers (m := ("operation", .text op.name)) (by simp)
  have hexpression' := hlong.get?_of_mem hothers (m := ("expression", e)) (by simp)
  have hquery' := hlong.get?_of_mem hothers (m := ("query", .map q)) (by simp)
  rw [ofValue_of_found hoperation hexpression he, ofValue_of_found hoperation' hexpression' he]
  -- both checks are for the same operation, and find the same under every name
  refine congrArg Check.toExcept (check_congr fun name => ?_)
  by_cases hname : name ∈ ["operation", "expression", "query"]
  · simp only [List.mem_cons, List.not_mem_nil, or_false] at hname
    rcases hname with rfl | rfl | rfl
    · exact hoperation.trans hoperation'.symm
    · exact hexpression.trans hexpression'.symm
    · rw [hquery', hshort.get?_query hothers he, hq]
      rfl
  · rw [hshort.get?_beside hothers he hname, hlong.get?_beside hname]

/-- The long form has the operation, the expression and the query values that it names. The short
form is the same command unless the query values hold something under `table`. Then they are taken
for an expression: no query values are left, and of the two members that name an expression by an
operation the last one counts. -/
theorem forms_agree (hop : op ≠ .query) (he : isTarget e = true) (hothers : Beside others)
    (hshort : ShortForm op e q others short) (hlong : LongForm op e q others long) :
    (∀ c, ofValue (.map long) [] = .ok c →
        c.operation = op ∧ checkTarget e = .ok c.target ∧ c.query = q) ∧
      (q.has "table" = false → ofValue (.map short) [] = ofValue (.map long) []) ∧
      (q.has "table" = true → ∀ c, ofValue (.map short) [] = .ok c →
        c.query = [] ∧ ofValue (.map long) [] ≠ .ok c ∧
          ([(op.name, e), ("query", .map q)].Sublist short →
            c.operation = .query ∧ checkTarget (.map q) = .ok c.target) ∧
          ([("query", .map q), (op.name, e)].Sublist short →
            c.operation = op ∧ checkTarget e = .ok c.target)) := by
  refine ⟨fun c hread => hlong.found_of_ofValue hothers he hread,
    ofValue_eq_of_no_table he hothers hshort hlong, fun hq c hread => ?_⟩
  -- the member behind the other one is the last that names an expression
  have hquery : [(op.name, e), ("query", .map q)].Sublist short →
      c.operation = .query ∧ checkTarget (.map q) = .ok c.target ∧ c.query = [] := by
    intro hsub
    obtain ⟨front, back, hsplit, hmem, hfront⟩ := Entries.split_of_sublist hshort.nodup hsub
    refine hshort.found_of_ofValue hothers he hq hsplit (o := .query) hmem hq ?_ hread
    intro m hm hne
    rcases hshort.cases_of_mem (hsplit ▸ List.mem_append_right front hm) with rfl | heq | hbeside
    · exact absurd hm hfront
    · exact absurd heq hne
    · exact hbeside
  have htarget : [("query", .map q), (op.name, e)].Sublist short →
      c.operation = op ∧ checkTarget e = .ok c.target ∧ c.query = [] := by
    intro hsub
    obtain ⟨front, back, hsplit, hmem, hfront⟩ := Entries.split_of_sublist hshort.nodup hsub
    refine hshort.found_of_ofValue hothers he hq hsplit hmem he ?_ hread
    intro m hm hne
    rcases hshort.cases_of_mem (hsplit ▸ List.mem_append_right front hm) with heq | rfl | hbeside
    · exact absurd heq hne
    · exact absurd hm hfront
    · exact hbeside
  have hnone : c.query = [] := by
    have hne : (op.name, e) ≠ ("query", Value.map q) := fun heq =>
      name_ne_query hop (congrArg Prod.fst heq)
    rcases Entries.sublist_or_sublist hshort.target hshort.query hne with hsub | hsub
    · exact (hquery hsub).2.2
    · exact (htarget hsub).2.2
  refine ⟨hnone, fun hlongRead => ?_, fun hsub => ⟨(hquery hsub).1, (hquery hsub).2.1⟩,
    fun hsub => ⟨(htarget hsub).1, (htarget hsub).2.1⟩⟩
  have hsame := (hlong.found_of_ofValue hothers he hlongRead).2.2
  rw [← hsame, hnone] at hq
  cases hq

end

theorem forms_agree_people :
    ∃ c, ofValue (.map [("query", .map [("psnID", .int 4)]), ("refresh", .bool true),
        ("list", .map [("table", .text "Person"), ("filters", .text "psnID")])]) [] = .ok c ∧
      ofValue (.map [("operation", .text "list"), ("refresh", .bool true),
        ("expression", .map [("table", .text "Person"), ("filters", .text "psnID")]),
        ("query", .map [("psnID", .int 4)])]) [] = .ok c ∧
      c.operation = .list ∧ c.refresh = true := by
  have hothers : Beside [("refresh", .bool true)] :=
    ⟨fun m hm => by rw [List.mem_singleton.mp hm]; decide,
      fun m hm hop => by rw [List.mem_singleton.mp hm] at hop; cases hop⟩
  have hshort : ShortForm .list (.map [("table", .text "Person"), ("filters", .text "psnID")])
      [("psnID", .int 4)] [("refresh", .bool true)]
      [("query", .map [("psnID", .int 4)]), ("refresh", .bool true),
        ("list", .map [("table", .text "Person"), ("filters", .text "psnID")])] :=
    ⟨by decide, by simp [Operation.name], by simp, rfl⟩
  have hlong : LongForm .list (.map [("table", .text "Person"), ("filters", .text "psnID")])
      [("psnID", .int 4)] [("refresh", .bool true)]
      [("operation", .text "list"), ("refresh", .bool true),
        ("expression", .map [("table", .text "Person"), ("filters", .text "psnID")]),
        ("query", .map [("psnID", .int 4)])] :=
    ⟨by decide, by simp [Operation.name], by simp, by simp, rfl⟩
  have hsame := (forms_agree (by decide) rfl hothers hshort hlong).2.1 rfl
  exact ⟨_, rfl, hsame.symm, rfl, rfl⟩

/-- Query values with a `table` are lost beside a deletion in short form. -/
theorem query_lost_beside_delete :
    ∃ c c', ofValue (.map [("query", .map [("table", .text "Orders"), ("id", .int 5)]),
        ("delete", .map [("table", .text "Log"), ("filters", .ofTexts ["table", "id"])])]) [] =
          .ok c ∧
      ofValue (.map [("query", .map [("table", .text "Orders"), ("id", .int 5)]),
        ("operation", .text "delete"),
        ("expression", .map [("table", .text "Log"), ("filters", .ofTexts ["table", "id"])])]) [] =
          .ok c' ∧
      c.operation = .delete ∧ c'.operation = .delete ∧ c.query = [] ∧
      c'.query = [("table", .text "Orders"), ("id", .int 5)] :=
  ⟨_, _, rfl, rfl, rfl, rfl, rfl, rfl⟩

end Command

end TableOps
