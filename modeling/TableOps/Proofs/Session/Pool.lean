import Mathlib.Algebra.GroupWithZero.Nat
import Mathlib.Tactic.Common
import TableOps.Session.Connection

/-!
# Where driver connections are

Every driver connection that was opened is idle in one pool, held by one connection, or closed, and
nothing is left pending on one that is idle or outside a transaction. `Session.Sound` says so about a
session; `Session.Accounted` is the invariant behind it, in which a call in progress may have some
driver connections in its hands.

* `Settled` — what was executed on a driver connection was committed or rolled back.
* `Session.Sound` — the pools, the places and the pending work of a session are in order.
* `Session.Accounted` — every driver connection is counted once.
* `Session.Accounted.sound` — the second follows from the first.
-/

namespace TableOps

/-! ## Events -/

/-- The event commits or rolls back what is pending on a driver connection. -/
def Event.Ends (raw : RawId) (e : Event) : Prop :=
  e = .committed raw ∨ e = .rolledBack raw

/-- The event opens a driver connection. -/
def Event.opens (raw : RawId) : Event → Bool
  | .opened r _ => r == raw
  | _ => false

/-- The event closes a driver connection. -/
def Event.closes (raw : RawId) : Event → Bool
  | .closed r => r == raw
  | _ => false

/-- The event executes a statement on a driver connection. -/
def Event.executes (raw : RawId) : Event → Bool
  | .executed r _ _ => r == raw
  | _ => false

/-- Every statement on a driver connection is followed by a commit or a rollback. -/
def Settled (raw : RawId) (events : List Event) : Prop :=
  ∀ before e after, events = before ++ e :: after → e.executes raw →
    ∃ e' ∈ after, e'.Ends raw

namespace Settled

variable {raw : RawId} {events : List Event}

theorem of_absent (h : ∀ e ∈ events, ¬ e.executes raw) : Settled raw events := by
  rintro before e after rfl hexecutes
  exact absurd hexecutes (h e (by simp))

/-- The last event of a list stands last, or ends what is behind an earlier one. -/
theorem split_append {e e' : Event} {before after : List Event}
    (h : events ++ [e] = before ++ e' :: after) :
    (e' = e ∧ after = []) ∨ ∃ after', after = after' ++ [e] ∧ events = before ++ e' :: after' := by
  rcases List.eq_nil_or_concat after with rfl | ⟨after', last, rfl⟩
  · have hlast := (List.append_inj' h rfl).2
    injection hlast with hlast
    exact Or.inl ⟨hlast.symm, rfl⟩
  · have hassoc : before ++ e' :: (after' ++ [last]) = (before ++ e' :: after') ++ [last] := by simp
    rw [List.concat_eq_append, hassoc] at h
    obtain ⟨hevents, hlast⟩ := List.append_inj' h rfl
    injection hlast with hlast
    exact Or.inr ⟨after', by rw [hlast, List.concat_eq_append], hevents⟩

/-- A commit or a rollback settles whatever came before. -/
theorem append_ends {e : Event} (he : e.Ends raw) : Settled raw (events ++ [e]) := by
  intro before e' after h hexecutes
  rcases split_append h with ⟨rfl, rfl⟩ | ⟨after', rfl, hevents⟩
  · rcases he with rfl | rfl <;> cases hexecutes
  · exact ⟨e, by simp, he⟩

/-- Events that execute nothing on a driver connection leave it settled. -/
theorem append (h : Settled raw events) {e : Event} (he : ¬ e.executes raw) :
    Settled raw (events ++ [e]) := by
  intro before e' after hsplit hexecutes
  rcases split_append hsplit with ⟨rfl, rfl⟩ | ⟨after', rfl, hevents⟩
  · exact absurd hexecutes he
  · obtain ⟨e'', hmem, hends⟩ := h before e' after' hevents hexecutes
    exact ⟨e'', List.mem_append_left _ hmem, hends⟩

end Settled

/-! ## Places -/

/-- How often a connection that is not released holds a driver connection. -/
def Connection.holds (raw : RawId) (c : Connection) : Nat :=
  if !c.released && c.raw == raw then 1 else 0

namespace Session

/-- How often a driver connection is idle. -/
def idleCount (s : Session) (raw : RawId) : Nat :=
  (s.databases.map fun d => d.idle.count raw).sum

/-- How often a driver connection is held. -/
def heldCount (s : Session) (raw : RawId) : Nat :=
  (s.connections.map (Connection.holds raw)).sum

/-- How often a driver connection was closed. -/
def closedCount (s : Session) (raw : RawId) : Nat :=
  s.server.events.countP (Event.closes raw)

/-- How often a driver connection was opened. -/
def openedCount (s : Session) (raw : RawId) : Nat :=
  s.server.events.countP (Event.opens raw)

/-- A connection that is not released has the driver connection. -/
def Holds (s : Session) (c : ConnectionId) (raw : RawId) : Prop :=
  (s.connection c).released = false ∧ (s.connection c).raw = raw

/-- The driver connection is idle in one database, held by one connection, or closed. -/
def InOnePlace (s : Session) (raw : RawId) : Prop :=
  ((∃! d : DatabaseId, raw ∈ (s.database d).idle) ∧ (∀ c, ¬ s.Holds c raw) ∧
      Event.closed raw ∉ s.server.events) ∨
    ((∀ d : DatabaseId, raw ∉ (s.database d).idle) ∧ (∃! c, s.Holds c raw) ∧
      Event.closed raw ∉ s.server.events) ∨
    ((∀ d : DatabaseId, raw ∉ (s.database d).idle) ∧ (∀ c, ¬ s.Holds c raw) ∧
      Event.closed raw ∈ s.server.events)

/-- The driver connections of a session are in order. -/
structure Sound (s : Session) : Prop where
  nodup_idle : ∀ d : DatabaseId, (s.database d).idle.Nodup
  length_idle : ∀ d : DatabaseId,
    ((s.database d).idle.length : Int) ≤ max (s.database d).poolSize 0
  idle_of_closed : ∀ d : DatabaseId, (s.database d).closed → (s.database d).idle = []
  inOnePlace : ∀ raw arguments, Event.opened raw arguments ∈ s.server.events → s.InOnePlace raw
  settled_idle : ∀ (d : DatabaseId), ∀ raw ∈ (s.database d).idle, Settled raw s.server.events
  settled_held : ∀ (c : ConnectionId) (raw : RawId), s.Holds c raw → (s.connection c).level = 0 →
    Settled raw s.server.events

/-- Every driver connection is counted once: in a pool, in a connection, among the closed ones, or
among those that a call in progress has in its `hands`. Statements may only be `pending` where a call
in progress is about to commit or roll them back. -/
structure Accounted (hands pending : List RawId) (s : Session) : Prop where
  /-- Each one is in as many places as it was opened. -/
  places : ∀ raw, hands.count raw + s.idleCount raw + s.heldCount raw + s.closedCount raw =
    s.openedCount raw
  /-- Driver connections are numbered from 1 on, each opened once. -/
  numbered : ∀ raw, s.openedCount raw = if 1 ≤ raw ∧ raw ≤ s.server.opened then 1 else 0
  /-- Nothing was executed on one that was not opened. -/
  known : ∀ raw, s.server.opened < raw → ∀ e ∈ s.server.events, ¬ e.executes raw
  pools : ∀ d ∈ s.databases, (d.idle.length : Int) ≤ max d.poolSize 0 ∧ (d.closed → d.idle = [])
  /-- Nothing else is pending outside a transaction. -/
  settled : ∀ raw ∉ pending, 0 < hands.count raw + s.idleCount raw ∨
    (∃ c ∈ s.connections, c.released = false ∧ c.raw = raw ∧ c.level = 0) →
    Settled raw s.server.events

end Session

/-! ## Counting over a list -/

section Counting

variable {α : Type}

/-- A sum over a list of which one item is changed. -/
theorem sum_map_modify (g : α → Nat) (f : α → α) {a : α} :
    ∀ (l : List α) (i : Nat), l[i]? = some a →
      ((l.modify i f).map g).sum + g a = (l.map g).sum + g (f a)
  | [], i, h => by simp at h
  | b :: l, 0, h => by
    rw [List.getElem?_cons_zero, Option.some.injEq] at h
    rw [List.modify_zero_cons, h]
    simp only [List.map_cons, List.sum_cons]
    omega
  | b :: l, i + 1, h => by
    rw [List.getElem?_cons_succ] at h
    have ih := sum_map_modify g f l i h
    rw [List.modify_succ_cons]
    simp only [List.map_cons, List.sum_cons]
    omega

/-- A change that does not show leaves what is read off the items. -/
theorem map_modify_eq {γ : Type} {g : α → γ} {f : α → α} (h : ∀ a, g (f a) = g a) (l : List α)
    (i : Nat) : (l.modify i f).map g = l.map g := by
  apply List.ext_getElem?
  intro j
  rw [List.getElem?_map, List.getElem?_modify, List.getElem?_map]
  cases l[j]? with
  | none => rfl
  | some a => by_cases hij : i = j <;> simp [hij, h]

/-- One item is a part of the sum. -/
theorem le_sum_map (g : α → Nat) {a : α} {l : List α} {i : Nat} (h : l[i]? = some a) :
    g a ≤ (l.map g).sum := by
  induction l generalizing i with
  | nil => simp at h
  | cons b l ih =>
    simp only [List.map_cons, List.sum_cons]
    cases i with
    | zero =>
      rw [List.getElem?_cons_zero, Option.some.injEq] at h
      rw [h]
      omega
    | succ i =>
      rw [List.getElem?_cons_succ] at h
      have := ih h
      omega

/-- Two items are two parts of the sum. -/
theorem add_le_sum_map (g : α → Nat) {a b : α} {l : List α} {i j : Nat} (hij : i < j)
    (hi : l[i]? = some a) (hj : l[j]? = some b) : g a + g b ≤ (l.map g).sum := by
  induction l generalizing i j with
  | nil => simp at hi
  | cons c l ih =>
    simp only [List.map_cons, List.sum_cons]
    obtain ⟨j, rfl⟩ : ∃ k, j = k + 1 := ⟨j - 1, by omega⟩
    rw [List.getElem?_cons_succ] at hj
    cases i with
    | zero =>
      rw [List.getElem?_cons_zero, Option.some.injEq] at hi
      have := le_sum_map g hj
      rw [hi]
      omega
    | succ i =>
      rw [List.getElem?_cons_succ] at hi
      have := ih (by omega) hi hj
      omega

/-- A sum that is not 0 has an item that is not 0. -/
theorem exists_of_sum_map_pos (g : α → Nat) {l : List α} (h : 0 < (l.map g).sum) :
    ∃ (i : Nat) (a : α), l[i]? = some a ∧ 0 < g a := by
  induction l with
  | nil => simp at h
  | cons b l ih =>
    simp only [List.map_cons, List.sum_cons] at h
    by_cases hb : 0 < g b
    · exact ⟨0, b, rfl, hb⟩
    · obtain ⟨i, a, hi, ha⟩ := ih (by omega)
      exact ⟨i + 1, a, by rw [List.getElem?_cons_succ, hi], ha⟩

/-- What holds of all items, and of a changed one, holds after the change. -/
theorem forall_mem_modify {P : α → Prop} {f : α → α} {l : List α} {i : Nat}
    (h : ∀ a ∈ l, P a) (hf : ∀ a, l[i]? = some a → P (f a)) : ∀ a ∈ l.modify i f, P a := by
  intro a ha
  obtain ⟨j, hj⟩ := List.mem_iff_getElem?.mp ha
  rw [List.getElem?_modify] at hj
  obtain ⟨b, hb, rfl⟩ := Option.map_eq_some_iff.mp hj
  by_cases hij : i = j
  · subst hij
    rw [if_pos rfl]
    exact hf b hb
  · rw [if_neg hij]
    exact h b (List.mem_of_getElem? hb)

/-- When a sum is 0, nothing counts at any index. -/
theorem not_pos_of_sum_map_eq_zero {g : α → Nat} {l : List α} {z : α} (hz : g z = 0)
    (h : (l.map g).sum = 0) (i : Nat) : ¬ 0 < g (l.getD i z) := by
  rw [List.getD_eq_getElem?_getD]
  cases hi : l[i]? with
  | none => simp [hz]
  | some a =>
    have hle := le_sum_map g hi
    simp only [Option.getD_some]
    omega

/-- When a sum is 1, exactly one index counts. -/
theorem existsUnique_of_sum_map_eq_one {g : α → Nat} {l : List α} {z : α} (hz : g z = 0)
    (h : (l.map g).sum = 1) : ∃! i : Nat, 0 < g (l.getD i z) := by
  obtain ⟨i, a, hi, ha⟩ := exists_of_sum_map_pos g (l := l) (by omega)
  refine ⟨i, by simpa [List.getD_eq_getElem?_getD, hi] using ha, fun j hj => ?_⟩
  simp only [List.getD_eq_getElem?_getD] at hj
  cases hb : l[j]? with
  | none => simp [hb, hz] at hj
  | some b =>
    rw [hb, Option.getD_some] at hj
    -- a second index would make the sum 2
    rcases Nat.lt_trichotomy i j with hij | hij | hij
    · have := add_le_sum_map g hij hi hb
      omega
    · exact hij.symm
    · have := add_le_sum_map g hij hb hi
      omega

end Counting

/-! ## The invariant and what it says -/

namespace Session

variable {s : Session} {raw : RawId}

theorem holds_pos_iff {c : Connection} :
    0 < c.holds raw ↔ c.released = false ∧ c.raw = raw := by
  unfold Connection.holds
  cases c.released with
  | true => simp
  | false => by_cases h : c.raw = raw <;> simp [h]

theorem existsUnique_idle (h : s.idleCount raw = 1) :
    ∃! d : DatabaseId, raw ∈ (s.database d).idle := by
  obtain ⟨i, hi, hunique⟩ := existsUnique_of_sum_map_eq_one (z := noDatabase) (by rfl) h
  refine ⟨⟨i⟩, List.count_pos_iff.mp hi, fun d hd => ?_⟩
  have hindex := hunique d.index (List.count_pos_iff.mpr hd)
  cases d
  cases hindex
  rfl

theorem not_idle (h : s.idleCount raw = 0) (d : DatabaseId) : raw ∉ (s.database d).idle := by
  have hcount := not_pos_of_sum_map_eq_zero (z := noDatabase) (by rfl) h d.index
  exact fun hmem => hcount (List.count_pos_iff.mpr hmem)

theorem existsUnique_holds (h : s.heldCount raw = 1) : ∃! c, s.Holds c raw := by
  obtain ⟨i, hi, hunique⟩ := existsUnique_of_sum_map_eq_one (z := noConnection) (by rfl) h
  refine ⟨⟨i⟩, holds_pos_iff.mp hi, fun c hc => ?_⟩
  have hindex := hunique c.index (holds_pos_iff.mpr hc)
  cases c
  cases hindex
  rfl

theorem not_holds (h : s.heldCount raw = 0) (c : ConnectionId) : ¬ s.Holds c raw := by
  have hcount := not_pos_of_sum_map_eq_zero (z := noConnection) (by rfl) h c.index
  exact fun hholds => hcount (holds_pos_iff.mpr hholds)

theorem closed_mem_iff : Event.closed raw ∈ s.server.events ↔ 0 < s.closedCount raw := by
  unfold closedCount
  rw [List.countP_pos_iff]
  constructor
  · intro h
    exact ⟨_, h, by simp [Event.closes]⟩
  · rintro ⟨e, he, hcloses⟩
    cases e <;> simp [Event.closes] at hcloses
    rw [← hcloses]
    exact he

theorem openedCount_pos {arguments : Option (Entries Value)}
    (h : Event.opened raw arguments ∈ s.server.events) : 0 < s.openedCount raw :=
  List.countP_pos_iff.mpr ⟨_, h, by simp [Event.opens]⟩

/-- The database of a number is one of the databases, or none. -/
theorem database_cases (s : Session) (d : DatabaseId) :
    s.databases[d.index]? = some (s.database d) ∨ s.database d = noDatabase := by
  unfold database
  rw [List.getD_eq_getElem?_getD]
  cases h : s.databases[d.index]? with
  | none => exact Or.inr rfl
  | some x => exact Or.inl rfl

theorem connection_cases (s : Session) (c : ConnectionId) :
    s.connections[c.index]? = some (s.connection c) ∨ s.connection c = noConnection := by
  unfold connection
  rw [List.getD_eq_getElem?_getD]
  cases h : s.connections[c.index]? with
  | none => exact Or.inr rfl
  | some x => exact Or.inl rfl

/-- A connection that is not released is counted for its driver connection. -/
theorem heldCount_pos {c : ConnectionId} (h : (s.connection c).released = false) :
    0 < s.heldCount (s.connection c).raw := by
  rcases connection_cases s c with hc | hc
  · have hholds : 0 < (s.connection c).holds (s.connection c).raw := holds_pos_iff.mpr ⟨h, rfl⟩
    exact Nat.lt_of_lt_of_le hholds (le_sum_map (Connection.holds (s.connection c).raw) hc)
  · rw [hc] at h
    cases h

namespace Accounted

/-- No driver connection is opened twice. -/
theorem openedCount_le {hands pending : List RawId} (h : s.Accounted hands pending) (raw : RawId) :
    s.openedCount raw ≤ 1 := by
  rw [h.numbered raw]
  split <;> omega

theorem idle_le (s : Session) (d : DatabaseId) (raw : RawId) :
    (s.database d).idle.count raw ≤ s.idleCount raw := by
  rcases database_cases s d with hd | hd
  · exact le_sum_map (fun d => d.idle.count raw) hd
  · rw [hd]
    exact Nat.zero_le _

/-- What is accounted for is in order. -/
theorem sound (h : s.Accounted [] []) : s.Sound where
  nodup_idle d := by
    refine List.nodup_iff_count.mpr fun raw => ?_
    have hidle := idle_le s d raw
    have hplaces := h.places raw
    have hopened := h.openedCount_le raw
    omega
  length_idle d := by
    rcases database_cases s d with hd | hd
    · exact (h.pools _ (List.mem_of_getElem? hd)).1
    · rw [hd]
      decide
  idle_of_closed d := by
    rcases database_cases s d with hd | hd
    · exact (h.pools _ (List.mem_of_getElem? hd)).2
    · rw [hd]
      exact fun _ => rfl
  inOnePlace raw arguments hmem := by
    have hpos := openedCount_pos hmem
    have hopened := h.openedCount_le raw
    have hplaces := h.places raw
    rw [List.count_nil] at hplaces
    unfold InOnePlace
    rw [closed_mem_iff]
    -- it was opened once, so that the three counts add up to 1
    by_cases hidle : s.idleCount raw = 1
    · exact Or.inl ⟨existsUnique_idle hidle, not_holds (by omega), by omega⟩
    · by_cases hheld : s.heldCount raw = 1
      · exact Or.inr (Or.inl ⟨not_idle (by omega), existsUnique_holds hheld, by omega⟩)
      · exact Or.inr (Or.inr ⟨not_idle (by omega), not_holds (by omega), by omega⟩)
  settled_idle d raw hraw := by
    have hidle := idle_le s d raw
    have hcount := List.count_pos_iff.mpr hraw
    refine h.settled raw List.not_mem_nil (Or.inl ?_)
    omega
  settled_held c raw hholds hlevel := by
    rcases connection_cases s c with hc | hc
    · refine h.settled raw List.not_mem_nil (Or.inr ?_)
      exact ⟨_, List.mem_of_getElem? hc, hholds.1, hholds.2, hlevel⟩
    · rw [Holds, hc] at hholds
      cases hholds.1

end Accounted

end Session

end TableOps
