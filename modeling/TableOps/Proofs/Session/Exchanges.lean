import TableOps.Proofs.Session.HeldConnection

/-!
# Statements and their answers

The driver answers statements in the order in which they are sent. What was asked of it and the
answers that it had to give therefore say together how every statement was answered.

* `Exchange` — a statement that was sent, and its answer.
* `exchanges`, `remaining` — what was exchanged in some events, and the answers that are left then.
* `Session.Proceeds` — a later session has asked for more, and was answered in order.
* `Session.exchanges` — what was exchanged between two sessions.
* `ConnectionId.view_exchange` — a statement on a connection.

Main statement: `Session.Proceeds.exchanges_trans`, what is exchanged by calls in a row.
-/

namespace TableOps

/-- A statement that was sent to a driver connection, and its answer. -/
structure Exchange where
  raw : RawId
  statement : Value
  values : List Value
  reply : Reply
  deriving Repr

/-- What was exchanged in some events, when the statements were answered by `replies` in order. -/
def exchanges : List Event → List Reply → List Exchange
  | [], _ => []
  | .executed raw statement values :: events, replies =>
    ⟨raw, statement, values, replies.headD .nothing⟩ :: exchanges events replies.tail
  | _ :: events, replies => exchanges events replies

/-- The answers that are left after some events. -/
def remaining : List Event → List Reply → List Reply
  | [], replies => replies
  | .executed .. :: events, replies => remaining events replies.tail
  | _ :: events, replies => remaining events replies

theorem exchanges_append (first rest : List Event) (replies : List Reply) :
    exchanges (first ++ rest) replies =
      exchanges first replies ++ exchanges rest (remaining first replies) := by
  induction first generalizing replies with
  | nil => rfl
  | cons e first ih =>
    cases e with
    | executed raw statement values => exact congrArg (_ :: ·) (ih replies.tail)
    | _ => exact ih replies

theorem remaining_append (first rest : List Event) (replies : List Reply) :
    remaining (first ++ rest) replies = remaining rest (remaining first replies) := by
  induction first generalizing replies with
  | nil => rfl
  | cons e first ih =>
    cases e with
    | executed raw statement values => exact ih replies.tail
    | _ => exact ih replies

theorem exchanges_eq_nil {events : List Event}
    (h : ∀ raw statement values, Event.executed raw statement values ∉ events)
    (replies : List Reply) : exchanges events replies = [] := by
  induction events with
  | nil => rfl
  | cons e events ih =>
    have hrest := ih fun raw statement values hmem =>
      h raw statement values (List.mem_cons_of_mem _ hmem)
    cases e with
    | executed raw statement values => exact absurd List.mem_cons_self (h raw statement values)
    | _ => exact hrest

namespace Session

variable {s t u : Session}

/-- From a session to a later one: more was asked of the driver, which answered in order. -/
def Proceeds (s t : Session) : Prop :=
  ∃ added, t.server.events = s.server.events ++ added ∧
    t.server.replies = remaining added s.server.replies

/-- What was exchanged from a session to a later one. -/
def exchanges (s t : Session) : List Exchange :=
  TableOps.exchanges (t.server.events.drop s.server.events.length) s.server.replies

theorem proceeds_of_eq (hevents : t.server.events = s.server.events)
    (hreplies : t.server.replies = s.server.replies) : s.Proceeds t :=
  ⟨[], by rw [hevents, List.append_nil], hreplies⟩

theorem chained_proceeds : Chained Proceeds where
  refl s := proceeds_of_eq rfl rfl
  trans := by
    rintro s t u ⟨first, ht, hreplies⟩ ⟨rest, hu, hreplies'⟩
    refine ⟨first ++ rest, by rw [hu, ht, List.append_assoc], ?_⟩
    rw [hreplies', hreplies, remaining_append]

/-- What was exchanged is read off the events that were added. -/
theorem exchanges_eq {added : List Event} (h : t.server.events = s.server.events ++ added) :
    s.exchanges t = TableOps.exchanges added s.server.replies := by
  rw [exchanges, h, List.drop_left]

theorem exchanges_of_eq (h : t.server.events = s.server.events) : s.exchanges t = [] := by
  have hnone : t.server.events = s.server.events ++ [] := by rw [h, List.append_nil]
  exact exchanges_eq hnone

/-- Calls in a row exchange what each of them does. -/
theorem Proceeds.exchanges_trans (hst : s.Proceeds t) (htu : t.Proceeds u) :
    s.exchanges u = s.exchanges t ++ t.exchanges u := by
  obtain ⟨first, ht, hreplies⟩ := hst
  obtain ⟨rest, hu, -⟩ := htu
  have hall : u.server.events = s.server.events ++ (first ++ rest) := by
    rw [hu, ht, List.append_assoc]
  rw [exchanges_eq hall, exchanges_eq ht, exchanges_eq hu, hreplies, exchanges_append]

end Session

/-! ## On one connection -/

namespace View

variable {c : ConnectionId} {x y : Connection} {events added : List Event}
  {replies : List Reply} {s t : Session}

/-- Every session is seen as it stands. -/
theorem self (c : ConnectionId) (s : Session) :
    View c (s.connection c) s.server.events s.server.replies s :=
  ⟨rfl, rfl, rfl⟩

/-- What a connection has asked for since it was seen, answered in order. -/
theorem proceeds (hs : View c x events replies s)
    (ht : View c y (events ++ added) (remaining added replies) t) : s.Proceeds t :=
  ⟨added, by rw [ht.events, hs.events], by rw [ht.replies, hs.replies]⟩

theorem exchanges_eq (hs : View c x events replies s)
    (ht : View c y (events ++ added) (remaining added replies) t) :
    s.exchanges t = TableOps.exchanges added replies := by
  rw [Session.exchanges_eq (ht.events.trans (by rw [hs.events])), hs.replies]

end View

/-- A statement that is run on a connection that is held is all that is exchanged, and its answer is
its result. -/
theorem ConnectionId.view_exchange {c : ConnectionId} {x : Connection} {events : List Event}
    {replies : List Reply} (hreleased : x.released = false) (statement : Value)
    (values : List Value) :
    Leads (View c x events replies) (c.queryRaw statement values).run fun r s =>
      r = (replies.headD .nothing).result ∧ ∃ added,
        exchanges added replies = [⟨x.raw, statement, values, replies.headD .nothing⟩] ∧
        View c x (events ++ added) (remaining added replies) s := by
  intro s hs
  obtain ⟨hr, ending, hending, hview⟩ := view_queryRaw hreleased statement values s hs
  have hquiet : exchanges ending replies.tail = [] ∧ remaining ending replies.tail = replies.tail := by
    rcases hending with rfl | rfl | rfl <;> exact ⟨rfl, rfl⟩
  refine ⟨hr, .executed x.raw statement values :: ending, ?_, ?_⟩
  · rw [exchanges, hquiet.1]
  · rw [remaining, hquiet.2]
    exact hview

end TableOps
