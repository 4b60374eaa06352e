import TableOps.Command.Reading
import TableOps.Proofs.Entries
import TableOps.Proofs.Except

/-!
# Reading short commands

A command that is written as an operation with an expression, and with members given beside it.

* `Check.passes_of_seq`, `Check.passes_of_map` — checks that are put together.
* `Command.ofValue_short` — the operation, the expression and the query of a short command.
-/

namespace TableOps

namespace Check

variable {α β : Type}

/-- Two checks in a row pass when both do. -/
theorem passes_of_seq {f : Check (α → β)} {x : Check α} {b : β} (h : f <*> x = .ok b) :
    ∃ g a, f = .ok g ∧ x = .ok a ∧ g a = b := by
  cases f with
  | ok g =>
    cases x with
    | ok a =>
      cases h
      exact ⟨g, a, rfl, rfl, rfl⟩
    | problems ps => cases h
    | failed e => cases h
  | problems ps => cases x <;> cases h
  | failed e => cases h

theorem passes_of_map {f : α → β} {x : Check α} {b : β} (h : f <$> x = .ok b) :
    ∃ a, x = .ok a ∧ f a = b := by
  cases x with
  | ok a =>
    cases h
    exact ⟨a, rfl, rfl⟩
  | problems ps => cases h
  | failed e => cases h

theorem passes_of_within {place : Place} {x : Check α} {a : α} (h : within place x = .ok a) :
    x = .ok a := by
  cases x with
  | ok a' => exact h
  | problems ps => cases h
  | failed f => cases h

theorem passes_of_toExcept {x : Check α} {a : α} (h : x.toExcept = .ok a) : x = .ok a := by
  cases x with
  | ok a' =>
    cases h
    rfl
  | problems ps => cases h
  | failed f => cases h

/-- A mapping whose members may be anything passes as it stands. -/
theorem membersOf_any (members : List (String × Value)) : membersOf any members = .ok members := by
  induction members with
  | nil => rfl
  | cons member rest ih =>
    obtain ⟨k, v⟩ := member
    rw [membersOf, ih]
    rfl

end Check

namespace Command

open Check

/-- The parts of a checked command. -/
theorem parts_of_check {op : Operation} {ms : Entries Value} {c : Command}
    (h : check op ms = .ok c) :
    c.operation = op ∧ Check.required ["expression"] checkTarget ms = .ok c.target ∧
      Check.withDefault ["query"] [] checkQuery ms = .ok c.query := by
  unfold check at h
  -- the members are checked in a row, the last one outermost
  obtain ⟨f8, debug, hf8, hdebug, rfl⟩ := passes_of_seq h
  obtain ⟨f7, schema, hf7, hschema, rfl⟩ := passes_of_seq hf8
  obtain ⟨f6, refresh, hf6, hrefresh, rfl⟩ := passes_of_seq hf7
  obtain ⟨f5, connection, hf5, hconnection, rfl⟩ := passes_of_seq hf6
  obtain ⟨f4, fields, hf4, hfields, rfl⟩ := passes_of_seq hf5
  obtain ⟨f3, page, hf3, hpage, rfl⟩ := passes_of_seq hf4
  obtain ⟨f2, query, hf2, hquery, rfl⟩ := passes_of_seq hf3
  obtain ⟨f1, data, hf1, hdata, rfl⟩ := passes_of_seq hf2
  obtain ⟨target, htarget, rfl⟩ := passes_of_map hf1
  exact ⟨rfl, htarget, hquery⟩

/-- An operation that is written as the name of its expression. -/
theorem fullMembers_short (op : Operation) (id : ExpressionId) :
    fullMembers [(op.name, .expression id)] =
      [("operation", .text op.name), ("expression", .expression id)] := by
  cases op <;> rfl

theorem checkQuery_map (q : Entries Value) : checkQuery (.map q) = .ok q := by
  rw [checkQuery, orNull, mapping, membersOf_any]
  · rfl
  · exact fun hnull => by cases hnull

/-- The operation, the expression and the query values of a checked command. -/
theorem found_of_check {op : Operation} {e : Value} {ms : Entries Value} {c : Command}
    (hexpression : ms.get? "expression" = some e) (h : check op ms = .ok c) :
    c.operation = op ∧ checkTarget e = .ok c.target ∧
      (∀ q, ms.get? "query" = some (.map q) → c.query = q) ∧
      (ms.get? "query" = none → c.query = []) := by
  obtain ⟨hop, htarget, hquery⟩ := parts_of_check h
  have hpick : pick? ["expression"] ms = some ("expression", e) := by
    simp [pick?, hexpression]
  rw [Check.required, hpick] at htarget
  refine ⟨hop, passes_of_within htarget, fun q hq => ?_, fun hnone => ?_⟩
  · have hpick' : pick? ["query"] ms = some ("query", .map q) := by
      simp [pick?, hq]
    rw [Check.withDefault, hpick'] at hquery
    injection (checkQuery_map q).symm.trans (passes_of_within hquery) with hsame
    exact hsame.symm
  · have hpick' : pick? ["query"] ms = none := by
      simp [pick?, hnone]
    rw [Check.withDefault, hpick'] at hquery
    injection hquery with hsame
    exact hsame.symm

/-- Members beside a short command that replace neither its operation nor its expression leave both
as they are, and give its query. -/
theorem ofValue_short {op : Operation} {id : ExpressionId} {written : Entries Value}
    {query : Entries Value} {c : Command}
    (hkept : ∀ name v, (name, v) ∈ written →
      fullName name ≠ "operation" ∧ fullName name ≠ "expression")
    (hquery : Entries.Only (written.map fun (name, v) => (fullName name, v)) "query" (.map query))
    (h : ofValue (.map [(op.name, .expression id)]) written = .ok c) :
    c.operation = op ∧ c.target = .shared id ∧ c.query = query := by
  unfold ofValue at h
  obtain ⟨overrides, hoverrides, h⟩ := ok_of_bind h
  have hrenamed : overrides = renamed written := by
    unfold overridesOf at hoverrides
    split at hoverrides
    · cases hoverrides
    · cases hoverrides
      rfl
  subst hrenamed
  -- what the short command says itself is still found, since nothing is written over it
  have hown : ∀ name, (∀ w, (name, w) ∉ written.map fun (k, v) => (fullName k, v)) →
      Entries.get? ((fullMembers [(op.name, .expression id)]).update (renamed written)) name =
        Entries.get? [("operation", .text op.name), ("expression", .expression id)] name := by
    intro name hname
    have habsent : Entries.get? (renamed written).reverse name = none := by
      apply Entries.get?_eq_none_of_not_mem
      intro w hw
      rcases Entries.mem_update (List.mem_reverse.mp hw) with hw | hw
      · cases hw
      · exact hname w hw
    rw [Entries.get?_update, habsent, Option.none_or, fullMembers_short]
  have hoperation := hown "operation" (by
    intro w hw
    obtain ⟨p, hp, heq⟩ := List.mem_map.mp hw
    exact (hkept p.1 p.2 hp).1 (congrArg Prod.fst heq))
  have hexpression := hown "expression" (by
    intro w hw
    obtain ⟨p, hp, heq⟩ := List.mem_map.mp hw
    exact (hkept p.1 p.2 hp).2 (congrArg Prod.fst heq))
  have hfound := hquery.ofPairs.get?_update (fullMembers [(op.name, .expression id)])
  simp only [Entries.get?, if_true, String.reduceEq, if_false] at hoperation hexpression
  have htruthy : (Value.text op.name).truthy = true := by cases op <;> rfl
  have hname : operationOf (.text op.name) = .ok op := by cases op <;> rfl
  simp only [hoperation, hexpression, Option.filter, htruthy, if_true] at h
  have hstep : (operationOf (.text op.name) >>= fun op' =>
      (check op' ((fullMembers [(op.name, .expression id)]).update
        (renamed written))).toExcept) = .ok c := h
  rw [hname] at hstep
  have hcheck : (check op ((fullMembers [(op.name, .expression id)]).update
      (renamed written))).toExcept = .ok c := hstep
  obtain ⟨hop, htarget, hquery', -⟩ := found_of_check hexpression (passes_of_toExcept hcheck)
  injection htarget with htarget
  exact ⟨hop, htarget.symm, hquery' query hfound⟩

end Command

end TableOps
