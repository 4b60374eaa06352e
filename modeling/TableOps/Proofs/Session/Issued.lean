import TableOps.Proofs.Session.StepEffect

/-!
# The statements that a call sends

What was asked of the server is never forgotten, so that the statements a call sends are those that
stand behind the earlier ones afterwards.

* `Session.Issues` — every statement sent between two sessions is of some kind.
* `Session.issues_stepEffects` — single steps send allowed statements only.
-/

namespace TableOps.Session

/-- Between two sessions, the first of which is the earlier one, only statements with a property
were sent. -/
def Issues (allowed : Value → Prop) (s s' : Session) : Prop :=
  ∃ events, s'.server.events = s.server.events ++ events ∧
    ∀ raw statement values, Event.executed raw statement values ∈ events → allowed statement

variable {allowed : Value → Prop}

theorem issues_of_eq {s s' : Session} (h : s'.server.events = s.server.events) :
    Issues allowed s s' :=
  ⟨[], by rw [h, List.append_nil], by simp⟩

theorem chained_issues : Chained (Issues allowed) where
  refl s := issues_of_eq rfl
  trans := by
    rintro s t u ⟨events, ht, hevents⟩ ⟨events', hu, hevents'⟩
    refine ⟨events ++ events', by rw [hu, ht, List.append_assoc], ?_⟩
    intro raw statement values hmem
    rcases List.mem_append.mp hmem with hmem | hmem
    · exact hevents raw statement values hmem
    · exact hevents' raw statement values hmem

theorem issues_emit {e : Event}
    (h : ∀ raw statement values, e = .executed raw statement values → allowed statement) :
    Within (Issues allowed) (emit e) := by
  intro s
  refine ⟨[e], rfl, fun raw statement values hmem => h raw statement values ?_⟩
  exact (List.mem_singleton.mp hmem).symm

/-- Single steps send allowed statements only. -/
theorem issues_stepEffects (allowed : Value → Prop) : StepEffects (Issues allowed) allowed where
  toChained := chained_issues
  executed raw _ values h := issues_emit fun _ _ _ he => by
    cases he
    exact h
  quiet e h := issues_emit fun raw statement values he => absurd he (h raw statement values)
  openRaw _ := .openRaw chained_issues (fun _ _ => issues_of_eq rfl)
    fun _ => issues_emit fun _ _ _ he => by cases he
  nextReply := .nextReply chained_issues fun _ _ => issues_of_eq rfl
  note := .note chained_issues fun _ _ => issues_of_eq rfl
  updateConnection _ _ _ := issues_of_eq rfl
  addConnection _ _ := issues_of_eq rfl
  idle _ _ _ := issues_of_eq rfl
  schemas _ _ _ := issues_of_eq rfl
  updateCache _ _ _ := issues_of_eq rfl
  addCache _ := issues_of_eq rfl
  addShared _ _ _ := issues_of_eq rfl
  updateShared _ _ _ := issues_of_eq rfl

end TableOps.Session
