import Mathlib.Data.List.Induction

/-!
# What a log leaves

A log is read from its first entry on, and behind each entry something new is known, or
nothing any more, or what was known before it.

* `Log.known_eq_self` — entries that change nothing.

Main statement: `Log.exists_of_known`, what is known was set by the last entry that changed it.
-/

namespace TableOps

namespace Log

variable {α β : Type} {f : Option β → α → Option β} {log : List α}

/-- Entries that change nothing leave what is known. -/
theorem known_eq_self {last : Option β} (h : ∀ e ∈ log, ∀ last, f last e = last) :
    log.foldl f last = last := by
  induction log with
  | nil => rfl
  | cons e log ih =>
    obtain ⟨he, hlog⟩ := List.forall_mem_cons.mp h
    rw [List.foldl_cons, he]
    exact ih hlog

/-- What is known behind a log was set by one of its entries, and none behind that changed it. -/
theorem exists_of_known {sets changes : α → Prop} {b : β}
    (hstep : ∀ last e, f last e = some b → sets e ∨ ¬ changes e ∧ last = some b)
    (h : log.foldl f none = some b) :
    ∃ before e after, log = before ++ e :: after ∧ sets e ∧ ∀ e' ∈ after, ¬ changes e' := by
  induction log using List.reverseRecOn with
  | nil => cases h
  | append_singleton log e ih =>
    rw [List.foldl_append] at h
    rcases hstep _ e h with hsets | ⟨hkeeps, h⟩
    · exact ⟨log, e, [], rfl, hsets, fun _ he => by cases he⟩
    · obtain ⟨before, e', after, rfl, hsets, hafter⟩ := ih h
      refine ⟨before, e', after ++ [e], by simp, hsets, fun e'' he => ?_⟩
      rcases List.mem_append.mp he with he | he
      · exact hafter e'' he
      · rw [List.mem_singleton.mp he]
        exact hkeeps

end Log

end TableOps
