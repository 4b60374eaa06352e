import Mathlib.Data.List.DropRight
import Mathlib.Data.List.TakeWhile
import TableOps.Text.Blank

/-!
# Trimmed texts

What is left of a text without the blanks at its ends, and which texts stay as they are.

* `trim_sublist`, `not_mem_trimmed` — trimming adds no characters.
* `isBlank_head_trim`, `isBlank_getLast_trim` — what is left has no blank at its ends.
* `trim_eq_self_of_ends`, `trim_eq_self` — a text without blanks at its ends stays as it is.

Main statement: `trimmed_trimmed`, trimming a text once is enough.
-/

namespace TableOps.Text

variable {cs : List Char} {c : Char}

/-! ## What is left of a text -/

theorem trimFront_sublist (cs : List Char) : (trimFront cs).Sublist cs :=
  List.dropWhile_sublist isBlank

theorem isPrefix_trimBack (cs : List Char) : trimBack cs <+: cs :=
  List.rdropWhile_prefix isBlank cs

theorem trim_sublist (cs : List Char) : (trim cs).Sublist cs :=
  (isPrefix_trimBack _).sublist.trans (trimFront_sublist cs)

/-- Trimming adds no characters. -/
theorem trim_subset (cs : List Char) : trim cs ⊆ cs :=
  (trim_sublist cs).subset

theorem not_mem_trimmed {s : String} (h : c ∉ s.toList) : c ∉ (trimmed s).toList := by
  rw [trimmed, String.toList_ofList]
  exact fun hc => h (trim_subset _ hc)

theorem isBlank_head_trimFront (h : (trimFront cs).head? = some c) : isBlank c = false := by
  have hhead := List.head?_dropWhile_not isBlank cs
  rw [← trimFront, h] at hhead
  simpa using hhead

theorem exists_trimFront (cs : List Char) :
    ∃ blanks, (∀ c ∈ blanks, isBlank c) ∧ cs = blanks ++ trimFront cs :=
  ⟨cs.takeWhile isBlank, fun _ => List.mem_takeWhile_imp,
    (List.takeWhile_append_dropWhile (p := isBlank)).symm⟩

theorem trimFront_append {blanks : List Char} (h : ∀ c ∈ blanks, isBlank c) (cs : List Char) :
    trimFront (blanks ++ cs) = trimFront cs :=
  List.dropWhile_append_of_pos h

/-- What is left of a text by trimming does not begin with a blank. -/
theorem isBlank_head_trim (h : (trim cs).head? = some c) : isBlank c = false := by
  obtain ⟨rest, hrest⟩ := isPrefix_trimBack (trimFront cs)
  have hhead : (trimFront cs).head? = some c := by
    rw [trim] at h
    rw [← hrest, List.head?_append, h, Option.some_or]
  exact isBlank_head_trimFront hhead

/-- What is left of a text by trimming does not end in a blank. -/
theorem isBlank_getLast_trim (h : (trim cs).getLast? = some c) : isBlank c = false := by
  rw [trim, trimBack, List.getLast?_reverse] at h
  exact isBlank_head_trimFront h

/-! ## Texts that stay as they are -/

theorem trimFront_eq_self (h : ∀ c, cs.head? = some c → isBlank c = false) : trimFront cs = cs := by
  cases cs with
  | nil => rfl
  | cons c cs => exact List.dropWhile_cons_of_neg (by simp [h c rfl])

theorem trimFront_trimFront (cs : List Char) : trimFront (trimFront cs) = trimFront cs :=
  trimFront_eq_self fun _ => isBlank_head_trimFront

/-- A text that neither begins nor ends with a blank stays as it is when it is trimmed. -/
theorem trim_eq_self_of_ends (hhead : ∀ c, cs.head? = some c → isBlank c = false)
    (hlast : ∀ c, cs.getLast? = some c → isBlank c = false) : trim cs = cs := by
  rw [trim, trimFront_eq_self hhead, trimBack,
    trimFront_eq_self fun c hc => hlast c (by rwa [List.head?_reverse] at hc), List.reverse_reverse]

theorem trim_eq_self (h : ∀ c ∈ cs, isBlank c = false) : trim cs = cs :=
  trim_eq_self_of_ends (fun c hc => h c (List.mem_of_mem_head? hc))
    (fun c hc => h c (List.mem_of_getLast? hc))

/-- Trimming a text once is enough. -/
theorem trim_trim (cs : List Char) : trim (trim cs) = trim cs :=
  trim_eq_self_of_ends (fun _ => isBlank_head_trim) (fun _ => isBlank_getLast_trim)

theorem trimmed_trimmed (s : String) : trimmed (trimmed s) = trimmed s := by
  simp only [trimmed, String.toList_ofList, trim_trim]

end TableOps.Text
