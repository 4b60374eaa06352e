/-!
# Cutting at a character

* `cutFirst?`, `cutLast?` — the texts before and after the first or the last occurrence.
* `splitOn` — all the texts between occurrences; there is always at least one.
* `doubled`, `halved` — a character written twice for each time it stands, and two of it in a row
  written once.
* `contains` — a text as a stretch of another.

Main statements: `halved_doubled`, halving undoes doubling; `intercalate_splitOn`, cutting loses
nothing.
-/

namespace TableOps.Text

/-- The characters before and after the first `sep`. -/
def cutFirst? (sep : Char) : List Char → Option (List Char × List Char)
  | [] => none
  | c :: cs =>
    if c = sep then some ([], cs)
    else (cutFirst? sep cs).map fun (before, after) => (c :: before, after)

/-- The characters before and after the last `sep`. -/
def cutLast? (sep : Char) : List Char → Option (List Char × List Char)
  | [] => none
  | c :: cs =>
    match cutLast? sep cs with
    | some (before, after) => some (c :: before, after)
    | none => if c = sep then some ([], cs) else none

/-- The stretches between the occurrences of `sep`; a text without `sep` is one stretch. -/
def splitOn (sep : Char) : List Char → List (List Char)
  | [] => [[]]
  | c :: cs =>
    if c = sep then [] :: splitOn sep cs
    else
      match splitOn sep cs with
      | [] => [[c]]
      | part :: parts => (c :: part) :: parts

/-- Every `mark` written twice, all else once. -/
@[simp] def doubled (mark : Char) : List Char → List Char
  | [] => []
  | c :: cs => if c = mark then mark :: mark :: doubled mark cs else c :: doubled mark cs

/-- Two marks in a row written as one, read from the left. -/
@[simp] def halved (mark : Char) : List Char → List Char
  | [] => []
  | [c] => [c]
  | c :: d :: cs =>
    if c = mark ∧ d = mark then mark :: halved mark cs else c :: halved mark (d :: cs)

/-- Doubling a mark is undone by halving it. -/
theorem halved_doubled (mark : Char) (cs : List Char) : halved mark (doubled mark cs) = cs := by
  induction cs with
  | nil => rfl
  | cons c cs ih =>
    by_cases h : c = mark
    · simp [h, ih]
    · cases hd : doubled mark cs with
      | nil => simp_all
      | cons d ds => simp_all

/-- A text without the mark is not changed by doubling it. -/
theorem doubled_eq_self {mark : Char} {cs : List Char} (h : mark ∉ cs) : doubled mark cs = cs := by
  induction cs with
  | nil => rfl
  | cons c cs ih =>
    rw [List.mem_cons, not_or] at h
    simp [Ne.symm h.1, ih h.2]

/-- There is always at least one stretch. -/
theorem splitOn_ne_nil (sep : Char) (cs : List Char) : splitOn sep cs ≠ [] := by
  induction cs with
  | nil => simp [splitOn]
  | cons c cs ih =>
    by_cases h : c = sep
    · simp [splitOn, h]
    · simp only [splitOn, h, if_false]
      split <;> simp

/-- The stretches of a text with the separator put back between them are the text. -/
theorem intercalate_splitOn (sep : Char) (cs : List Char) :
    List.intercalate [sep] (splitOn sep cs) = cs := by
  induction cs with
  | nil => rfl
  | cons c cs ih =>
    by_cases h : c = sep
    · subst h
      cases hs : splitOn c cs with
      | nil => exact absurd hs (splitOn_ne_nil c cs)
      | cons part parts =>
        rw [hs] at ih
        simpa [splitOn, hs, List.intercalate] using ih
    · cases hs : splitOn sep cs with
      | nil => exact absurd hs (splitOn_ne_nil sep cs)
      | cons part parts =>
        rw [hs] at ih
        cases parts <;> simp_all [splitOn, List.intercalate, List.intersperse]

/-- `part` stands somewhere in the text. -/
def contains (part : List Char) : List Char → Bool
  | [] => part.isEmpty
  | c :: cs => part.isPrefixOf (c :: cs) || contains part cs

/-- The text after `lead`, when it starts with it. -/
def dropLead? (lead : List Char) (cs : List Char) : Option (List Char) :=
  if lead.isPrefixOf cs then some (cs.drop lead.length) else none

/-- `s` starts with `lead`. -/
def startsWith (lead s : String) : Bool :=
  lead.toList.isPrefixOf s.toList

/-- `part` stands somewhere in `s`. -/
def holds (part s : String) : Bool :=
  contains part.toList s.toList

/-- `s` cut at its last `sep`. -/
def cutLastOf? (sep : Char) (s : String) : Option (String × String) :=
  (cutLast? sep s.toList).map fun (before, after) => (String.ofList before, String.ofList after)

/-- `s` cut at its first `sep`. -/
def cutFirstOf? (sep : Char) (s : String) : Option (String × String) :=
  (cutFirst? sep s.toList).map fun (before, after) => (String.ofList before, String.ofList after)

/-- `s` without its first `n` characters. -/
def dropOf (n : Nat) (s : String) : String :=
  String.ofList (s.toList.drop n)

end TableOps.Text
