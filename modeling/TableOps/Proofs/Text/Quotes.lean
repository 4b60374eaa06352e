import TableOps.Proofs.Text.Doubled
import TableOps.Text.Quoted

/-!
# Quoted stretches as a server reads them

A stretch of text stands between marks, with the marks inside it doubled. A server reads it from the
left: two marks in a row are one mark of the stretch, a single one ends it. Where a server reads escapes,
it takes a backslash together with the character behind it.

* `unescaped` — what a backslash stands for, by the character behind it.
* `readOpen`, `readQuoted` — a quoted stretch as a server reads it, with what is left behind it.
* `readOpen_mark`, `readOpen_marks`, `readOpen_escape`, `readOpen_plain` — one step of the reader.
* `readQuoted_eq_some_iff` — without escapes, what is read is what stands between marks, and no mark
  follows.
-/

namespace TableOps.Text

/-- What a backslash stands for together with the character behind it. A letter may stand for a control
character; in front of the two characters that patterns use the backslash is kept; any other character
stands for itself. -/
def unescaped : Char → List Char
  | '0' => ['\x00']
  | 'b' => ['\x08']
  | 'n' => ['\n']
  | 'r' => ['\r']
  | 't' => ['\t']
  | 'Z' => ['\x1a']
  | '%' => ['\\', '%']
  | '_' => ['\\', '_']
  | c => [c]

/-- What was read so far in front of what is read next. -/
def prepend (front : List Char) : List Char × List Char → List Char × List Char
  | (read, behind) => (front ++ read, behind)

/-- A quoted stretch behind its opening mark: what it holds, and what stands behind its closing mark.
There is none when it does not end. -/
def readOpen (mark : Char) (escapes : Bool) : List Char → Option (List Char × List Char)
  | [] => none
  | [c] => if c = mark then some ([], []) else none
  | c :: d :: cs =>
    if c = mark then
      if d = mark then (readOpen mark escapes cs).map (prepend [mark]) else some ([], d :: cs)
    else if escapes = true ∧ c = '\\' then (readOpen mark escapes cs).map (prepend (unescaped d))
    else (readOpen mark escapes (d :: cs)).map (prepend [c])

/-- A quoted stretch at the front of a text: what it holds, and what stands behind it. -/
def readQuoted (mark : Char) (escapes : Bool) : List Char → Option (List Char × List Char)
  | [] => none
  | c :: cs => if c = mark then readOpen mark escapes cs else none

theorem map_prepend_eq_some_iff (front : List Char) {read behind : List Char}
    {r : Option (List Char × List Char)} :
    r.map (prepend front) = some (front ++ read, behind) ↔ r = some (read, behind) := by
  cases r with
  | none => simp
  | some p =>
    obtain ⟨v, b⟩ := p
    simp [prepend]

theorem eq_append_of_map_prepend {front read behind : List Char}
    {r : Option (List Char × List Char)} (h : r.map (prepend front) = some (read, behind)) :
    ∃ rest, r = some (rest, behind) ∧ read = front ++ rest := by
  obtain ⟨⟨v, b⟩, rfl, heq⟩ := Option.map_eq_some_iff.mp h
  cases heq
  exact ⟨v, rfl, rfl⟩

/-! ## One step of the reader -/

variable {mark c : Char} {escapes : Bool} {cs read behind : List Char}

/-- A single mark ends the stretch. -/
theorem readOpen_mark (h : behind.head? ≠ some mark) :
    readOpen mark escapes (mark :: behind) = some ([], behind) := by
  cases behind with
  | nil => exact if_pos rfl
  | cons d behind =>
    have hd : d ≠ mark := fun heq => h (by rw [heq]; rfl)
    rw [readOpen, if_pos rfl, if_neg hd]

/-- Two marks in a row are one mark of the stretch. -/
theorem readOpen_marks (mark : Char) (escapes : Bool) (cs : List Char) :
    readOpen mark escapes (mark :: mark :: cs) =
      (readOpen mark escapes cs).map (prepend [mark]) := by
  rw [readOpen, if_pos rfl, if_pos rfl]

/-- A backslash is read together with the character behind it. -/
theorem readOpen_escape (h : '\\' ≠ mark) (d : Char) (cs : List Char) :
    readOpen mark true ('\\' :: d :: cs) = (readOpen mark true cs).map (prepend (unescaped d)) := by
  rw [readOpen, if_neg h, if_pos ⟨rfl, rfl⟩]

/-- Any other character stands for itself. -/
theorem readOpen_plain (hmark : c ≠ mark) (hescape : ¬ (escapes = true ∧ c = '\\'))
    (cs : List Char) :
    readOpen mark escapes (c :: cs) = (readOpen mark escapes cs).map (prepend [c]) := by
  cases cs with
  | nil => exact if_neg hmark
  | cons d cs => rw [readOpen, if_neg hmark, if_neg hescape]

/-! ## Reading without escapes -/

/-- A stretch whose marks are doubled is read up to its closing mark, wherever its own marks stand. -/
theorem readOpen_doubled (h : behind.head? ≠ some mark) (cs : List Char) :
    readOpen mark false (doubled mark cs ++ mark :: behind) = some (cs, behind) := by
  induction cs with
  | nil => exact readOpen_mark h
  | cons c cs ih =>
    by_cases hc : c = mark
    · subst hc
      rw [doubled, if_pos rfl, List.cons_append, List.cons_append, readOpen_marks, ih]
      rfl
    · rw [doubled, if_neg hc, List.cons_append, readOpen_plain hc (by simp), ih]
      rfl

/-- What is read had its marks doubled and a single mark behind it. -/
theorem eq_doubled_of_readOpen (h : readOpen mark false cs = some (read, behind)) :
    cs = doubled mark read ++ mark :: behind ∧ behind.head? ≠ some mark := by
  fun_induction readOpen mark false cs generalizing read with
  | case1 => cases h
  | case2 =>
    cases h
    exact ⟨rfl, by simp⟩
  | case3 => cases h
  | case4 cs ih =>
    obtain ⟨rest, hrest, rfl⟩ := eq_append_of_map_prepend h
    obtain ⟨rfl, hbehind⟩ := ih hrest
    exact ⟨by simp, hbehind⟩
  | case5 d cs hd =>
    cases h
    exact ⟨rfl, by simpa using hd⟩
  | case6 c d cs hc hescape => cases hescape.1
  | case7 c d cs hc hescape ih =>
    obtain ⟨rest, hrest, rfl⟩ := eq_append_of_map_prepend h
    obtain ⟨heq, hbehind⟩ := ih hrest
    exact ⟨by simp [hc, heq], hbehind⟩

/-- What is read is what stands between marks, and no mark follows. -/
theorem readQuoted_eq_some_iff : readQuoted mark false cs = some (read, behind) ↔
    cs = quotedChars mark read ++ behind ∧ behind.head? ≠ some mark := by
  have hquoted : quotedChars mark read ++ behind = mark :: (doubled mark read ++ mark :: behind) := by
    simp [quotedChars]
  rw [hquoted]
  constructor
  · intro h
    cases cs with
    | nil => cases h
    | cons c cs =>
      rw [readQuoted] at h
      split at h
      · rename_i hc
        obtain ⟨rfl, hbehind⟩ := eq_doubled_of_readOpen h
        exact ⟨by rw [hc], hbehind⟩
      · cases h
  · rintro ⟨rfl, hbehind⟩
    rw [readQuoted, if_pos rfl, readOpen_doubled hbehind]

example : readQuoted '"' false "\"\"\"a\"\"b\"\"\" AS x".toList =
    some ("\"a\"b\"".toList, " AS x".toList) := by
  decide

/-- What stands behind a stretch is shorter than the text. -/
theorem length_lt_of_readOpen (h : readOpen mark false cs = some (read, behind)) :
    behind.length < cs.length := by
  obtain ⟨rfl, -⟩ := eq_doubled_of_readOpen h
  simp only [List.length_append, List.length_cons]
  omega

end TableOps.Text
