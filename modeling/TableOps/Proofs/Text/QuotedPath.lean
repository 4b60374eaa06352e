import TableOps.Text.Quoted

/-!
# Quoted paths

A text that consists of quoted names with dots between them. Reading such a text from the left,
three things are known at each place: no name is open, a name is open, or a mark was read in an
open name, which closes it unless a second mark follows.

* `QuotedPath` — quoted names with dots between them.
* `scan` — reading from the left; `quotedPath_iff_scan`, a text is a quoted path exactly when
  reading it ends behind a closing mark.
* `scan_quoted`, `scan_doubled` — reading over a quoted name, and over doubled characters.
-/

namespace TableOps.Text

/-- Quoted names with dots between them. -/
inductive QuotedPath (mark : Char) : List Char → Prop where
  | single (name : List Char) : QuotedPath mark (quotedChars mark name)
  | cons (name : List Char) {path : List Char} (h : QuotedPath mark path) :
      QuotedPath mark (quotedChars mark name ++ '.' :: path)

/-- What is known at a place in a quoted path. -/
inductive Place where
  /-- A name has to begin. -/
  | outside
  /-- A name is open. -/
  | inside
  /-- A mark was read in an open name. -/
  | closing
  deriving DecidableEq

/-- Reading one character. -/
def Place.step (mark : Char) (place : Place) (c : Char) : Option Place :=
  match place with
  | .outside => if c = mark then some .inside else none
  | .inside => if c = mark then some .closing else some .inside
  | .closing => if c = mark then some .inside else if c = '.' then some .outside else none

/-- Reading some characters; nothing, when they are no part of a quoted path. -/
def scan (mark : Char) (place : Place) (cs : List Char) : Option Place :=
  cs.foldlM (Place.step mark) place

variable {mark : Char}

theorem scan_cons (place : Place) (c : Char) (cs : List Char) :
    scan mark place (c :: cs) = (place.step mark c).bind fun next => scan mark next cs := by
  rw [scan, List.foldlM_cons]
  rfl

theorem scan_append (place : Place) (cs ds : List Char) :
    scan mark place (cs ++ ds) = (scan mark place cs).bind fun next => scan mark next ds := by
  rw [scan, List.foldlM_append]
  rfl

/-! ## Quoted names -/

/-- The inside of a name is read without leaving it. -/
theorem scan_doubled_inside (name : List Char) :
    scan mark .inside (doubled mark name) = some .inside := by
  induction name with
  | nil => rfl
  | cons c name ih =>
    unfold doubled
    by_cases h : c = mark
    · rw [if_pos h, scan_cons, Place.step, if_pos rfl, Option.bind_some, scan_cons, Place.step,
        if_pos rfl, Option.bind_some, ih]
    · rw [if_neg h, scan_cons, Place.step, if_neg h, Option.bind_some, ih]

/-- A quoted name is read to its closing mark. -/
theorem scan_quoted (name tail : List Char) :
    scan mark .outside (quotedChars mark name ++ tail) = scan mark .closing tail := by
  unfold quotedChars
  rw [List.append_assoc, List.cons_append, scan_cons, Place.step, if_pos rfl, Option.bind_some,
    scan_append, scan_doubled_inside, Option.bind_some, List.singleton_append, scan_cons,
    Place.step, if_pos rfl, Option.bind_some]

/-- A dot behind a closing mark lets the next name begin. -/
theorem scan_closing_dot (hmark : mark ≠ '.') (cs : List Char) :
    scan mark .closing ('.' :: cs) = scan mark .outside cs := by
  rw [scan_cons, Place.step, if_neg (Ne.symm hmark), if_pos rfl, Option.bind_some]

/-- A quoted path is read to its last mark. -/
theorem QuotedPath.scan_eq (hmark : mark ≠ '.') {cs : List Char} (h : QuotedPath mark cs) :
    scan mark .outside cs = some .closing := by
  induction h with
  | single name =>
    have hq := @scan_quoted mark name []
    rw [List.append_nil] at hq
    exact hq
  | cons name h ih => rw [scan_quoted, scan_closing_dot hmark, ih]

/-! ## Reading back -/

/-- The rest of a quoted path behind an open name. -/
def Behind (mark : Char) (cs : List Char) : Prop :=
  cs = [] ∨ ∃ path, cs = '.' :: path ∧ QuotedPath mark path

/-- The rest of a quoted path in an open name. -/
def Within (mark : Char) (cs : List Char) : Prop :=
  ∃ name tail, cs = doubled mark name ++ mark :: tail ∧ Behind mark tail

theorem QuotedPath.of_within {cs : List Char} (h : Within mark cs) : QuotedPath mark (mark :: cs) := by
  obtain ⟨name, tail, rfl, rfl | ⟨path, rfl, hpath⟩⟩ := h
  · exact .single name
  · have hcons := QuotedPath.cons name hpath
    unfold quotedChars at hcons
    rw [List.append_assoc] at hcons
    exact hcons

/-- What has been read to the end is a quoted path, or the rest of one. -/
theorem quotedPath_of_scan (cs : List Char) :
    (scan mark .outside cs = some .closing → QuotedPath mark cs) ∧
      (scan mark .inside cs = some .closing → Within mark cs) ∧
      (scan mark .closing cs = some .closing →
        Behind mark cs ∨ ∃ rest, cs = mark :: rest ∧ Within mark rest) := by
  induction cs with
  | nil =>
    refine ⟨fun h => ?_, fun h => ?_, fun _ => Or.inl (Or.inl rfl)⟩
    · cases h
    · cases h
  | cons c cs ih =>
    obtain ⟨ihOutside, ihInside, ihClosing⟩ := ih
    simp only [scan_cons, Place.step]
    by_cases hc : c = mark
    · subst hc
      simp only [if_true, Option.bind_some]
      refine ⟨fun h => .of_within (ihInside h), fun h => ?_, fun h => Or.inr ⟨cs, rfl, ihInside h⟩⟩
      rcases ihClosing h with hbehind | ⟨rest, rfl, name, tail, rfl, hbehind⟩
      · exact ⟨[], cs, rfl, hbehind⟩
      · -- two marks in a row are one mark of the name
        refine ⟨c :: name, tail, ?_, hbehind⟩
        simp
    · simp only [if_neg hc, Option.bind_some]
      refine ⟨fun h => ?_, fun h => ?_, fun h => ?_⟩
      · cases h
      · obtain ⟨name, tail, rfl, hbehind⟩ := ihInside h
        refine ⟨c :: name, tail, ?_, hbehind⟩
        simp [hc]
      · by_cases hdot : c = '.'
        · rw [if_pos hdot] at h
          exact Or.inl (Or.inr ⟨cs, by rw [hdot], ihOutside h⟩)
        · rw [if_neg hdot] at h
          cases h

/-- A text is a quoted path exactly when reading it ends behind a closing mark. -/
theorem quotedPath_iff_scan (hmark : mark ≠ '.') (cs : List Char) :
    QuotedPath mark cs ↔ scan mark .outside cs = some .closing :=
  ⟨QuotedPath.scan_eq hmark, (quotedPath_of_scan cs).1⟩

/-- Doubling a character that is neither the mark nor the dot changes nothing in how a text is
read: such a character can only stand in a name. -/
theorem scan_doubled {c : Char} (hmark : c ≠ mark) (hdot : c ≠ '.') (place : Place)
    (cs : List Char) : scan mark place (doubled c cs) = scan mark place cs := by
  induction cs generalizing place with
  | nil => rfl
  | cons d cs ih =>
    unfold doubled
    by_cases hd : d = c
    · subst hd
      rw [if_pos rfl, scan_cons, scan_cons place]
      -- outside of a name the character is refused once as well as twice
      cases place with
      | outside => simp [Place.step, hmark]
      | inside =>
        simp only [Place.step, if_neg hmark, Option.bind_some]
        rw [scan_cons, Place.step, if_neg hmark, Option.bind_some, ih]
      | closing => simp [Place.step, hmark, hdot]
    · rw [if_neg hd, scan_cons, scan_cons]
      congr 1
      funext next
      exact ih next

end TableOps.Text
