import TableOps.Statement.Piece

/-!
# Placeholders

The text of a statement is read as the stretches around its placeholders. The stretches do not
depend on how values are marked, so the placeholders in a text are exactly the ones that numbering
wrote: one for each bound value, counted from the left.

* `Statement.gaps` — the stretches of a statement; `alternate` puts texts and marks together again.
* `Statement.writeFrom_eq_alternate` — a written statement is its stretches and its placeholders.
* `Dialect.gaps`, `Dialect.render_eq_alternate` — the same for the text that is sent.
* `Statement.writeFrom_commaSeparated`, `Statement.writeFrom_nameList`,
  `Statement.writeFrom_valueList` — how lists are written.
-/

namespace TableOps

/-- The text of a piece that binds no value. -/
def Piece.own? (w : Writer) : Piece → Option String
  | .text s => some s
  | .raw s => some (w.raw s)
  | .name s => some (w.name s)
  | .column ref => some (w.column ref)
  | .table t => some (w.table t)
  | .value _ => none

namespace Statement

/-! ## Stretches -/

/-- A text in front of the first of some stretches. -/
def leading (s : String) : List String → List String
  | [] => [s]
  | gap :: gaps => (s ++ gap) :: gaps

/-- The stretches of text before, between and behind the placeholders of a statement. -/
def gaps (w : Writer) : Statement → List String
  | [] => [""]
  | p :: ps =>
    match p.own? w with
    | some s => leading s (gaps w ps)
    | none => "" :: gaps w ps

/-- Stretches of text with a mark between each two. -/
def alternate : List String → List String → String
  | [], _ => ""
  | gap :: _, [] => gap
  | gap :: gaps, mark :: marks => gap ++ mark ++ alternate gaps marks

theorem gaps_ne_nil (w : Writer) (s : Statement) : gaps w s ≠ [] := by
  cases s with
  | nil => simp [gaps]
  | cons p ps =>
    unfold gaps
    split
    · cases gaps w ps <;> simp [leading]
    · simp

theorem alternate_leading (s : String) (gaps marks : List String) (h : gaps ≠ []) :
    alternate (leading s gaps) marks = s ++ alternate gaps marks := by
  cases gaps with
  | nil => exact absurd rfl h
  | cons gap gaps =>
    cases marks with
    | nil => rfl
    | cons mark marks => simp [leading, alternate, String.append_assoc]

theorem length_leading (s : String) (gaps : List String) (h : gaps ≠ []) :
    (leading s gaps).length = gaps.length := by
  cases gaps with
  | nil => exact absurd rfl h
  | cons gap gaps => rfl

/-- A piece either has a text of its own or binds a value. -/
theorem own?_eq_none_iff (w : Writer) (p : Piece) : p.own? w = none ↔ ∃ v, p = .value v := by
  cases p <;> simp [Piece.own?]

/-- A piece with a text of its own binds no value. -/
theorem value?_of_own? {w : Writer} {p : Piece} {s : String} (h : p.own? w = some s) :
    p.value? = none := by
  cases p <;> simp_all [Piece.own?]

theorem values_cons_own {w : Writer} {p : Piece} {s : String} (h : p.own? w = some s)
    (ps : Statement) : values (p :: ps) = values ps := by
  rw [values, values, List.filterMap_cons, value?_of_own? h]

theorem textsFrom_cons_own {w : Writer} {p : Piece} {s : String} (h : p.own? w = some s) (n : Nat)
    (ps : Statement) : textsFrom w n (p :: ps) = s :: textsFrom w n ps := by
  cases p <;> simp_all [Piece.own?]

/-- The text of a piece goes in front of the first stretch of what follows. -/
theorem alternate_gaps_cons_own {w : Writer} {p : Piece} {s : String} (h : p.own? w = some s)
    (ps : Statement) (marks : List String) :
    alternate (gaps w (p :: ps)) marks = s ++ alternate (gaps w ps) marks := by
  rw [gaps, h, alternate_leading s _ _ (gaps_ne_nil w ps)]

/-- There is one stretch more than there are bound values. -/
theorem length_gaps (w : Writer) (s : Statement) : (gaps w s).length = s.values.length + 1 := by
  induction s with
  | nil => rfl
  | cons p ps ih =>
    cases h : p.own? w with
    | some text =>
      rw [gaps, h, length_leading text _ (gaps_ne_nil w ps), ih, values_cons_own h]
    | none =>
      obtain ⟨v, rfl⟩ := (own?_eq_none_iff w p).mp h
      rw [gaps, h, List.length_cons, ih]
      rfl

/-- The placeholders of the next `count` values, the first of them numbered `n`. -/
def marksFrom (w : Writer) (n count : Nat) : List String :=
  (List.range' n count).map w.placeholder

theorem marksFrom_succ (w : Writer) (n count : Nat) :
    marksFrom w n (count + 1) = w.placeholder n :: marksFrom w (n + 1) count := by
  rw [marksFrom, List.range'_succ]
  rfl

/-- A statement is written as its stretches with the placeholders of its values between them, in
order and numbered without a break. -/
theorem writeFrom_eq_alternate (w : Writer) (n : Nat) (s : Statement) :
    writeFrom w n s = alternate (gaps w s) (marksFrom w n s.values.length) := by
  induction s generalizing n with
  | nil => rfl
  | cons p ps ih =>
    unfold writeFrom at ih ⊢
    -- a text goes in front of the first stretch, a value begins a new one
    cases h : p.own? w with
    | some text =>
      rw [textsFrom_cons_own h, String.join_cons, ih, alternate_gaps_cons_own h, values_cons_own h]
    | none =>
      obtain ⟨v, rfl⟩ := (own?_eq_none_iff w p).mp h
      have hv : (values (.value v :: ps)).length = (values ps).length + 1 := rfl
      rw [textsFrom, String.join_cons, ih, gaps, h, hv, marksFrom_succ, alternate]
      simp

end Statement

/-! ## The text that is sent -/

/-- The stretches of the text that is sent for a statement. -/
def Dialect.gaps (d : Dialect) (s : Statement) : List String :=
  let gaps := s.gaps d.writer
  if d.style = .format ∧ s.values = [] then
    gaps.map fun gap => String.ofList (Text.halved '%' gap.toList)
  else gaps

/-- The text that is sent is made of its stretches and of the placeholders 1, 2, … up to the
number of bound values. -/
theorem Dialect.render_eq_alternate (d : Dialect) (s : Statement) :
    d.render s =
      Statement.alternate (d.gaps s) (Statement.marksFrom d.writer 1 s.values.length) := by
  have h := Statement.writeFrom_eq_alternate d.writer 1 s
  have hn := Statement.length_gaps d.writer s
  unfold render gaps Statement.write
  by_cases hs : d.style = .format ∧ s.values = []
  · -- without values there is a single stretch, and halving it is halving the text
    rw [if_pos hs, if_pos hs, h]
    rw [hs.2] at hn ⊢
    obtain ⟨gap, hg⟩ := List.length_eq_one_iff.mp hn
    rw [hg]
    rfl
  · rw [if_neg hs, if_neg hs, h]

theorem Dialect.length_gaps (d : Dialect) (s : Statement) :
    (d.gaps s).length = s.values.length + 1 := by
  unfold gaps
  split
  · rw [List.length_map, Statement.length_gaps]
  · rw [Statement.length_gaps]

/-- A statement that binds a value is sent as it is written. -/
theorem Dialect.render_of_values_ne_nil (d : Dialect) {s : Statement} (h : s.values ≠ []) :
    d.render s = s.write d.writer := by
  unfold render
  rw [if_neg fun hs => h hs.2]

namespace Statement

/-! ## Lists in a statement -/

variable {w : Writer} {n : Nat}

/-- Two statements in a row are written in a row; the second goes on counting. -/
theorem writeFrom_append (w : Writer) (n : Nat) (s t : Statement) :
    writeFrom w n (s ++ t) = writeFrom w n s ++ writeFrom w (n + s.values.length) t := by
  unfold writeFrom
  rw [textsFrom_append, String.join_append]

/-- Whatever stands in a statement is written there, counting on from what is before it. -/
theorem exists_write_eq (w : Writer) (before s behind : Statement) :
    ∃ first n last, write w (before ++ s ++ behind) = first ++ writeFrom w n s ++ last := by
  refine ⟨writeFrom w 1 before, 1 + before.values.length,
    writeFrom w (1 + (before ++ s).values.length) behind, ?_⟩
  rw [write, writeFrom_append, writeFrom_append]

/-- Statements written one by one, each counting on from the one before. -/
def writeEach (w : Writer) (n : Nat) : List Statement → List String
  | [] => []
  | s :: ss => writeFrom w n s :: writeEach w (n + s.values.length) ss

/-- Statements separated by commas are written one by one with commas between them. -/
theorem writeFrom_commaSeparated (w : Writer) (n : Nat) (parts : List Statement) :
    writeFrom w n (commaSeparated parts) = ", ".intercalate (writeEach w n parts) := by
  unfold commaSeparated
  induction parts generalizing n with
  | nil => simp [separated, writeEach, writeFrom]
  | cons s ss ih =>
    cases ss with
    | nil => simp [separated, writeEach]
    | cons s' ss =>
      have hcomma : writeFrom w (n + s.values.length) [.text ", "] = ", " := by
        simp [writeFrom]
      have hcount : (s ++ [Piece.text ", "]).values.length = s.values.length := by
        simp [values]
      rw [separated, writeFrom_append, writeFrom_append, hcomma, hcount, ih]
      · simp only [writeEach, String.intercalate_cons_cons]
      · exact fun h => List.cons_ne_nil _ _ h

/-- A list of names is written as the quoted names. -/
theorem writeFrom_nameList (w : Writer) (n : Nat) (names : List String) :
    writeFrom w n (nameList names) = ", ".intercalate (names.map w.name) := by
  have h : ∀ n, writeEach w n (names.map fun name => [.name name]) = names.map w.name := by
    induction names with
    | nil => intro n; rfl
    | cons name names ih =>
      intro n
      rw [List.map_cons, writeEach, ih]
      simp [writeFrom]
  rw [nameList, writeFrom_commaSeparated, h]

/-- A list of values is written as the placeholders of that many values. -/
theorem writeFrom_valueList (w : Writer) (n : Nat) (vs : List Value) :
    writeFrom w n (commaSeparated (vs.map fun v => [.value v])) =
      ", ".intercalate (marksFrom w n vs.length) := by
  have h : ∀ n, writeEach w n (vs.map fun v => [.value v]) = marksFrom w n vs.length := by
    induction vs with
    | nil => intro n; rfl
    | cons v vs ih =>
      intro n
      have hv : (values [.value v]).length = 1 := rfl
      rw [List.map_cons, writeEach, hv, ih, List.length_cons, marksFrom_succ]
      simp [writeFrom]
  rw [writeFrom_commaSeparated, h]

end Statement

end TableOps
