import TableOps.Proofs.Command.Reading
import TableOps.Proofs.Entries
import TableOps.Proofs.Session.Savepoints
import TableOps.Result

/-!
# Reported rows

A driver names the columns of a result and reports its rows as lists of values, one for each column.
They become rows by column name; a name that stands twice keeps its first place and its last value.

* `Report` — what a driver reports, with rows as long as there are columns; `Report.entries`, the
  rows by column name.
* `Report.has_entries` — all rows have the columns that are named.
* `Engine.stripTotal_of_embedded`, `Engine.stripTotal_of_not_embedded` — the rows without the column
  of the total.

Main statement: `Report.result_reply`, the result of a report.
-/

namespace TableOps

/-! ## Rows by column name -/

namespace Keyed

variable {α : Type}

/-- Entries under names that are texts. -/
def ofEntries (entries : Entries α) : Keyed α :=
  entries.map fun (name, a) => (.text name, a)

theorem put_ofEntries (entries : Entries α) (name : String) (a : α) :
    put (ofEntries entries) (.text name) a = ofEntries (entries.put name a) := by
  induction entries with
  | nil => rfl
  | cons entry rest ih =>
    obtain ⟨key, old⟩ := entry
    have hcons : ∀ (k : String) (b : α) (es : Entries α),
        ofEntries ((k, b) :: es) = (.text k, b) :: ofEntries es := fun _ _ _ => rfl
    have hsame : (Value.text key).same (.text name) = (key == name) := by simp [Value.same]
    by_cases hkey : key = name
    · rw [Entries.put, if_pos hkey, hcons, hcons, put, hsame, if_pos (by simpa using hkey)]
    · rw [Entries.put, if_neg hkey, hcons, hcons, put, hsame, if_neg (by simpa using hkey), ih]

/-- Only texts were written when all names are texts. -/
theorem of_put_eq_ofEntries {entries : Keyed α} {name : Value} {a : α} {es : Entries α}
    (h : put entries name a = ofEntries es) :
    ∃ key es', name = .text key ∧ entries = ofEntries es' ∧ es = es'.put key a := by
  have hcons : ∀ {key : Value} {b : α} {rest : Keyed α} {es : Entries α},
      (key, b) :: rest = ofEntries es → ∃ k es', key = .text k ∧ rest = ofEntries es' ∧
        es = (k, b) :: es' := by
    intro key b rest es h
    cases es with
    | nil => cases h
    | cons entry es =>
      obtain ⟨hentry, hrest⟩ := List.cons.inj h
      obtain ⟨k, b'⟩ := entry
      cases hentry
      exact ⟨k, es, rfl, hrest, rfl⟩
  induction entries generalizing es with
  | nil =>
    obtain ⟨k, es', rfl, hrest, rfl⟩ := hcons h
    cases es' with
    | nil => exact ⟨k, [], rfl, rfl, rfl⟩
    | cons => cases hrest
  | cons entry rest ih =>
    obtain ⟨key, old⟩ := entry
    rw [put] at h
    split at h
    · rename_i hsame
      obtain ⟨k, es', rfl, rfl, rfl⟩ := hcons h
      obtain rfl : name = .text k := by
        cases name <;> simp_all [Value.same]
      exact ⟨k, (k, old) :: es', rfl, rfl, by rw [Entries.put, if_pos rfl]⟩
    · rename_i hsame
      obtain ⟨k, es', rfl, hrest, rfl⟩ := hcons h
      obtain ⟨key, es'', rfl, rfl, rfl⟩ := ih hrest
      have hne : k ≠ key := by
        rintro rfl
        exact hsame (by simp [Value.same])
      exact ⟨key, (k, old) :: es'', rfl, rfl, by rw [Entries.put, if_neg hne]⟩

/-- Pairs under texts are written like entries. -/
theorem ofPairs_ofEntries (pairs : Entries α) :
    ofPairs (ofEntries pairs) = .ok (ofEntries (Entries.ofPairs pairs)) := by
  have hfold : ∀ (pairs entries : Entries α),
      (ofEntries pairs).foldlM (fun entries pair => insert? entries pair.1 pair.2)
        (ofEntries entries) = .ok (ofEntries (Entries.update entries pairs)) := by
    intro pairs
    induction pairs with
    | nil => exact fun _ => rfl
    | cons pair pairs ih =>
      obtain ⟨name, a⟩ := pair
      intro entries
      have hput : insert? (ofEntries entries) (.text name) a =
          .ok (ofEntries (entries.put name a)) := by
        rw [← put_ofEntries]
        rfl
      have hcons : ofEntries ((name, a) :: pairs) = (.text name, a) :: ofEntries pairs := rfl
      rw [hcons, List.foldlM_cons]
      dsimp only
      rw [hput]
      exact ih (entries.put name a)
  exact hfold pairs []

end Keyed

theorem Check.namedEntries_ofEntries {α : Type} (entries : Entries α) :
    namedEntries (Keyed.ofEntries entries) = .ok entries := by
  induction entries with
  | nil => rfl
  | cons entry rest ih =>
    obtain ⟨name, a⟩ := entry
    have hcons : Keyed.ofEntries ((name, a) :: rest) = (.text name, a) :: Keyed.ofEntries rest := rfl
    rw [hcons, namedEntries, ih]
    rfl

/-- Entries pass only under names that are texts. -/
theorem Check.eq_ofEntries {α : Type} {keyed : Keyed α} {entries : Entries α}
    (h : namedEntries keyed = .ok entries) : keyed = Keyed.ofEntries entries := by
  induction keyed generalizing entries with
  | nil =>
    cases h
    rfl
  | cons entry rest ih =>
    obtain ⟨key, a⟩ := entry
    obtain ⟨named, es, hnamed, hrest, rfl⟩ := passes_of_seq h
    obtain ⟨name, hname, rfl⟩ := passes_of_map hnamed
    have htext := passes_of_within (passes_of_within hname)
    obtain rfl : key = .text name := by
      cases key <;> first | cases htext; rfl | cases htext
    rw [ih hrest]
    rfl

theorem Check.itemsFrom_ofEntries {α : Type} (rows : List (Entries α)) (i : Nat) :
    itemsFrom namedEntries i (rows.map Keyed.ofEntries) = .ok rows := by
  induction rows generalizing i with
  | nil => rfl
  | cons row rows ih =>
    rw [List.map_cons, itemsFrom, namedEntries_ofEntries, ih]
    rfl

/-! ## Reports -/

/-- What a driver reports: the columns, and rows that have a value for each of them. -/
structure Report where
  columns : List String
  rows : List (List Value)
  fits : ∀ row ∈ rows, row.length = columns.length
  /-- The number of rows that were changed, if the driver counts them. -/
  rowCount : Option Int
  lastInsertId : Value

namespace Report

/-- The answer of the driver. -/
def reply (r : Report) : Reply :=
  .done (r.columns.map .text) (r.rows.map .list) (.ofInt? r.rowCount) r.lastInsertId

/-- The rows by column name. A statement without columns yields no rows. -/
def entries (r : Report) : List Row :=
  if r.columns.isEmpty then [] else r.rows.map fun row => Entries.ofPairs (r.columns.zip row)

/-- The result of a report. -/
def result (r : Report) : Result :=
  ⟨r.entries, r.rowCount.getD (-1), r.lastInsertId⟩

theorem rowOf_text (columns : List String) (row : List Value) :
    Result.rowOf (columns.map .text) (.list row) =
      .ok (Keyed.ofEntries (Entries.ofPairs (columns.zip row))) := by
  have hzip : (columns.map Value.text).zip row = Keyed.ofEntries (columns.zip row) := by
    rw [Keyed.ofEntries, List.zip_map_left]
    rfl
  show Keyed.ofPairs ((columns.map Value.text).zip row) = _
  rw [hzip, Keyed.ofPairs_ofEntries]

/-- A report yields its rows by column name. -/
theorem result_reply (r : Report) : r.reply.result = .ok r.result := by
  have hrows : ∀ rows : List (List Value),
      (rows.map Value.list).mapM (Result.rowOf (r.columns.map .text)) =
        .ok ((rows.map fun row => Entries.ofPairs (r.columns.zip row)).map Keyed.ofEntries) := by
    intro rows
    induction rows with
    | nil => rfl
    | cons row rows ih =>
      rw [List.map_cons, List.mapM_cons, rowOf_text, ih]
      rfl
  have hcount : (if (Value.ofInt? r.rowCount).isNull then (.ok (-1) : Check Int)
      else Check.int (.ofInt? r.rowCount)) = .ok (r.rowCount.getD (-1)) := by
    cases r.rowCount <;> rfl
  show Result.ofReport _ _ _ _ = _
  rw [Result.ofReport, List.isEmpty_map, hrows, hcount, result, entries]
  split
  · rfl
  · show Check.toExcept _ = _
    rw [Check.itemsFrom_ofEntries]
    rfl

/-- The columns of every row are those that are named. -/
theorem has_entries {r : Report} {row : Row} (h : row ∈ r.entries) (name : String) :
    row.has name ↔ name ∈ r.columns := by
  unfold entries at h
  split at h
  · cases h
  · obtain ⟨values, hvalues, rfl⟩ := List.mem_map.mp h
    have hlength : r.columns.length ≤ values.length := Nat.le_of_eq (r.fits values hvalues).symm
    rw [Entries.ofPairs, Entries.has_update, List.map_fst_zip hlength]
    simp [Entries.has]

end Report

/-! ## The column of the total -/

theorem Entries.erase_eq_self {α : Type} {entries : Entries α} {name : String}
    (h : ¬ entries.has name) : entries.erase name = entries := by
  induction entries with
  | nil => rfl
  | cons entry rest ih =>
    obtain ⟨key, a⟩ := entry
    by_cases hkey : key = name
    · simp [Entries.has, hkey] at h
    · rw [Entries.erase, if_neg hkey, ih (by simpa [Entries.has, hkey] using h)]

namespace Engine

variable {rows : List Row}

/-- The total is read off the first row, and its column is removed from all of them. -/
theorem stripTotal_of_embedded {row : Row} {v : Value} {n : Int} (hrow : rows.head? = some row)
    (hv : row.get? Statement.totalColumn = some v) (hn : v.toWhole = .ok n) :
    postgres.stripTotal rows =
      .ok (rows.map (Entries.erase · Statement.totalColumn), some n) := by
  obtain ⟨rest, rfl⟩ := List.head?_eq_some_iff.mp hrow
  simp only [stripTotal, countStrategy, hv, hn]
  rfl

/-- Rows that have no total stay as they are. -/
theorem stripTotal_of_not_embedded {engine : Engine}
    (h : engine = .postgres → ∀ row ∈ rows, ¬ row.has Statement.totalColumn) :
    engine.stripTotal rows = .ok (rows, none) := by
  cases engine with
  | mysql => rfl
  | postgres =>
    cases rows with
    | nil => rfl
    | cons row rest =>
      have hnone : row.get? Statement.totalColumn = none := by
        simpa [Entries.has] using h rfl row List.mem_cons_self
      simp only [stripTotal, countStrategy, hnone]

end Engine

end TableOps
