import Mathlib.Data.List.Forall2
import TableOps.Proofs.Statement.Totals
import TableOps.Proofs.Value.Equality
import TableOps.Statement.Sketch

/-!
# Totals for equal queries

A total is counted over a table, its joins and a filter, by the first column. For queries that are
equal as data the same is counted: one total can be composed when the other one can, and then both
are sent as the same text with equal values.

* `Statement.Alike` — the same pieces with equal values; `Alike.render_eq`, the same text.
* `Filter.pieces_agree`, `Statement.whereClause_agree` — the conditions of alike queries.
* `Counted` — what a total is counted over; `Counted.total` is its statement.

Main statement: `Counted.total_agree`, the totals for equal queries.
-/

namespace TableOps

/-! ## The same pieces with equal values -/

/-- The same piece, or two pieces that bind equal values. -/
inductive Piece.Alike : Piece → Piece → Prop where
  | value {v w : Value} (h : Value.same v w = true) : Alike (.value v) (.value w)
  | wording {p : Piece} (h : p.value? = none) : Alike p p

namespace Statement

/-- The same pieces with equal values. -/
def Alike (s t : Statement) : Prop :=
  List.Forall₂ Piece.Alike s t

variable {s t s' t' : Statement}

theorem alike_of_values_eq_nil {s : Statement} (h : s.values = []) : Alike s s := by
  refine List.forall₂_same.mpr fun p hp => .wording ?_
  exact List.filterMap_eq_nil_iff.mp h p hp

namespace Alike

theorem append (h : Alike s t) (h' : Alike s' t') : Alike (s ++ s') (t ++ t') :=
  List.rel_append h h'

theorem isEmpty_eq (h : Alike s t) : s.isEmpty = t.isEmpty := by
  cases h <;> rfl

theorem values (h : Alike s t) : List.Forall₂ (Value.same · ·) s.values t.values := by
  induction h with
  | nil => exact .nil
  | cons hp h ih =>
    cases hp with
    | value hvw => exact .cons hvw ih
    | wording hp =>
      rw [Statement.values, Statement.values, List.filterMap_cons_none hp,
        List.filterMap_cons_none hp]
      exact ih

/-- Placeholders are numbered alike, and everything else is the same. -/
theorem textsFrom_eq (h : Alike s t) (w : Writer) (n : Nat) :
    textsFrom w n s = textsFrom w n t := by
  induction h generalizing n with
  | nil => rfl
  | cons hp h ih =>
    cases hp with
    | value hvw => exact congrArg (w.placeholder n :: ·) (ih (n + 1))
    | wording hp =>
      rename_i p _ _
      cases p with
      | value v => cases hp
      | _ => exact congrArg (List.cons _) (ih n)

/-- Statements that differ in equal values only are sent as the same text. -/
theorem render_eq (h : Alike s t) (d : Dialect) : d.render s = d.render t := by
  have hvalues : s.values = [] ↔ t.values = [] := by
    rw [← List.length_eq_zero_iff, ← List.length_eq_zero_iff, h.values.length_eq]
  unfold Dialect.render write writeFrom
  simp only [h.textsFrom_eq, hvalues]

end Alike

theorem alike_separated (separator : Statement) (hseparator : separator.values = [])
    {ss ts : List Statement} (h : List.Forall₂ Alike ss ts) :
    Alike (separated separator ss) (separated separator ts) := by
  induction h with
  | nil => exact .nil
  | cons hst h ih =>
    cases h with
    | nil => exact hst
    | cons hst' h => exact (hst.append (alike_of_values_eq_nil hseparator)).append ih

end Statement

/-! ## Conditions -/

namespace Value

/-- Equal values name the same column, or none. -/
theorem columnRef?_of_same {v w : Value} (h : same v w = true) : v.columnRef? = w.columnRef? := by
  unfold same at h
  split at h <;> simp_all [columnRef?]

theorem forall₂_of_sameAll : ∀ {vs ws : List Value}, sameAll vs ws = true →
    List.Forall₂ (same · ·) vs ws
  | [], [], _ => .nil
  | [], _ :: _, h => by simp [sameAll] at h
  | _ :: _, [], h => by simp [sameAll] at h
  | v :: vs, w :: ws, h => by
    simp only [sameAll, Bool.and_eq_true] at h
    exact .cons h.1 (forall₂_of_sameAll h.2)

end Value

namespace Leaf

theorem alike_marks {vs ws : List Value} (h : List.Forall₂ (Value.same · ·) vs ws) :
    Statement.Alike (marks vs) (marks ws) := by
  have hitems : List.Forall₂ Statement.Alike (vs.map fun v => [Piece.value v])
      (ws.map fun w => [.value w]) := by
    rw [List.forall₂_map_left_iff, List.forall₂_map_right_iff]
    exact h.imp fun v w hvw => .cons (.value hvw) .nil
  exact (Statement.Alike.append (.cons (.wording rfl) .nil)
    (Statement.alike_separated [.text ", "] rfl hitems)).append (.cons (.wording rfl) .nil)

/-- A leaf is written alike for equal values. -/
theorem piecesWith_agree (l : Leaf) (table : Option TableRef) {v w : Value}
    (h : Value.same v w = true) :
    Agree Statement.Alike (l.piecesWith table v) (l.piecesWith table w) := by
  have hhead : Statement.Alike l.head l.head := Statement.alike_of_values_eq_nil l.values_head
  unfold piecesWith
  cases Operator.ofWording l.op with
  | unary => exact .ok hhead
  | membership =>
    -- only a list with items is written, and equal lists have equally many
    cases v with
    | list vs =>
      cases w with
      | list ws =>
        cases Value.forall₂_of_sameAll h with
        | nil => exact .error _ _
        | cons hvw hrest => exact .ok (hhead.append (alike_marks (.cons hvw hrest)))
      | _ => simp [Value.same] at h
    | _ =>
      cases w with
      | list ws => simp [Value.same] at h
      | _ => exact .error _ _
  | binary =>
    dsimp only
    rw [Value.columnRef?_of_same h]
    cases w.columnRef? with
    | some ref => exact .ok (hhead.append (Statement.alike_of_values_eq_nil rfl))
    | none =>
      dsimp only
      split
      · exact .ok hhead
      · exact .ok (hhead.append (.cons (.wording rfl) (.cons (.value h) .nil)))

/-- A leaf is written alike for alike queries. -/
theorem pieces_agree (l : Leaf) {query query' : Entries Value} (h : query.Alike query')
    (table : Option TableRef) :
    Agree Statement.Alike (l.pieces query table) (l.pieces query' table) := by
  have hkey := h l.column
  unfold pieces
  generalize query.get? l.column = v at hkey
  generalize query'.get? l.column = w at hkey
  cases hkey with
  | none => exact .ok .nil
  | some hvw => exact l.piecesWith_agree table hvw

end Leaf

namespace Filter

variable {query query' : Entries Value}

theorem alike_enclose (connective : Connective) {ss ts : List Statement}
    (h : List.Forall₂ Statement.Alike ss ts) :
    Statement.Alike (enclose connective ss) (enclose connective ts) := by
  cases h with
  | nil => exact .nil
  | cons hst h =>
    cases h with
    | nil => exact hst
    | cons hst' h =>
      have hall := Statement.alike_separated [.text (" " ++ connective.name ++ " ")] rfl
        (.cons hst (.cons hst' h))
      exact (Statement.Alike.append (.cons (.wording rfl) .nil) hall).append
        (.cons (.wording rfl) .nil)

mutual

/-- A filter is written alike for alike queries. -/
theorem pieces_agree (h : query.Alike query') (table : Option TableRef) : ∀ f : Filter,
    Agree Statement.Alike (f.pieces query table) (f.pieces query' table)
  | .leaf l => l.pieces_agree h table
  | .group connective members =>
    (piecesOf_agree h table members).map fun _ _ => alike_enclose connective

theorem piecesOf_agree (h : query.Alike query') (table : Option TableRef) : ∀ fs : List Filter,
    Agree (List.Forall₂ Statement.Alike) (piecesOf query table fs) (piecesOf query' table fs)
  | [] => .ok .nil
  | f :: fs => by
    have hf := pieces_agree h table f
    have hfs := piecesOf_agree h table fs
    unfold piecesOf
    generalize pieces query table f = x at hf
    generalize pieces query' table f = y at hf
    cases hf with
    | error u u' => exact .error _ _
    | @ok s t hst =>
      generalize piecesOf query table fs = x at hfs
      generalize piecesOf query' table fs = y at hfs
      cases hfs with
      | error u u' => exact .error _ _
      | ok hrest =>
        refine .ok ?_
        rw [hst.isEmpty_eq]
        split
        · exact hrest
        · exact .cons hst hrest

end

end Filter

namespace Statement

/-- The clause that restricts a statement is written alike for alike queries. -/
theorem whereClause_agree {query query' : Entries Value} (h : query.Alike query')
    (filter : Option Filter) (table : TableRef) :
    Agree Alike (whereClause filter query table) (whereClause filter query' table) := by
  have hcondition : Agree Alike (condition filter query table) (condition filter query' table) := by
    cases filter with
    | none => exact .ok .nil
    | some f => exact (f.pieces_agree h (some table)).mapError _ _
  refine hcondition.map fun s t hst => ?_
  rw [hst.isEmpty_eq]
  split
  · exact .nil
  · exact .cons (.wording rfl) hst

end Statement

/-! ## Totals -/

/-- What a total is counted over; a part that is unread may not be there. -/
structure Counted where
  table : Except Failure TableRef
  joins : Except Failure (List Join)
  filter : Except Failure (Option Filter)
  /-- The column whose distinct values are counted; without one it is the rows. -/
  distinct : Except Failure (Option String)

namespace Counted

/-- The column whose distinct values are counted when a list has this first column. -/
def distinct? (first : Option String) : Option String :=
  (first.filter Statement.isDistinct).map fun column => (Reference.splitAlias column).1

/-- What is counted, as a piece of the statement. -/
def target (distinct : Option String) : Piece :=
  distinct.elim (.text "*") .column

theorem countTarget_eq (first : Option String) :
    Statement.countTarget first = target (distinct? first) := by
  cases first with
  | none => rfl
  | some column =>
    rw [Statement.countTarget_some, distinct?, Option.filter]
    split <;> rfl

/-- What the total of a request is counted over. -/
def ofRequest (r : Request) : Counted where
  table := .ok r.expression.table
  joins := .ok r.expression.joins
  filter := .ok r.expression.filter
  distinct := .ok (distinct? r.expression.columns.head?)

/-- What the total of a sketch is counted over. -/
def ofSketch (s : Sketch) : Counted where
  table := s.draft.table
  joins := s.draft.joins
  filter := s.draft.filter
  distinct := do return distinct? (← (← s.draft.firstColumn?).mapM Value.toText)

/-- The table and its joins. -/
def source (x : Counted) (d : Dialect) : Except Failure Statement := do
  Statement.fromClause d (← x.table) (← x.joins)

/-- The clause that restricts the rows for a query. -/
def restriction (x : Counted) (query : Value) : Except Failure Statement := do
  let filter ← x.filter
  Statement.whereClause filter (← Sketch.queryFor filter query) (← x.table)

/-- The statement of the total for a query. -/
def total (x : Counted) (d : Dialect) (query : Value) : Except Failure Statement := do
  let distinct ← x.distinct
  let source ← x.source d
  return Statement.counting (target distinct) source (← x.restriction query)

theorem compose_total_request (r : Request) (d : Dialect) (withTotal : Bool) :
    Statement.compose d .total withTotal r = some <$> (ofRequest r).total d (.map r.query) := by
  unfold Statement.compose Statement.count
  rw [countTarget_eq]
  rfl

theorem compose_total_sketch (s : Sketch) (d : Dialect) (withTotal : Bool) :
    s.compose d .total withTotal = some <$> (ofSketch s).total d (s.command.member "query") := by
  unfold Sketch.compose Sketch.count total ofSketch
  simp only [countTarget_eq, bind_assoc, pure_bind]
  rfl

theorem queryFor_of_ne_map (filter : Option Filter) {v : Value} (h : ∀ members, v ≠ .map members) :
    Sketch.queryFor filter v = (do
      if ← ((filter.map Filter.columns).getD []).anyM fun c => v.holds (.text c) then
        throw .wrongKind
      return []) := by
  cases v with
  | map members => exact absurd rfl (h members)
  | _ => rfl

/-- The query values for a filter are alike for equal queries. A query that is no mapping has none,
and holds no column of the filter then. -/
theorem queryFor_agree {v w : Value} (h : Value.same v w = true)
    (hdistinct : v.Distinct) (filter : Option Filter) :
    Agree Entries.Alike (Sketch.queryFor filter v) (Sketch.queryFor filter w) := by
  by_cases hmap : ∃ members, v = .map members
  · obtain ⟨members, rfl⟩ := hmap
    cases w with
    | map members' => exact .ok (Value.alike_of_same (hdistinct members rfl) h)
    | _ => simp [Value.same] at h
  · rw [not_exists] at hmap
    have hmap' : ∀ members, w ≠ .map members := by
      rintro members rfl
      cases v with
      | map members' => exact hmap members' rfl
      | _ => simp [Value.same] at h
    rw [queryFor_of_ne_map filter hmap, queryFor_of_ne_map filter hmap']
    refine (Agree.anyM (fun c => Value.holds_text_of_same h hmap c) _).bind fun found _ hfound => ?_
    subst hfound
    cases found with
    | true => exact .error _ _
    | false => exact .ok fun _ => .none

/-- For equal queries the same is counted. -/
theorem total_agree (x : Counted) (d : Dialect) {v w : Value} (h : Value.same v w = true)
    (hdistinct : v.Distinct) :
    Agree Statement.Alike (x.total d v) (x.total d w) := by
  have hrestriction : Agree Statement.Alike (x.restriction v) (x.restriction w) :=
    .bind_self fun filter _ => (queryFor_agree h hdistinct filter).bind fun q q' hq =>
      .bind_self fun table _ => Statement.whereClause_agree hq filter table
  refine .bind_self fun distinct _ => .bind_self fun source hsource => ?_
  refine hrestriction.bind fun s t hst => .ok ?_
  -- the values of a total are those of its restriction
  obtain ⟨table, -, hsource⟩ := ok_of_bind hsource
  obtain ⟨joins, -, hsource⟩ := ok_of_bind hsource
  have hlead : (Statement.totalLead (target distinct)).values = [] := by cases distinct <;> rfl
  have hlead := Statement.alike_of_values_eq_nil hlead
  have hsource := Statement.alike_of_values_eq_nil (Statement.values_fromClause hsource)
  exact (hlead.append hsource).append hst

end Counted

end TableOps
