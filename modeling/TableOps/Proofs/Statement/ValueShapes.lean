import TableOps.Proofs.Entries
import TableOps.Proofs.Statement.Composed
import TableOps.Proofs.Statement.BoundValues

/-!
# Statements and the shapes of values

Of the values of a request a statement only tells which of them are lists, and of how many items.
Requests that differ in their values otherwise are sent as the same text, with equally many bound
values, or fail alike. So no value can change what a statement says.

* `Value.SameShape` — both are lists of equally many items, or neither is a list.
* `Statement.SameButValues` — the same pieces, with whatever values; `render_eq`, the same text.
* `Failure.withoutValue` — a failure without the value that it refuses.
* `Filter.pieces_sameShape` — a filter for two queries of one shape.
* `Request.SameShape` — requests that differ in values of one shape.

Main statement: `Statement.text_eq_of_sameShape`, the texts of two such requests.
-/

namespace TableOps

/-! ## Values -/

/-- Both are lists of equally many items, or neither is a list. -/
inductive Value.SameShape : Value → Value → Prop where
  | lists {vs ws : List Value} (h : vs.length = ws.length) : SameShape (.list vs) (.list ws)
  | others {v w : Value} (hv : ∀ items, v ≠ .list items) (hw : ∀ items, w ≠ .list items) :
      SameShape v w

/-- No value of the query names a column. -/
def Entries.Plain (query : Entries Value) : Prop :=
  ∀ e ∈ query, e.2.columnRef? = none

/-- The queries have values of one shape under the same names, in whatever order. -/
def Entries.SameShape (query query' : Entries Value) : Prop :=
  ∀ key, Option.Rel Value.SameShape (query.get? key) (query'.get? key)

/-! ## Statements without their values -/

/-- A piece without the value that it binds. -/
def Piece.blank : Piece → Piece
  | .value _ => .value .null
  | p => p

namespace Statement

/-- A statement without the values that it binds. -/
def blank (s : Statement) : Statement :=
  s.map Piece.blank

/-- The same pieces, with whatever values. -/
def SameButValues (s t : Statement) : Prop :=
  s.blank = t.blank

theorem blank_append (s t : Statement) : (s ++ t).blank = s.blank ++ t.blank :=
  List.map_append

theorem blank_separated (separator : Statement) (ss : List Statement) :
    (separated separator ss).blank = separated separator.blank (ss.map blank) := by
  induction ss with
  | nil => rfl
  | cons s ss ih =>
    cases ss with
    | nil => rfl
    | cons s' ss =>
      have hleft : separated separator (s :: s' :: ss) =
          s ++ separator ++ separated separator (s' :: ss) := rfl
      rw [hleft, blank_append, blank_append, ih]
      rfl

theorem blank_commaSeparated (ss : List Statement) :
    (commaSeparated ss).blank = commaSeparated (ss.map blank) :=
  blank_separated _ ss

theorem values_blank (s : Statement) : s.blank.values = s.values.map fun _ => .null := by
  induction s with
  | nil => rfl
  | cons p s ih =>
    have hcons : blank (p :: s) = p.blank :: blank s := rfl
    cases p with
    | value v => exact congrArg (Value.null :: ·) ih
    | _ => exact ih

theorem textsFrom_blank (w : Writer) (n : Nat) (s : Statement) :
    textsFrom w n s.blank = textsFrom w n s := by
  induction s generalizing n with
  | nil => rfl
  | cons p s ih =>
    cases p with
    | value v => exact congrArg (w.placeholder n :: ·) (ih (n + 1))
    | _ => exact congrArg (List.cons _) (ih n)

/-- What is sent of a statement does not show its values. -/
theorem render_blank (d : Dialect) (s : Statement) : d.render s.blank = d.render s := by
  have hvalues : s.blank.values = [] ↔ s.values = [] := by
    rw [values_blank, List.map_eq_nil_iff]
  unfold Dialect.render write writeFrom
  simp only [textsFrom_blank, hvalues]

namespace SameButValues

variable {s t s' t' : Statement}

theorem refl (s : Statement) : SameButValues s s :=
  rfl

theorem append (h : SameButValues s t) (h' : SameButValues s' t') :
    SameButValues (s ++ s') (t ++ t') := by
  rw [SameButValues, blank_append, blank_append, h, h']

theorem isEmpty_eq (h : SameButValues s t) : s.isEmpty = t.isEmpty := by
  have hempty : ∀ u : Statement, u.blank.isEmpty = u.isEmpty := fun _ => List.isEmpty_map
  rw [← hempty s, ← hempty t, h]

theorem length_values (h : SameButValues s t) : s.values.length = t.values.length := by
  have hlength : ∀ u : Statement, u.blank.values.length = u.values.length := fun u => by
    rw [values_blank, List.length_map]
  rw [← hlength s, ← hlength t, h]

theorem render_eq (h : SameButValues s t) (d : Dialect) : d.render s = d.render t := by
  rw [← render_blank d s, ← render_blank d t, h]

end SameButValues

end Statement

/-! ## Failures without values -/

/-- The failure without the value that it refuses. -/
def Failure.withoutValue : Failure → Failure
  | .malformed (.emptyMembership column _) => .malformed (.emptyMembership column .null)
  | f => f

/-- The same failure, refusing whatever value. -/
def Failure.SameButValue (f f' : Failure) : Prop :=
  f.withoutValue = f'.withoutValue

theorem Failure.SameButValue.refl (f : Failure) : f.SameButValue f :=
  rfl

/-- Both refuse a membership test of the same column. -/
def Unrenderable.SameColumn (u u' : Unrenderable) : Prop :=
  u.column = u'.column

/-! ## Conditions -/

namespace Leaf

open Statement

theorem blank_marks (items : List Value) :
    (marks items).blank = marks (List.replicate items.length .null) := by
  unfold marks
  rw [blank_append, blank_append, blank_commaSeparated, List.map_map, List.map_replicate]
  have hitems : items.map (blank ∘ fun v => [Piece.value v]) =
      List.replicate items.length [.value .null] := by
    rw [← List.map_const']
    rfl
  rw [hitems]
  rfl

/-- A leaf is written with the same pieces for values of one shape that name no column. -/
theorem piecesWith_sameShape (l : Leaf) (table : Option TableRef) {v w : Value}
    (h : Value.SameShape v w) (hv : v.columnRef? = none) (hw : w.columnRef? = none) :
    AgreeUpTo Unrenderable.SameColumn SameButValues
      (l.piecesWith table v) (l.piecesWith table w) := by
  unfold piecesWith
  cases Operator.ofWording l.op with
  | unary => exact .ok (.refl _)
  | membership =>
    -- only a list with items is written, and it is so whatever the items are
    cases h with
    | @lists vs ws hlength =>
      cases vs with
      | nil =>
        cases ws with
        | nil => exact .error rfl
        | cons w ws => cases hlength
      | cons v vs =>
        cases ws with
        | nil => cases hlength
        | cons w ws =>
          refine .ok ((SameButValues.refl _).append ?_)
          rw [SameButValues, blank_marks, blank_marks, hlength]
    | others hv hw =>
      cases v with
      | list items => exact absurd rfl (hv items)
      | _ =>
        cases w with
        | list items => exact absurd rfl (hw items)
        | _ => exact .error rfl
  | binary =>
    simp only [hv, hw]
    split
    · exact .ok (.refl _)
    · exact .ok ((SameButValues.refl _).append rfl)

/-- The same for a leaf that looks its value up. -/
theorem pieces_sameShape (l : Leaf) {query query' : Entries Value} (h : query.SameShape query')
    (hplain : query.Plain) (hplain' : query'.Plain) (table : Option TableRef) :
    AgreeUpTo Unrenderable.SameColumn SameButValues
      (l.pieces query table) (l.pieces query' table) := by
  have hkey := h l.column
  unfold pieces
  cases hv : query.get? l.column with
  | none =>
    rw [hv] at hkey
    cases hw : query'.get? l.column with
    | none => exact .ok (.refl _)
    | some w =>
      rw [hw] at hkey
      cases hkey
  | some v =>
    rw [hv] at hkey
    cases hw : query'.get? l.column with
    | none =>
      rw [hw] at hkey
      cases hkey
    | some w =>
      rw [hw] at hkey
      cases hkey with
      | some hvw =>
        exact l.piecesWith_sameShape table hvw (hplain _ (Entries.mem_of_get? hv))
          (hplain' _ (Entries.mem_of_get? hw))

end Leaf

namespace Filter

open Statement

theorem blank_enclose (connective : Connective) (ss : List Statement) :
    (enclose connective ss).blank = enclose connective (ss.map blank) := by
  match ss with
  | [] => rfl
  | [s] => rfl
  | s :: s' :: ss =>
    have hleft : enclose connective (s :: s' :: ss) = [.text "("] ++
        separated [.text (" " ++ connective.name ++ " ")] (s :: s' :: ss) ++ [.text ")"] := rfl
    rw [hleft, blank_append, blank_append, blank_separated]
    rfl

variable {query query' : Entries Value}

mutual

/-- A filter is written with the same pieces for two queries of one shape, or refused for both. -/
theorem pieces_sameShape (h : query.SameShape query') (hplain : query.Plain)
    (hplain' : query'.Plain) (table : Option TableRef) : ∀ f : Filter,
    AgreeUpTo Unrenderable.SameColumn SameButValues (f.pieces query table) (f.pieces query' table)
  | .leaf l => l.pieces_sameShape h hplain hplain' table
  | .group connective members =>
    (piecesOf_sameShape h hplain hplain' table members).map fun ss ts hst => by
      rw [SameButValues, blank_enclose, blank_enclose, hst]

theorem piecesOf_sameShape (h : query.SameShape query') (hplain : query.Plain)
    (hplain' : query'.Plain) (table : Option TableRef) : ∀ fs : List Filter,
    AgreeUpTo Unrenderable.SameColumn (fun ss ts => ss.map blank = ts.map blank)
      (piecesOf query table fs) (piecesOf query' table fs)
  | [] => .ok rfl
  | f :: fs => by
    have hf := pieces_sameShape h hplain hplain' table f
    have hfs := piecesOf_sameShape h hplain hplain' table fs
    unfold piecesOf
    generalize pieces query table f = x at hf
    generalize pieces query' table f = y at hf
    cases hf with
    | error hu => exact .error hu
    | @ok s t hst =>
      generalize piecesOf query table fs = x at hfs
      generalize piecesOf query' table fs = y at hfs
      cases hfs with
      | error hu => exact .error hu
      | ok hrest =>
        refine .ok ?_
        -- both members are left out, or neither
        rw [hst.isEmpty_eq]
        split
        · exact hrest
        · rw [List.map_cons, List.map_cons, hst, hrest]

end

end Filter

/-! ## Statements of a request -/

namespace Statement

variable {query query' : Entries Value}

/-- The clause that restricts a statement says the same for two queries of one shape. -/
theorem whereClause_sameShape (h : query.SameShape query') (hplain : query.Plain)
    (hplain' : query'.Plain) (filter : Option Filter) (table : TableRef) :
    AgreeUpTo Failure.SameButValue SameButValues (whereClause filter query table)
      (whereClause filter query' table) := by
  have hcondition : AgreeUpTo Failure.SameButValue SameButValues (condition filter query table)
      (condition filter query' table) := by
    cases filter with
    | none => exact .ok (.refl _)
    | some f =>
      refine (f.pieces_sameShape h hplain hplain' (some table)).mapError fun u u' hu => ?_
      rw [Failure.SameButValue, Unrenderable.failure, Unrenderable.failure, hu]
      rfl
  refine hcondition.map fun s t hst => ?_
  rw [hst.isEmpty_eq]
  split
  · exact .refl _
  · exact (SameButValues.refl [.text " WHERE "]).append hst

/-- A write leaves a query as it is when none of its values names a column. -/
theorem restrictQuery_of_plain {query : Entries Value} (h : query.Plain) (table : TableRef)
    (used : List String) : restrictQuery table used query = pure query := by
  induction query with
  | nil => rfl
  | cons e query ih =>
    obtain ⟨he, hquery⟩ := List.forall_mem_cons.mp h
    rw [restrictQuery, he, ih hquery]
    rfl

/-- Which columns are written depends on which columns the data has values for. -/
theorem writableFrom_congr {data data' : Entries Value} (h : ∀ c, data.has c = data'.has c)
    (columns : List String) : ∀ seen, writableFrom data seen columns =
      writableFrom data' seen columns := by
  induction columns with
  | nil => exact fun _ => rfl
  | cons c columns ih =>
    intro seen
    rw [writableFrom, writableFrom, h c, ih, ih]

end Statement

/-- The requests differ in the values of their data and of their queries only. Data has values for
the same columns; the values of the queries have one shape, and none of them names a column. -/
structure Request.SameShape (r r' : Request) : Prop where
  expression : r.expression = r'.expression
  fields : r.fields = r'.fields
  page : r.page = r'.page
  schema : r.schema = r'.schema
  data : ∀ column, (r.data.getD []).has column = (r'.data.getD []).has column
  query : r.query.SameShape r'.query
  plain : r.query.Plain
  plain' : r'.query.Plain

namespace Statement

variable {r r' : Request}

theorem select?_sameShape (h : r.SameShape r') (d : Dialect) (paged : Bool) :
    AgreeUpTo Failure.SameButValue (Option.Rel SameButValues) (select? d r paged)
      (select? d r' paged) := by
  unfold select?
  rw [h.expression, h.fields]
  split
  · exact .ok .none
  · refine .bind_self Failure.SameButValue.refl fun source _ => ?_
    refine (whereClause_sameShape h.query h.plain h.plain' _ _).bind fun s t hst => ?_
    refine .bind_self Failure.SameButValue.refl fun extra _ => .ok (.some ?_)
    exact ((SameButValues.refl _).append hst).append (.refl _)

theorem count_sameShape (h : r.SameShape r') (d : Dialect) :
    AgreeUpTo Failure.SameButValue SameButValues (count d r) (count d r') := by
  unfold count
  rw [h.expression]
  refine .bind_self Failure.SameButValue.refl fun source _ => ?_
  refine (whereClause_sameShape h.query h.plain h.plain' _ _).bind fun s t hst => .ok ?_
  exact (SameButValues.refl _).append hst

/-- The values of a written row are written alike. -/
theorem sameButValues_commaSeparated_map {f g : String → Statement}
    (h : ∀ c, SameButValues (f c) (g c)) (columns : List String) :
    SameButValues (commaSeparated (columns.map f)) (commaSeparated (columns.map g)) := by
  rw [SameButValues, blank_commaSeparated, blank_commaSeparated, List.map_map, List.map_map]
  congr 2
  funext c
  exact h c

theorem insert_sameShape (h : r.SameShape r') (d : Dialect) :
    AgreeUpTo Failure.SameButValue SameButValues (insert d r) (insert d r') := by
  unfold insert writable
  dsimp only
  rw [h.expression, h.schema, writableFrom_congr h.data]
  refine .bind_self Failure.SameButValue.refl fun columns _ => .ok ?_
  have hrow := sameButValues_commaSeparated_map
    (f := fun c => [.value (valueOf (r.data.getD []) c)])
    (g := fun c => [.value (valueOf (r'.data.getD []) c)]) (fun c => rfl) columns
  exact (((SameButValues.refl _).append hrow).append (.refl _)).append (.refl _)

theorem update_sameShape (h : r.SameShape r') :
    AgreeUpTo Failure.SameButValue SameButValues (update r) (update r') := by
  unfold update writable writeQuery restriction
  dsimp only
  rw [h.expression, restrictQuery_of_plain h.plain, restrictQuery_of_plain h.plain',
    pure_bind, pure_bind, writableFrom_congr h.data]
  refine .bind_self Failure.SameButValue.refl fun columns _ => ?_
  refine (whereClause_sameShape h.query h.plain h.plain' _ _).bind fun s t hst => .ok ?_
  have hrow := sameButValues_commaSeparated_map (f := assignment (r.data.getD []))
    (g := assignment (r'.data.getD [])) (fun c => rfl) columns
  exact ((SameButValues.refl _).append hrow).append hst

theorem delete_sameShape (h : r.SameShape r') :
    AgreeUpTo Failure.SameButValue SameButValues (delete r) (delete r') := by
  unfold delete writeQuery restriction
  dsimp only
  rw [h.expression, restrictQuery_of_plain h.plain, restrictQuery_of_plain h.plain',
    pure_bind, pure_bind]
  refine (whereClause_sameShape h.query h.plain h.plain' _ _).bind fun s t hst => .ok ?_
  exact (SameButValues.refl _).append hst

/-- Requests that differ in values of one shape have statements that differ in these values only, or
none, or fail alike. -/
theorem compose_sameShape (h : r.SameShape r') (d : Dialect) (kind : StatementKind)
    (withTotal : Bool) :
    AgreeUpTo Failure.SameButValue (Option.Rel SameButValues) (compose d kind withTotal r)
      (compose d kind withTotal r') := by
  have hsome : ∀ {x y : Except Failure Statement},
      AgreeUpTo Failure.SameButValue SameButValues x y →
        AgreeUpTo Failure.SameButValue (Option.Rel SameButValues) (x.map some) (y.map some) :=
    fun hxy => hxy.map fun _ _ => .some
  unfold compose
  cases kind with
  | total => exact hsome (count_sameShape h d)
  | of op =>
    cases op with
    | query =>
      refine (select?_sameShape h d false).bind fun s? t? hst => .ok ?_
      cases hst with
      | none => exact .none
      | some hst => exact .some (hst.append (.refl _))
    | list =>
      dsimp only
      rw [h.page]
      cases r'.page with
      | none => exact select?_sameShape h d false
      | some p =>
        refine (select?_sameShape h d withTotal).bind fun s? t? hst => ?_
        cases hst with
        | none => exact .ok .none
        | some hst =>
          exact .bind_self Failure.SameButValue.refl fun cut _ => .ok (.some (hst.append (.refl _)))
    | insert => exact hsome (insert_sameShape h d)
    | update => exact hsome (update_sameShape h)
    | delete => exact hsome (delete_sameShape h)

/-- No value can change what a statement says. Requests that differ in values only, lists being as
long as each other, are sent as the same text with equally many bound values, or have no statement,
or fail alike. -/
theorem text_eq_of_sameShape (h : r.SameShape r') (d : Dialect) (kind : StatementKind)
    (withTotal : Bool) :
    AgreeUpTo Failure.SameButValue
      (Option.Rel fun s s' => d.render s = d.render s' ∧ s.values.length = s'.values.length)
      (compose d kind withTotal r) (compose d kind withTotal r') := by
  refine (compose_sameShape h d kind withTotal).imp fun s? t? hst => ?_
  cases hst with
  | none => exact .none
  | some hst => exact .some ⟨hst.render_eq d, hst.length_values⟩

end Statement

/-- The renaming with one value in all places. -/
def Request.renamingBy (v : Value) : Request :=
  { Request.renaming with
    data := some [("name", v), ("age", v)]
    query := [("age", .list [v, v]), ("name", v), ("addr", v)] }

theorem Request.plain_query_renamingBy {v : Value} (hv : v.columnRef? = none) :
    (renamingBy v).query.Plain := by
  intro e he
  simp only [renamingBy, List.mem_cons, List.not_mem_nil, or_false] at he
  rcases he with rfl | rfl | rfl
  · rfl
  · exact hv
  · exact hv

theorem Request.renamingBy_sameShape {v w : Value} (h : Value.SameShape v w)
    (hv : v.columnRef? = none) (hw : w.columnRef? = none) :
    (renamingBy v).SameShape (renamingBy w) where
  expression := rfl
  fields := rfl
  page := rfl
  schema := rfl
  data := fun column => by
    simp only [renamingBy, Option.getD_some, Entries.has, Entries.get?]
    split_ifs <;> rfl
  query := fun key => by
    have hitems : Value.SameShape (.list [v, v]) (.list [w, w]) := .lists rfl
    simp only [renamingBy, Entries.get?]
    split_ifs <;> constructor <;> assumption
  plain := Request.plain_query_renamingBy hv
  plain' := Request.plain_query_renamingBy hw

/-- A number and a text full of quotes and percent signs are written alike. -/
theorem Statement.text_eq_of_sameShape_renamingBy :
    Value.SameShape (.int 7) (.text "' OR 1 = 1 -- %s") ∧
      AgreeUpTo Failure.SameButValue
        (Option.Rel fun s s' =>
          Dialect.render ⟨.mysql, .format, by decide⟩ s =
              Dialect.render ⟨.mysql, .format, by decide⟩ s' ∧
            s.values.length = s'.values.length)
        (compose ⟨.mysql, .format, by decide⟩ (.of .update) true (Request.renamingBy (.int 7)))
        (compose ⟨.mysql, .format, by decide⟩ (.of .update) true
          (Request.renamingBy (.text "' OR 1 = 1 -- %s"))) := by
  have hshape : Value.SameShape (.int 7) (.text "' OR 1 = 1 -- %s") :=
    .others (fun _ h => by cases h) fun _ h => by cases h
  exact ⟨hshape, text_eq_of_sameShape
    (Request.renamingBy_sameShape hshape (by decide +kernel) (by decide +kernel)) _ _ _⟩

end TableOps
