import TableOps.Proofs.Statement.BoundValues

/-!
# Refused filters

A filter is written in one pass from left to right, which stops at the first membership test that
has no list with items. What was bound until then stays bound.

* `Leaf.applies`, `Leaf.Refused` — the leaf has a value in the query, and one it cannot be written
  with.
* `Leaf.comparison` — what is written for a leaf that is not refused.
* `Leaf.refusal` — the refusal of the first of some leaves that are refused;
  `Leaf.refusal_cases`, which leaf that is.

Main statement: `Filter.pieces_eq_assemble`, a filter is refused as its leaves are, and else
assembled from what is written for them.
-/

namespace TableOps

/-- The refusal with values bound before it. -/
def Unrenderable.after (values : List Value) (u : Unrenderable) : Unrenderable :=
  { u with bound := values ++ u.bound }

theorem Unrenderable.after_comp_after (values values' : List Value) :
    after values ∘ after values' = after (values ++ values') := by
  funext u
  simp only [Function.comp, after, List.append_assoc]

namespace Leaf

variable (query : Entries Value) (table : Option TableRef)

/-- The query has a value for the column of the leaf. -/
def applies (l : Leaf) : Bool :=
  query.has l.column

/-- The leaf is a membership test whose value is not a list with items. -/
def Refused (l : Leaf) : Prop :=
  Text.upper (Text.trimmed l.op) ∈ ["IN", "NOT IN"] ∧
    ∃ v, query.get? l.column = some v ∧ v.listed = []

/-- The comparison that a leaf stands for. -/
def comparison (l : Leaf) : Statement :=
  l.head ++ l.operand table ((query.get? l.column).getD .null)

/-- The leaf when it applies. -/
def applied? (l : Leaf) : Option Leaf :=
  if l.applies query then some l else none

/-- What is written for a leaf that is not refused. -/
def written (l : Leaf) : Statement :=
  ((l.applied? query).map (comparison query table)).getD []

theorem comparison_ne_nil (l : Leaf) : l.comparison query table ≠ [] :=
  List.cons_ne_nil _ _

variable {query table}

theorem ofWording_eq_membership_iff (op : String) :
    Operator.ofWording op = .membership ↔ Text.upper (Text.trimmed op) ∈ ["IN", "NOT IN"] := by
  unfold Operator.ofWording Operator.wording
  split <;> simp_all

/-- A membership test without a list with items is refused. -/
theorem piecesWith_of_refused {l : Leaf} {v : Value} (hop : Operator.ofWording l.op = .membership)
    (hv : v.listed = []) : l.piecesWith table v = .error ⟨l.column, v, []⟩ := by
  unfold piecesWith
  rw [hop]
  cases v with
  | list items =>
    cases items with
    | nil => rfl
    | cons item items => cases hv
  | _ => rfl

/-- Any other leaf is written with its operand. -/
theorem piecesWith_of_not_refused {l : Leaf} {v : Value}
    (h : ¬ (Operator.ofWording l.op = .membership ∧ v.listed = [])) :
    l.piecesWith table v = .ok (l.head ++ l.operand table v) := by
  unfold piecesWith operand
  cases hop : Operator.ofWording l.op with
  | unary => exact congrArg Except.ok (List.append_nil _).symm
  | membership =>
    cases v with
    | list items =>
      cases items with
      | nil => exact absurd ⟨hop, rfl⟩ h
      | cons item items => rfl
    | _ => exact absurd ⟨hop, rfl⟩ h
  | binary =>
    cases hc : v.columnRef? with
    | some ref => rfl
    | none =>
      cases l.noArg with
      | true => exact congrArg Except.ok (List.append_nil _).symm
      | false => rfl

theorem written_of_get?_eq_none {l : Leaf} (h : query.get? l.column = none) :
    l.written query table = [] := by
  simp [written, applied?, applies, Entries.has, h]

theorem written_of_get?_eq_some {l : Leaf} {v : Value} (h : query.get? l.column = some v) :
    l.written query table = l.head ++ l.operand table v := by
  simp [written, applied?, applies, Entries.has, comparison, h]

/-- A leaf is refused, or written as the comparison that it stands for if it applies. -/
theorem pieces_cases (query : Entries Value) (table : Option TableRef) (l : Leaf) :
    (∃ v, query.get? l.column = some v ∧ l.Refused query ∧
        l.pieces query table = .error ⟨l.column, v, []⟩) ∨
      ¬ l.Refused query ∧ l.pieces query table = .ok (l.written query table) := by
  unfold pieces Refused
  rw [← ofWording_eq_membership_iff]
  cases hv : query.get? l.column with
  | none =>
    refine Or.inr ⟨?_, by rw [written_of_get?_eq_none hv]⟩
    rintro ⟨-, v, hnone, -⟩
    cases hnone
  | some v =>
    by_cases hrefused : Operator.ofWording l.op = .membership ∧ v.listed = []
    · exact Or.inl ⟨v, rfl, ⟨hrefused.1, v, rfl, hrefused.2⟩,
        piecesWith_of_refused hrefused.1 hrefused.2⟩
    · refine Or.inr ⟨?_, ?_⟩
      · rintro ⟨hop, v', hv', hlisted⟩
        obtain rfl := Option.some.inj hv'
        exact hrefused ⟨hop, hlisted⟩
      · rw [written_of_get?_eq_some hv]
        exact piecesWith_of_not_refused hrefused

theorem pieces_of_not_refused {l : Leaf} (h : ¬ l.Refused query) :
    l.pieces query table = .ok (l.written query table) := by
  rcases l.pieces_cases query table with ⟨v, -, hrefused, -⟩ | ⟨-, hpieces⟩
  · exact absurd hrefused h
  · exact hpieces

/-! ## Several leaves -/

/-- The refusal of the first of some leaves that are refused, with what is bound before it. -/
def refusal (query : Entries Value) (table : Option TableRef) : List Leaf → Option Unrenderable
  | [] => none
  | l :: leaves =>
    match l.pieces query table with
    | .error u => some u
    | .ok s => (refusal query table leaves).map (Unrenderable.after s.values)

theorem refusal_cons {l : Leaf} (h : ¬ l.Refused query) (leaves : List Leaf) :
    refusal query table (l :: leaves) =
      (refusal query table leaves).map (Unrenderable.after (l.bound query)) := by
  have hpieces : l.pieces query table = .ok (l.written query table) := pieces_of_not_refused h
  rw [refusal, hpieces]
  dsimp only
  rw [values_pieces hpieces]

/-- Of leaves the first refused one is refused, and what is bound is bound by the leaves before
it; or none is refused. -/
theorem refusal_cases (leaves : List Leaf) :
    (∃ (before : List Leaf) (l : Leaf) (after : List Leaf) (v : Value),
        leaves = before ++ l :: after ∧ (∀ k ∈ before, ¬ k.Refused query) ∧ l.Refused query ∧
        query.get? l.column = some v ∧
        refusal query table leaves = some ⟨l.column, v, before.flatMap (bound query)⟩) ∨
      (∀ l ∈ leaves, ¬ l.Refused query) ∧ refusal query table leaves = none := by
  induction leaves with
  | nil => exact Or.inr ⟨fun _ h => (List.not_mem_nil h).elim, rfl⟩
  | cons l leaves ih =>
    rcases l.pieces_cases query table with ⟨v, hv, hrefused, hpieces⟩ | ⟨hl, -⟩
    · refine Or.inl ⟨[], l, leaves, v, rfl, fun _ h => (List.not_mem_nil h).elim, hrefused, hv, ?_⟩
      rw [refusal, hpieces]
      rfl
    · rcases ih with ⟨before, k, after, v, rfl, hbefore, hrefused, hv, hk⟩ | ⟨hleaves, hnone⟩
      · refine Or.inl ⟨l :: before, k, after, v, rfl, List.forall_mem_cons.mpr ⟨hl, hbefore⟩,
          hrefused, hv, ?_⟩
        simp only [refusal_cons hl, hk, Option.map_some, Unrenderable.after, List.flatMap_cons]
      · refine Or.inr ⟨List.forall_mem_cons.mpr ⟨hl, hleaves⟩, ?_⟩
        rw [refusal_cons hl, hnone]
        rfl

theorem refusal_append (leaves leaves' : List Leaf) :
    refusal query table (leaves ++ leaves') =
      (refusal query table leaves).or
        ((refusal query table leaves').map
          (Unrenderable.after (leaves.flatMap (bound query)))) := by
  induction leaves with
  | nil => exact Option.map_id'.symm
  | cons l leaves ih =>
    rcases l.pieces_cases query table with ⟨v, -, -, hpieces⟩ | ⟨hl, -⟩
    · rw [List.cons_append, refusal, refusal, hpieces]
      rfl
    · rw [List.cons_append, refusal_cons hl, refusal_cons hl, ih, Option.map_or, Option.map_map,
        Unrenderable.after_comp_after, List.flatMap_cons]

theorem bound_of_applies_eq_false {l : Leaf} (h : l.applies query = false) :
    l.bound query = [] := by
  rw [applies, Entries.has, Option.isSome_eq_false_iff, Option.isNone_iff_eq_none] at h
  rw [bound, h]

/-- What leaves bind is bound by those that apply. -/
theorem flatMap_bound_filter (leaves : List Leaf) :
    (leaves.filter (applies query)).flatMap (bound query) = leaves.flatMap (bound query) := by
  induction leaves with
  | nil => rfl
  | cons l leaves ih =>
    rw [List.flatMap_cons, ← ih]
    cases h : l.applies query with
    | true => rw [List.filter_cons_of_pos h, List.flatMap_cons]
    | false =>
      rw [List.filter_cons_of_neg (by rw [h]; exact Bool.false_ne_true),
        bound_of_applies_eq_false h, List.nil_append]

/-- Only leaves that apply are refused. -/
theorem refusal_filter (leaves : List Leaf) :
    refusal query table (leaves.filter (applies query)) = refusal query table leaves := by
  induction leaves with
  | nil => rfl
  | cons l leaves ih =>
    cases h : l.applies query with
    | true => rw [List.filter_cons_of_pos h, refusal, refusal, ih]
    | false =>
      have hl : ¬ l.Refused query := by
        rintro ⟨-, v, hv, -⟩
        rw [applies, Entries.has, hv] at h
        cases h
      rw [List.filter_cons_of_neg (by rw [h]; exact Bool.false_ne_true), refusal_cons hl,
        bound_of_applies_eq_false h, ih]
      exact Option.map_id'.symm

end Leaf

/-! ## Filters -/

namespace Filter

open Leaf

variable {query : Entries Value} {table : Option TableRef}

/-- A filter that is written binds what its leaves bind. -/
theorem values_eq_of_pieces {f : Filter} {s : Statement} (h : f.pieces query table = .ok s) :
    s.values = f.leaves.flatMap (bound query) := by
  obtain ⟨parts, hparts, hmade⟩ := madeOf_pieces f s h
  rw [hmade.values_eq, hparts.values_eq]

mutual

/-- A filter is refused as its leaves are, and else assembled from what is written for them. -/
theorem pieces_eq_assemble : ∀ f : Filter, f.pieces query table =
    match refusal query table f.leaves with
    | some u => .error u
    | none => .ok (f.assemble (written query table))
  | .leaf l => by
    rw [pieces, leaves, assemble]
    rcases l.pieces_cases query table with ⟨v, -, -, hpieces⟩ | ⟨hl, hpieces⟩
    · rw [refusal, hpieces]
    · rw [refusal_cons hl, hpieces]
      rfl
  | .group connective members => by
    rw [pieces, piecesOf_eq_assembleAll members, leaves, assemble]
    cases refusal query table (leavesOf members) <;> rfl

theorem piecesOf_eq_assembleAll : ∀ fs : List Filter, piecesOf query table fs =
    match refusal query table (leavesOf fs) with
    | some u => .error u
    | none => .ok (assembleAll (written query table) fs)
  | [] => rfl
  | f :: fs => by
    have hf := pieces_eq_assemble f
    rw [piecesOf, leavesOf, refusal_append, piecesOf_eq_assembleAll fs, assembleAll]
    cases hrefusal : refusal query table f.leaves with
    | some u =>
      rw [hrefusal] at hf
      rw [hf]
      rfl
    | none =>
      rw [hrefusal] at hf
      rw [hf]
      -- a refusal further to the right counts the values of this filter as bound
      cases refusal query table (leavesOf fs) with
      | some u =>
        dsimp only
        rw [values_eq_of_pieces hf]
        rfl
      | none =>
        dsimp only [Option.map_none, Option.or_none]
        rw [Statement.kept]
        split <;> rfl

end

end Filter

end TableOps
