import Mathlib.Data.List.Nodup
import TableOps.Proofs.Filter.Conditions
import TableOps.Proofs.Statement.BoundValues
import TableOps.Proofs.Statement.Comparisons
import TableOps.Value.Equality

/-!
# The values that plain conditions bind

Conditions keep the tree of their comparisons and their values apart: the tree in a filter, the
values in one flat query. When the filter is written with the query, a comparison is written with
the value that the last condition on its column has left there, which may not be its own.

* `Conditions.Comparison.held` — the value that the query has for a comparison.
* `Conditions.Comparison.Agrees` — a value with which a comparison is written as with its own.
* `Conditions.keeps_of_nodup` — conditions on different columns keep their values.

Main statement: `Conditions.values_of_pieces`, what the written filter binds, and when every
comparison is written with its own value.
-/

namespace TableOps

/-! ## How a leaf is written -/

namespace Leaf.Written

variable {l : Leaf} {table : Option TableRef} {v : Value} {p : Statement}

/-- A membership test is written with the items of its value. -/
theorem exists_items (h : l.Written table v p) (hop : Operator.ofWording l.op = .membership) :
    ∃ items, v = .list items ∧ p = l.head ++ marks items := by
  cases h with
  | membership _ items hitems => exact ⟨items, hitems, rfl⟩
  | unary hop' => cases hop.symm.trans hop'
  | reference hop' => cases hop.symm.trans hop'
  | alone hop' => cases hop.symm.trans hop'
  | value hop' => cases hop.symm.trans hop'

/-- Any other operator that takes a value is written with a reference or with the value. -/
theorem reference_or_value (h : l.Written table v p) (hop : Operator.ofWording l.op = .binary)
    (hn : l.noArg = false) :
    (∃ ref, v.columnRef? = some ref ∧
        p = l.head ++ [.text " ", .column (l.resolve table ref)]) ∨
      (v.columnRef? = none ∧ p = l.head ++ [.text " ", .value v]) := by
  cases h with
  | reference _ ref href => exact .inl ⟨ref, href, rfl⟩
  | value _ href => exact .inr ⟨href, rfl⟩
  | alone _ _ hn' => cases hn.symm.trans hn'
  | unary hop' => cases hop.symm.trans hop'
  | membership hop' => cases hop.symm.trans hop'

end Leaf.Written

/-- Two lists of items that are written in the same way are the same. -/
theorem Leaf.items_of_marks {items items' : List Value} (h : marks items = marks items') :
    items = items' := by
  rw [← values_marks items, h, values_marks]

/-! ## Values that agree -/

namespace Conditions

open TableOps.Filter Statement

namespace Comparison

/-- The value that the query has for a comparison: that of the last condition whose key is the
column of this one. -/
def held (all : List Comparison) (c : Comparison) : Option Value :=
  Entries.get? (all.map entry).reverse c.leaf.column

/-- The values with which a comparison is written as with its own: any value when the operator stands
alone, the value itself, and another reference to the same column. -/
inductive Agrees (table : Option TableRef) (c : Comparison) : Value → Prop where
  | unary (hop : Operator.ofWording c.leaf.op = .unary) (v : Value) : Agrees table c v
  | own : Agrees table c c.value
  | reference (hop : Operator.ofWording c.leaf.op = .binary) {v : Value} {ref ref' : String}
      (hv : v.columnRef? = some ref) (hown : c.value.columnRef? = some ref')
      (href : c.leaf.resolve table ref = c.leaf.resolve table ref') : Agrees table c v

variable {table : Option TableRef} {c : Comparison} {v : Value} {p : Statement}

/-- What is bound with a value that agrees is what is bound with the comparison's own. -/
theorem boundBy_of_agrees (h : c.Agrees table v) : c.leaf.boundBy v = c.leaf.boundBy c.value := by
  unfold Leaf.boundBy
  cases h with
  | unary hop => simp only [hop]
  | own => rfl
  | reference hop hv hown => simp only [hop, hv, hown, Option.isSome_some, Bool.true_or, if_true]

/-- With values that agree a comparison is written in the same way. -/
theorem piecesWith_of_agrees (h : c.Agrees table v) :
    c.leaf.piecesWith table v = c.leaf.piecesWith table c.value := by
  unfold Leaf.piecesWith
  cases h with
  | unary hop => simp only [hop]
  | own => rfl
  | reference hop hv hown href => simp only [hop, hv, hown, href]

/-- Values with which a comparison is written in the same way agree. -/
theorem agrees_of_written (hv : c.leaf.Written table v p) (hown : c.leaf.Written table c.value p) :
    c.Agrees table v := by
  cases hop : Operator.ofWording c.leaf.op with
  | unary => exact .unary hop v
  | membership =>
    obtain ⟨items, hitems, hp⟩ := hv.exists_items hop
    obtain ⟨items', hitems', hp'⟩ := hown.exists_items hop
    have heq : items = items' := Leaf.items_of_marks (List.append_cancel_left (hp.symm.trans hp'))
    rw [hitems, heq, ← hitems']
    exact .own
  | binary =>
    rcases hv.reference_or_value hop rfl with ⟨ref, href, hp⟩ | ⟨-, hp⟩ <;>
      rcases hown.reference_or_value hop rfl with ⟨ref', href', hp'⟩ | ⟨-, hp'⟩ <;>
      have hbehind := List.append_cancel_left (hp.symm.trans hp')
    · simp only [List.cons.injEq, Piece.column.injEq, and_true, true_and] at hbehind
      exact .reference hop href href' hbehind
    · simp at hbehind
    · simp at hbehind
    · simp only [List.cons.injEq, Piece.value.injEq, and_true, true_and] at hbehind
      rw [hbehind]
      exact .own

/-- A comparison that is written with `v` is written in the same way with its own value exactly when
the two agree. -/
theorem piecesWith_own_iff (h : c.leaf.piecesWith table v = .ok p) :
    c.leaf.piecesWith table c.value = .ok p ↔ c.Agrees table v := by
  refine ⟨fun hown => ?_, fun hagrees => ?_⟩
  · exact agrees_of_written (Leaf.written_of_piecesWith h) (Leaf.written_of_piecesWith hown)
  · rw [← piecesWith_of_agrees hagrees, h]

/-- The value that the query has for a comparison is its own, as far as that is written. -/
def Keeps (table : Option TableRef) (all : List Comparison) (c : Comparison) : Prop :=
  ∃ w, c.held all = some w ∧ c.Agrees table w

/-- The comparison is written as its own value asks for. -/
def IsOwn (table : Option TableRef) (c : Comparison) (p : Statement) : Prop :=
  c.leaf.piecesWith table c.value = .ok p

variable {all : List Comparison}

/-- What the query has for a comparison was left there by the last condition on its column. -/
theorem get?_ofPairs (all : List Comparison) (c : Comparison) :
    Entries.get? (.ofPairs (all.map entry)) c.leaf.column = c.held all := by
  rw [Entries.ofPairs, Entries.get?_update, held, Entries.get?, Option.or_none]

theorem pieces_eq (all : List Comparison) (c : Comparison) (table : Option TableRef) :
    c.leaf.pieces (.ofPairs (all.map entry)) table =
      (c.held all).elim (.ok []) (c.leaf.piecesWith table) := by
  rw [Leaf.pieces, get?_ofPairs]
  cases c.held all with
  | none => simp only [Option.elim_none]
  | some w => simp only [Option.elim_some]

theorem bound_eq (all : List Comparison) (c : Comparison) :
    c.leaf.bound (.ofPairs (all.map entry)) = (c.held all).elim [] c.leaf.boundBy := by
  rw [Leaf.bound, get?_ofPairs]
  cases c.held all with
  | none => simp only [Option.elim_none]
  | some w => simp only [Option.elim_some]

/-- What is written for a comparison is its own exactly when the query keeps its value. -/
theorem isOwn_iff (h : (c.held all).elim (.ok []) (c.leaf.piecesWith table) = .ok p) :
    c.IsOwn table p ↔ c.Keeps table all := by
  unfold IsOwn Keeps
  cases hheld : c.held all with
  | none =>
    rw [hheld, Option.elim_none] at h
    injection h with h
    subst h
    -- a comparison is never written as nothing
    refine ⟨fun hown => ?_, fun ⟨w, hw, _⟩ => nomatch hw⟩
    cases (Leaf.written_of_piecesWith hown).eq_operand
  | some w =>
    rw [hheld, Option.elim_some] at h
    rw [piecesWith_own_iff h]
    exact ⟨fun hagrees => ⟨w, rfl, hagrees⟩, fun ⟨w', hw', hagrees⟩ => Option.some.inj hw' ▸ hagrees⟩

end Comparison

/-! ## The written filter -/

open Comparison

/-- When related items pair up, a second relation between them holds throughout exactly when what it
comes to for each item does. -/
theorem forall₂_iff_forall {α β : Type} {R S : α → β → Prop} {T : α → Prop} {as : List α}
    {bs : List β} (h : List.Forall₂ R as bs) (hiff : ∀ a b, R a b → (S a b ↔ T a)) :
    List.Forall₂ S as bs ↔ ∀ a ∈ as, T a := by
  induction h with
  | nil => simp
  | @cons a b as bs hab h ih =>
    rw [List.forall₂_cons, List.forall_mem_cons, hiff a b hab, ih]

/-- Conditions on different columns, each under the name of its column, keep their values. -/
theorem keeps_of_nodup {all : List Comparison} (hcolumn : ∀ c ∈ all, c.leaf.column = c.name)
    (hnodup : (all.map Comparison.name).Nodup) (table : Option TableRef) :
    ∀ c ∈ all, c.Keeps table all := by
  intro c hc
  have honly : Entries.Only (all.map entry) c.name c.value := by
    refine ⟨⟨c.value, List.mem_map_of_mem hc⟩, fun w hw => ?_⟩
    obtain ⟨d, hd, hentry⟩ := List.mem_map.mp hw
    obtain ⟨hname, rfl⟩ := Prod.mk.inj hentry
    rw [List.inj_on_of_nodup_map hnodup hd hc hname]
  refine ⟨c.value, ?_, .own⟩
  rw [held, hcolumn c hc, honly.reverse.get?_eq]

/-- What conditions bind when their filter is written with the query that they filled. -/
def bound? (v : Value) : Option (List Value) :=
  let out := (ofConditions (.text "and") v).run.run []
  (out.1.toOption.bind fun f => (f.elim (.ok []) (Filter.pieces out.2 none)).toOption).map values

theorem exists_of_bound? {v : Value} {bound : List Value} (h : bound? v = some bound) :
    ∃ f query s, (ofConditions (.text "and") v).run.run [] = (.ok f, query) ∧
      f.elim (.ok []) (Filter.pieces query none) = .ok s ∧ s.values = bound := by
  obtain ⟨s, hs, hbound⟩ := Option.map_eq_some_iff.mp h
  obtain ⟨f, hf, hs⟩ := Option.bind_eq_some_iff.mp hs
  exact ⟨f, _, s, Prod.ext (ok_of_toOption hf) rfl, ok_of_toOption hs, hbound⟩

/-- What plain conditions bind when their filter is written with the query that they filled: for each
comparison, in order, the value that the last condition on its column has left. Each comparison is
written as its own value asks for exactly when that value agrees with its own. -/
theorem values_of_pieces {name v : Value} {f : Option Filter} {query : Entries Value}
    {table : Option TableRef} {s : Statement}
    (h : (ofConditions name v).run.run [] = (.ok f, query))
    (hs : f.elim (.ok []) (Filter.pieces query table) = .ok s) :
    ∃ parts, MadeOf parts s ∧
      List.Forall₂ (fun c p => (held (comparisons v) c).elim (.ok []) (c.leaf.piecesWith table) =
        .ok p) (comparisons v) parts ∧
      s.values = (comparisons v).flatMap
        (fun c => (held (comparisons v) c).elim [] c.leaf.boundBy) ∧
      (List.Forall₂ (IsOwn table) (comparisons v) parts ↔
        ∀ c ∈ comparisons v, c.Keeps table (comparisons v)) ∧
      ((∀ c ∈ comparisons v, c.Keeps table (comparisons v)) →
        s.values = (comparisons v).flatMap fun c => c.leaf.boundBy c.value) := by
  obtain ⟨hleaves, -⟩ := leaves_ofConditions h
  have hquery := query_ofConditions h
  have hmade : ∃ parts, LeafPieces query table (leavesOf? f) parts ∧ MadeOf parts s := by
    cases f with
    | none =>
      injection hs with hs
      rw [← hs]
      exact ⟨[], .nil, .nil⟩
    | some f => exact madeOf_pieces f s hs
  obtain ⟨parts, hparts, hmade⟩ := hmade
  rw [hleaves, ← map_leaf_comparisons, hquery] at hparts
  have hvalues : s.values = (comparisons v).flatMap
      (fun c => (held (comparisons v) c).elim [] c.leaf.boundBy) := by
    rw [hmade.values_eq, hparts.values_eq, List.flatMap_map]
    simp only [bound_eq]
  rw [LeafPieces, List.forall₂_map_left_iff] at hparts
  simp only [pieces_eq] at hparts
  refine ⟨parts, hmade, hparts, hvalues, forall₂_iff_forall hparts fun c p => isOwn_iff, ?_⟩
  intro hkeeps
  rw [hvalues]
  refine List.flatMap_congr fun c hc => ?_
  obtain ⟨w, hw, hagrees⟩ := hkeeps c hc
  rw [hw, Option.elim_some, boundBy_of_agrees hagrees]

/-- Nested conditions on different columns, of which one binds nothing. -/
def nested : Value :=
  .map [("age", .map [("op", .text ">="), ("value", .int 21)]),
    ("or", .map [("addr", .map [("op", .text "IS NULL")]), ("name", .text "Jane")])]

/-- Each of the nested conditions is written as its own value asks for. -/
theorem values_of_pieces_nested :
    ∃ f query s parts, (ofConditions (.text "and") nested).run.run [] = (.ok f, query) ∧
      f.elim (.ok []) (Filter.pieces query none) = .ok s ∧
      Value.sameAll s.values [.int 21, .text "Jane"] ∧
      MadeOf parts s ∧ List.Forall₂ (IsOwn none) (comparisons nested) parts := by
  have hbound : (bound? nested).map (Value.sameAll · [.int 21, .text "Jane"]) = some true := by
    decide +kernel
  obtain ⟨_, hbound, hsame⟩ := Option.map_eq_some_iff.mp hbound
  obtain ⟨f, query, s, h, hs, rfl⟩ := exists_of_bound? hbound
  obtain ⟨parts, hmade, -, -, hown, -⟩ := values_of_pieces h hs
  have hcolumn : ∀ c ∈ comparisons nested, c.leaf.column = c.name := by decide +kernel
  have hnodup : ((comparisons nested).map Comparison.name).Nodup := by decide +kernel
  exact ⟨f, query, s, parts, h, hs, hsame, hmade, hown.mpr (keeps_of_nodup hcolumn hnodup none)⟩

/-- Two conditions on one column, in different groups. -/
def overwritten : Value :=
  .map [("age", .map [("op", .text ">="), ("value", .int 21)]),
    ("or", .map [("age", .map [("op", .text "<"), ("value", .int 5)]), ("name", .text "x")])]

/-- The first of two conditions on one column is written with the value of the second one. -/
theorem values_overwritten :
    ∃ f query s, (ofConditions (.text "and") overwritten).run.run [] = (.ok f, query) ∧
      f.elim (.ok []) (Filter.pieces query none) = .ok s ∧
      Value.sameAll s.values [.int 5, .int 5, .text "x"] ∧
      ¬ Value.sameAll s.values
        ((comparisons overwritten).flatMap fun c => c.leaf.boundBy c.value) := by
  have hbound : (bound? overwritten).map (fun bound =>
      Value.sameAll bound [.int 5, .int 5, .text "x"] && !Value.sameAll bound
        ((comparisons overwritten).flatMap fun c => c.leaf.boundBy c.value)) = some true := by
    decide +kernel
  obtain ⟨_, hbound, hsame⟩ := Option.map_eq_some_iff.mp hbound
  obtain ⟨f, query, s, h, hs, rfl⟩ := exists_of_bound? hbound
  rw [Bool.and_eq_true, Bool.not_eq_true'] at hsame
  exact ⟨f, query, s, h, hs, hsame.1, by rw [hsame.2]; decide⟩

end Conditions

end TableOps
