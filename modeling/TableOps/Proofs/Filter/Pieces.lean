import Mathlib.Data.List.Forall2
import TableOps.Proofs.Except
import TableOps.Statement.Where

/-!
# The pieces of a filter, leaf by leaf

Around its leaves a filter only writes wording of its own, so the pieces of a filter are those of
its leaves, from left to right, with such wording between them. Whatever is read off a statement and
is not read off wording can therefore be read off leaf by leaf.

* `Statement.MadeOf` — a statement is made of parts, in order, and of wording.
* `Leaf.Written` — the ways in which a leaf with a value is written; `Leaf.operand`, what stands
  behind its operator.
* `Filter.madeOf_pieces` — the pieces of a filter are made of those of its leaves.
* `Filter.leavesOf?` — the leaves of a filter that may be missing.
* `Statement.madeOf_whereClause` — the same for the clause that restricts a statement.
-/

namespace TableOps

/-! ## Statements made of parts -/

/-- What is related to a list item by item has a partner for each of its items. -/
theorem exists_of_forall₂ {α β : Type} {R : α → β → Prop} {as : List α} {bs : List β}
    (h : List.Forall₂ R as bs) {a : α} (ha : a ∈ as) : ∃ b ∈ bs, R a b := by
  induction h with
  | nil => cases ha
  | cons hab h ih =>
    rcases List.mem_cons.mp ha with rfl | ha
    · exact ⟨_, List.mem_cons_self, hab⟩
    · obtain ⟨b, hb, hab⟩ := ih ha
      exact ⟨b, List.mem_cons_of_mem _ hb, hab⟩

namespace Statement

/-- The statement consists of the parts, in order, and of wording around them. -/
inductive MadeOf : List Statement → Statement → Prop where
  | nil : MadeOf [] []
  | wording (wording : String) {parts : List Statement} {s : Statement} (h : MadeOf parts s) :
      MadeOf parts (.text wording :: s)
  | part (p : Statement) {parts : List Statement} {s : Statement} (h : MadeOf parts s) :
      MadeOf (p :: parts) (p ++ s)

namespace MadeOf

variable {parts parts' : List Statement} {s t : Statement}

theorem single (p : Statement) : MadeOf [p] p := by
  have h := MadeOf.part p .nil
  rw [List.append_nil] at h
  exact h

/-- Statements in a row are made of the parts of the first, then those of the second. -/
theorem append (hs : MadeOf parts s) (ht : MadeOf parts' t) : MadeOf (parts ++ parts') (s ++ t) := by
  induction hs with
  | nil => exact ht
  | wording w h ih => exact .wording w ih
  | part p h ih =>
    rw [List.append_assoc]
    exact .part p ih

theorem text (hs : MadeOf parts s) (wording : String) : MadeOf parts (s ++ [.text wording]) := by
  have h := hs.append (.wording wording .nil)
  rw [List.append_nil] at h
  exact h

/-- What is read off a statement, and not off wording, is read off its parts. -/
theorem filterMap_eq {β : Type} {read : Piece → Option β} (hread : ∀ w, read (.text w) = none)
    (h : MadeOf parts s) : s.filterMap read = parts.flatMap (List.filterMap read) := by
  induction h with
  | nil => rfl
  | wording w h ih => rw [List.filterMap_cons_none (hread w), ih]
  | part p h ih => rw [List.filterMap_append, ih, List.flatMap_cons]

/-- Each part stands in the statement as it is. -/
theorem exists_append (h : MadeOf parts s) {p : Statement} (hp : p ∈ parts) :
    ∃ before behind, s = before ++ p ++ behind := by
  induction h with
  | nil => cases hp
  | wording w h ih =>
    obtain ⟨before, behind, rfl⟩ := ih hp
    exact ⟨.text w :: before, behind, rfl⟩
  | @part q parts s h ih =>
    rcases List.mem_cons.mp hp with rfl | hp
    · exact ⟨[], s, rfl⟩
    · obtain ⟨before, behind, rfl⟩ := ih hp
      exact ⟨q ++ before, behind, by simp⟩

end MadeOf

theorem madeOf_separated (wording : String) (ss : List Statement) :
    MadeOf ss (separated [.text wording] ss) := by
  induction ss with
  | nil => exact .nil
  | cons s ss ih =>
    cases ss with
    | nil => exact .single s
    | cons s' ss =>
      rw [separated]
      · exact ((MadeOf.single s).text wording).append ih
      · exact fun hnil => List.cons_ne_nil _ _ hnil

/-- One more statement in front of separated ones adds its parts, also when it is left out for
having no pieces. -/
theorem madeOf_separated_cons {wording : String} {parts parts' : List Statement} {s : Statement}
    {ss : List Statement} (hs : MadeOf parts s)
    (hss : MadeOf parts' (separated [.text wording] ss)) :
    MadeOf (parts ++ parts')
      (separated [.text wording] (if s.isEmpty then ss else s :: ss)) := by
  by_cases hempty : s.isEmpty
  · -- it gets no separator either
    rw [List.isEmpty_iff.mp hempty] at hs ⊢
    exact hs.append hss
  · rw [if_neg hempty]
    cases ss with
    | nil =>
      have h := hs.append hss
      rw [separated, List.append_nil] at h
      exact h
    | cons s' ss =>
      rw [separated]
      · exact (hs.text wording).append hss
      · exact fun hnil => List.cons_ne_nil _ _ hnil

end Statement

/-! ## One leaf -/

namespace Leaf

/-- The column and the operator of a leaf. -/
def head (l : Leaf) : Statement :=
  [.column l.name, .text " ", .text (Operator.wording l.op)]

/-- The ways in which a leaf is written when the query has the value `v` for it. -/
inductive Written (l : Leaf) (table : Option TableRef) (v : Value) : Statement → Prop where
  | unary (hop : Operator.ofWording l.op = .unary) : Written l table v l.head
  | membership (hop : Operator.ofWording l.op = .membership) (items : List Value)
      (hv : v = .list items) (hitems : items ≠ []) : Written l table v (l.head ++ marks items)
  | reference (hop : Operator.ofWording l.op = .binary) (ref : String)
      (hv : v.columnRef? = some ref) :
      Written l table v (l.head ++ [.text " ", .column (l.resolve table ref)])
  | alone (hop : Operator.ofWording l.op = .binary) (hv : v.columnRef? = none)
      (hn : l.noArg = true) : Written l table v l.head
  | value (hop : Operator.ofWording l.op = .binary) (hv : v.columnRef? = none)
      (hn : l.noArg = false) : Written l table v (l.head ++ [.text " ", .value v])

theorem written_of_piecesWith {l : Leaf} {table : Option TableRef} {v : Value} {s : Statement}
    (h : l.piecesWith table v = .ok s) : Written l table v s := by
  unfold piecesWith at h
  cases hop : Operator.ofWording l.op with
  | unary =>
    rw [hop] at h
    cases h
    exact .unary hop
  | membership =>
    rw [hop] at h
    cases v with
    | list items =>
      -- no other value, and no empty list, is accepted
      cases items with
      | nil => cases h
      | cons item items =>
        cases h
        exact .membership hop (item :: items) rfl (List.cons_ne_nil _ _)
    | _ => cases h
  | binary =>
    rw [hop] at h
    cases hc : v.columnRef? with
    | some ref =>
      simp only [hc] at h
      cases h
      exact .reference hop ref hc
    | none =>
      simp only [hc] at h
      cases hn : l.noArg with
      | true =>
        rw [hn] at h
        cases h
        exact .alone hop hc hn
      | false =>
        rw [hn] at h
        cases h
        exact .value hop hc hn

/-- The items of a membership test, none when the value is no list. -/
def markedItems : Value → Statement
  | .list items => marks items
  | _ => []

/-- What stands behind the operator of a leaf with the value `v`. -/
def operand (l : Leaf) (table : Option TableRef) (v : Value) : Statement :=
  match Operator.ofWording l.op with
  | .unary => []
  | .membership => markedItems v
  | .binary =>
    match v.columnRef? with
    | some ref => [.text " ", .column (l.resolve table ref)]
    | none => if l.noArg then [] else [.text " ", .value v]

/-- A value that names a column is put behind a binary operator. -/
theorem operand_reference {l : Leaf} {table : Option TableRef} {v : Value} {ref : String}
    (hop : Operator.ofWording l.op = .binary) (hv : v.columnRef? = some ref) :
    l.operand table v = [.text " ", .column (l.resolve table ref)] := by
  simp only [operand, hop, hv]

/-- Behind any other operator it is not looked at. -/
theorem operand_eq_nil {l : Leaf} {table : Option TableRef} {v : Value}
    (hop : Operator.ofWording l.op ≠ .binary) (hv : v.columnRef?.isSome) :
    l.operand table v = [] := by
  cases h : Operator.ofWording l.op with
  | unary => simp only [operand, h]
  | membership =>
    simp only [operand, h]
    cases v with
    | list items => cases hv
    | _ => rfl
  | binary => exact absurd h hop

/-- However a leaf is written, its column and its operator stand in front. -/
theorem Written.eq_operand {l : Leaf} {table : Option TableRef} {v : Value} {p : Statement}
    (h : Written l table v p) : p = l.head ++ l.operand table v := by
  unfold operand
  cases h with
  | unary hop => simp only [hop, List.append_nil]
  | membership hop items hv hitems => simp only [hop, hv, markedItems]
  | reference hop ref hv => simp only [hop, hv]
  | alone hop hv hn => simp only [hop, hv, hn, if_true, List.append_nil]
  | value hop hv hn => simp only [hop, hv, hn, Bool.false_eq_true, if_false]

/-- A leaf is written when the query has a value for it, and has no pieces otherwise. -/
theorem pieces_eq_ok {l : Leaf} {query : Entries Value} {table : Option TableRef} {s : Statement}
    (h : l.pieces query table = .ok s) :
    (query.get? l.column = none ∧ s = []) ∨
      ∃ v, query.get? l.column = some v ∧ Written l table v s := by
  unfold pieces at h
  cases hv : query.get? l.column with
  | none =>
    rw [hv] at h
    cases h
    exact Or.inl ⟨rfl, rfl⟩
  | some v =>
    rw [hv] at h
    exact Or.inr ⟨v, rfl, written_of_piecesWith h⟩

end Leaf

/-! ## A tree of leaves -/

namespace Filter

open Statement

theorem madeOf_enclose (connective : Connective) {parts : List Statement} {ss : List Statement}
    (h : ∀ wording, MadeOf parts (separated [.text wording] ss)) :
    MadeOf parts (enclose connective ss) := by
  unfold enclose
  split
  · exact h ""
  · exact h ""
  · exact (MadeOf.wording "(" (h _)).text ")"

variable {query : Entries Value} {table : Option TableRef}

/-- The pieces of each leaf. -/
def LeafPieces (query : Entries Value) (table : Option TableRef) (leaves : List Leaf)
    (parts : List Statement) : Prop :=
  List.Forall₂ (fun (l : Leaf) p => l.pieces query table = .ok p) leaves parts

theorem LeafPieces.exists_of_mem {leaves : List Leaf} {parts : List Statement}
    (h : LeafPieces query table leaves parts) {l : Leaf} (hl : l ∈ leaves) :
    ∃ p ∈ parts, l.pieces query table = .ok p :=
  exists_of_forall₂ h hl

/-- Several filters have pieces when each of them has some, or none; those without are left out. -/
theorem ok_of_piecesOf_cons {f : Filter} {fs : List Filter} {ss : List Statement}
    (h : piecesOf query table (f :: fs) = .ok ss) :
    ∃ s rest, f.pieces query table = .ok s ∧ piecesOf query table fs = .ok rest ∧
      ss = if s.isEmpty then rest else s :: rest := by
  rw [piecesOf] at h
  cases hf : f.pieces query table with
  | error u =>
    rw [hf] at h
    cases h
  | ok s =>
    cases hfs : piecesOf query table fs with
    | error u =>
      rw [hf, hfs] at h
      cases h
    | ok rest =>
      rw [hf, hfs] at h
      cases h
      exact ⟨s, rest, rfl, rfl, rfl⟩

mutual

/-- The pieces of a filter are made of those of its leaves from left to right. -/
theorem madeOf_pieces : ∀ (f : Filter) (s : Statement), f.pieces query table = .ok s →
    ∃ parts, LeafPieces query table f.leaves parts ∧ MadeOf parts s
  | .leaf l, s, h => by
    rw [pieces] at h
    exact ⟨[s], .cons h .nil, .single s⟩
  | .group connective members, s, h => by
    rw [pieces] at h
    obtain ⟨ss, hss, rfl⟩ := ok_of_map h
    -- what is written around the members, a connective or brackets, is wording
    obtain ⟨parts, hparts, hmade⟩ := madeOf_piecesOf members ss hss
    rw [leaves]
    exact ⟨parts, hparts, madeOf_enclose connective hmade⟩

/-- The same for several filters, of which those without pieces are left out. -/
theorem madeOf_piecesOf : ∀ (fs : List Filter) (ss : List Statement),
    piecesOf query table fs = .ok ss →
    ∃ parts, LeafPieces query table (leavesOf fs) parts ∧
      ∀ wording, MadeOf parts (separated [.text wording] ss)
  | [], ss, h => by
    cases h
    exact ⟨[], .nil, fun _ => .nil⟩
  | f :: fs, ss, h => by
    obtain ⟨s, rest, hf, hfs, rfl⟩ := ok_of_piecesOf_cons h
    obtain ⟨parts, hparts, hs⟩ := madeOf_pieces f s hf
    obtain ⟨parts', hparts', hrest⟩ := madeOf_piecesOf fs rest hfs
    rw [leavesOf]
    exact ⟨parts ++ parts', List.rel_append hparts hparts',
      fun wording => madeOf_separated_cons hs (hrest wording)⟩

end

/-- The leaves of a filter that may be missing. -/
def leavesOf? (filter : Option Filter) : List Leaf :=
  (filter.map leaves).getD []

theorem leavesOf_append (fs gs : List Filter) : leavesOf (fs ++ gs) = leavesOf fs ++ leavesOf gs := by
  induction fs with
  | nil => rfl
  | cons f fs ih => rw [List.cons_append, leavesOf, leavesOf, ih, List.append_assoc]

theorem leavesOf_toList (filter : Option Filter) : leavesOf filter.toList = leavesOf? filter := by
  cases filter <;> simp [leavesOf, leavesOf?]

/-- Joining filters keeps their leaves. -/
theorem leavesOf?_join? (connective : Connective) (fs : List Filter) :
    leavesOf? (join? connective fs) = leavesOf fs := by
  unfold join?
  split <;> simp [leavesOf?, leavesOf, leaves]

end Filter

/-- The clause that restricts a statement is made of the pieces of the leaves of its filter. -/
theorem Statement.madeOf_whereClause {filter : Option Filter} {query : Entries Value}
    {table : TableRef} {s : Statement} (h : whereClause filter query table = .ok s) :
    ∃ parts, Filter.LeafPieces query (some table) (Filter.leavesOf? filter) parts ∧
      MadeOf parts s := by
  obtain ⟨c, hc, rfl⟩ := ok_of_map h
  have hmade : ∃ parts, Filter.LeafPieces query (some table) (Filter.leavesOf? filter) parts ∧
      MadeOf parts c := by
    cases filter with
    | none =>
      cases hc
      exact ⟨[], .nil, .nil⟩
    | some f => exact Filter.madeOf_pieces f c (ok_of_mapError hc)
  obtain ⟨parts, hparts, hmade⟩ := hmade
  refine ⟨parts, hparts, ?_⟩
  -- the word that opens the clause is only written in front of something
  by_cases hempty : c.isEmpty
  · rw [if_pos hempty]
    rw [List.isEmpty_iff.mp hempty] at hmade
    exact hmade
  · rw [if_neg hempty]
    exact .wording " WHERE " hmade

end TableOps
