import TableOps.Proofs.Filter.Groups
import TableOps.Proofs.Filter.Refusals
import TableOps.Proofs.Filter.Truth

/-!
# The text of a filter, read again

A filter is written without the leaves that do not apply. What is left of it, the pruned filter, is
printed with its connectives between members and with brackets around every group. So a reader who
lets `AND` bind tighter than `OR` finds the filter to hold whenever the pruned filter does, whatever
its comparisons hold.

* `Filter.pruned?` — a filter without the leaves that do not apply.
* `Token`, `Filter.tokens` — what a filter is printed with; `Filter.assemble_eq_printed`, this is
  what is written for it.
* `Token.read` — the reader; `Token.read_tokens`, it finds the truth of a filter.
* `Filter.rendered` — the text of a filter and the bound values, or a failure and what was bound
  until then.

Main statement: `Filter.rendered_spec`, when a filter is refused, what it is written as, and what is
read in it.
-/

namespace TableOps

/-! ## Printing -/

/-- What the text of a filter is made of. -/
inductive Token where
  | comparison (pieces : Statement)
  | connective (connective : Connective)
  | opening
  | closing

/-- A token as it is written. -/
def Token.pieces : Token → Statement
  | .comparison pieces => pieces
  | .connective c => [.text (" " ++ c.name ++ " ")]
  | .opening => [.text "("]
  | .closing => [.text ")"]

namespace Filter

mutual

/-- The tokens of a filter whose leaves are written as given. Every group is bracketed. -/
def tokens (write : Leaf → Statement) : Filter → List Token
  | .leaf l => [.comparison (write l)]
  | .group connective members =>
    .opening :: (memberTokens write connective members ++ [.closing])

/-- The tokens of the members of a group, with its connective between each two. -/
def memberTokens (write : Leaf → Statement) (connective : Connective) : List Filter → List Token
  | [] => []
  | f :: fs => tokens write f ++ furtherTokens write connective fs

/-- The tokens of the members behind the first, with the connective in front of each. -/
def furtherTokens (write : Leaf → Statement) (connective : Connective) : List Filter → List Token
  | [] => []
  | f :: fs => .connective connective :: (tokens write f ++ furtherTokens write connective fs)

end

variable {write : Leaf → Statement}

/-- What is printed for a filter. -/
def printed (write : Leaf → Statement) (f : Filter) : Statement :=
  (f.tokens write).flatMap Token.pieces

theorem printed_ne_nil (hwrite : ∀ l, write l ≠ []) (f : Filter) : f.printed write ≠ [] := by
  cases f with
  | leaf l =>
    rw [printed, tokens, List.flatMap_singleton]
    exact hwrite l
  | group connective members =>
    rw [printed, tokens]
    exact List.cons_ne_nil _ _

theorem flatMap_pieces_furtherTokens (connective : Connective) (fs : List Filter) :
    (furtherTokens write connective fs).flatMap Token.pieces =
      fs.flatMap fun f => [.text (" " ++ connective.name ++ " ")] ++ f.printed write := by
  induction fs with
  | nil => rfl
  | cons f fs ih =>
    rw [furtherTokens, List.flatMap_cons, List.flatMap_append, ih, List.flatMap_cons,
      List.append_assoc]
    rfl

theorem separated_cons (separator s : Statement) (ss : List Statement) :
    Statement.separated separator (s :: ss) = s ++ ss.flatMap (separator ++ ·) := by
  induction ss generalizing s with
  | nil => exact (List.append_nil s).symm
  | cons s' ss ih =>
    rw [Statement.separated, ih, List.flatMap_cons]
    · simp only [List.append_assoc]
    · exact fun h => List.cons_ne_nil _ _ h

mutual

/-- A filter whose groups have at least two members is written as it is printed. -/
theorem assemble_eq_printed (hwrite : ∀ l, write l ≠ []) : ∀ f : Filter,
    (∀ o ∈ f.groups, 2 ≤ o.2.length) → f.assemble write = f.printed write
  | .leaf l, _ => by rw [assemble, printed, tokens, List.flatMap_singleton, Token.pieces]
  | .group connective members, h => by
    rw [groups] at h
    obtain ⟨hwide, hmembers⟩ := List.forall_mem_cons.mp h
    rw [assemble, assembleAll_eq_map_printed hwrite members hmembers]
    match members, hwide with
    | f :: f' :: fs, _ =>
      rw [printed, tokens, memberTokens, List.flatMap_cons, List.flatMap_append,
        List.flatMap_append, flatMap_pieces_furtherTokens]
      show [Piece.text "("] ++ Statement.separated _ _ ++ [.text ")"] = _
      rw [List.map_cons, separated_cons, ← List.map_cons, List.flatMap_map]
      simp only [List.append_assoc]
      rfl

theorem assembleAll_eq_map_printed (hwrite : ∀ l, write l ≠ []) : ∀ fs : List Filter,
    (∀ o ∈ groupsOf fs, 2 ≤ o.2.length) → assembleAll write fs = fs.map (printed write)
  | [], _ => rfl
  | f :: fs, h => by
    rw [groupsOf, List.forall_mem_append] at h
    rw [assembleAll, assemble_eq_printed hwrite f h.1, assembleAll_eq_map_printed hwrite fs h.2,
      Statement.kept, if_neg, List.map_cons]
    · rfl
    · rw [List.isEmpty_iff]
      exact printed_ne_nil hwrite f

end

end Filter

/-! ## Reading -/

variable {α : Type} [Lattice α] [BoundedOrder α]

/-- What a reader knows of the text inside a pair of brackets, before the next operand: the truth of
the finished alternatives, and of the operands of the unfinished one. -/
structure Level (α : Type) where
  disjunction : α
  conjunction : α

namespace Level

/-- Nothing has been read. -/
def blank : Level α :=
  ⟨⊥, ⊤⟩

/-- One more operand and the connective behind it. An `OR` finishes an alternative. -/
def add (level : Level α) (v : α) : Connective → Level α
  | .and => ⟨level.disjunction, level.conjunction ⊓ v⟩
  | .or => ⟨level.disjunction ⊔ level.conjunction ⊓ v, ⊤⟩

/-- The truth of the whole, with the last operand. -/
def value (level : Level α) (v : α) : α :=
  level.disjunction ⊔ level.conjunction ⊓ v

/-- The truth of the whole when an operand and others behind it have one connective between
them. -/
def valueOf (connective : Connective) (level : Level α) (v : α) : List α → α
  | [] => level.value v
  | v' :: vs => (level.add v connective).valueOf connective v' vs

theorem valueOf_and (level : Level α) (v : α) (vs : List α) :
    level.valueOf .and v vs =
      level.disjunction ⊔ level.conjunction ⊓ Connective.combine .and (v :: vs) := by
  induction vs generalizing level v with
  | nil => rw [valueOf, value, Connective.combine_singleton]
  | cons v' vs ih =>
    rw [valueOf, ih]
    show _ ⊔ _ ⊓ v ⊓ _ = _ ⊔ _ ⊓ (v ⊓ _)
    rw [inf_assoc]
    rfl

theorem valueOf_or (d v : α) (vs : List α) :
    valueOf .or ⟨d, ⊤⟩ v vs = d ⊔ Connective.combine .or (v :: vs) := by
  induction vs generalizing d v with
  | nil => rw [valueOf, value, top_inf_eq, Connective.combine_singleton]
  | cons v' vs ih =>
    rw [valueOf, add, top_inf_eq, ih, sup_assoc]
    rfl

/-- Operands with one connective between them have the truth of their group. -/
theorem valueOf_blank (connective : Connective) (v : α) (vs : List α) :
    valueOf connective blank v vs = connective.combine (v :: vs) := by
  cases connective with
  | and =>
    rw [valueOf_and]
    show ⊥ ⊔ ⊤ ⊓ _ = _
    rw [top_inf_eq, bot_sup_eq]
  | or => rw [blank, valueOf_or, bot_sup_eq]

end Level

namespace Token

/-- The truth of a text whose comparisons hold as given, read on from the `n`-th comparison. The
brackets that are open lead to the levels outside; an operand has been read or is to come. A text
that is not made of operands with connectives between them is not read. -/
def read (holds : Nat → α) : List Token → Nat → List (Level α) → Level α → Option α → Option α
  | .comparison _ :: ts, n, outer, level, none => read holds ts (n + 1) outer level (some (holds n))
  | .opening :: ts, n, outer, level, none => read holds ts n (level :: outer) .blank none
  | .connective c :: ts, n, outer, level, some v => read holds ts n outer (level.add v c) none
  | .closing :: ts, n, level' :: outer, level, some v =>
    read holds ts n outer level' (some (level.value v))
  | [], _, [], level, some v => some (level.value v)
  | _, _, _, _, _ => none

/-- The truth of a whole text. -/
def readAll (holds : Nat → α) (ts : List Token) : Option α :=
  read holds ts 0 [] .blank none

/-- Without brackets `AND` binds tighter. -/
example (holds : Nat → Bool) (s : Statement) :
    readAll holds [.comparison s, .connective .or, .comparison s, .connective .and, .comparison s] =
      some (holds 0 || (holds 1 && holds 2)) := rfl

variable (holds : Nat → α) {write : Leaf → Statement}

open TableOps.Filter

mutual

/-- A filter is read as an operand that holds when the filter does. -/
theorem read_tokens : ∀ f : Filter, (∀ o ∈ f.groups, 2 ≤ o.2.length) →
    ∀ (ts : List Token) (n : Nat) (outer : List (Level α)) (level : Level α),
      read holds (f.tokens write ++ ts) n outer level none =
        read holds ts (n + f.leaves.length) outer level (some (f.truthFrom holds n))
  | .leaf l, _, ts, n, outer, level => by
    rw [tokens, List.singleton_append, read]
    rfl
  | .group c members, h, ts, n, outer, level => by
    rw [groups] at h
    obtain ⟨hwide, hmembers⟩ := List.forall_mem_cons.mp h
    match members, hwide with
    | f :: fs, _ =>
      rw [groupsOf, List.forall_mem_append] at hmembers
      -- the members are read on a level of their own, up to the closing bracket
      rw [tokens, memberTokens, List.cons_append, read, List.append_assoc, List.append_assoc,
        read_tokens f hmembers.1, List.singleton_append, read_furtherTokens fs hmembers.2,
        Level.valueOf_blank, leaves, leavesOf, List.length_append, Nat.add_assoc, truthFrom,
        truthsFrom]

/-- The members behind the first are read up to the closing bracket. -/
theorem read_furtherTokens : ∀ fs : List Filter, (∀ o ∈ groupsOf fs, 2 ≤ o.2.length) →
    ∀ (c : Connective) (ts : List Token) (n : Nat) (level' : Level α)
      (outer : List (Level α)) (level : Level α) (v : α),
      read holds (furtherTokens write c fs ++ .closing :: ts) n (level' :: outer) level
          (some v) =
        read holds ts (n + (leavesOf fs).length) outer level'
          (some (level.valueOf c v (truthsFrom holds n fs)))
  | [], _, c, ts, n, level', outer, level, v => by
    rw [furtherTokens, List.nil_append, read]
    rfl
  | f :: fs, h, c, ts, n, level', outer, level, v => by
    rw [groupsOf, List.forall_mem_append] at h
    rw [furtherTokens, List.cons_append, read, List.append_assoc, read_tokens f h.1,
      read_furtherTokens fs h.2, leavesOf, List.length_append, Nat.add_assoc, truthsFrom,
      Level.valueOf]

end

/-- The printed filter is read to hold when the filter does. -/
theorem readAll_tokens {f : Filter} (h : ∀ o ∈ f.groups, 2 ≤ o.2.length) :
    readAll holds (f.tokens write) = some (f.truthFrom holds 0) := by
  have hread : read holds (f.tokens write ++ []) 0 [] .blank none = _ :=
    read_tokens holds f h [] 0 [] .blank
  rw [List.append_nil] at hread
  rw [readAll, hread, read, Level.value]
  show some (⊥ ⊔ ⊤ ⊓ _) = _
  rw [top_inf_eq, bot_sup_eq]

end Token

/-! ## Rendering -/

namespace Statement

/-- A text that goes on behind the first one is not empty when the first one is not. -/
theorem writeFrom_append_ne_empty {w : Writer} {n : Nat} {s : Statement}
    (h : s.writeFrom w n ≠ "") (t : Statement) : writeFrom w n (s ++ t) ≠ "" := by
  rw [writeFrom_append]
  exact fun hempty => h (String.append_eq_empty_iff.mp hempty).1

/-- Statements in a row are written one by one. -/
theorem writeFrom_flatMap {α : Type} (w : Writer) (n : Nat) (f : α → Statement) (items : List α) :
    writeFrom w n (items.flatMap f) = String.join (writeEach w n (items.map f)) := by
  induction items generalizing n with
  | nil => rfl
  | cons a items ih =>
    rw [List.flatMap_cons, writeFrom_append, ih, List.map_cons, writeEach, String.join_cons]

end Statement

/-- A comparison is not written as an empty text, whatever names and operators are. -/
theorem Leaf.writeFrom_comparison_ne_empty (w : Writer) (n : Nat) (query : Entries Value)
    (table : Option TableRef) (l : Leaf) : (l.comparison query table).writeFrom w n ≠ "" := by
  refine Statement.writeFrom_append_ne_empty ?_ _
  -- a blank stands behind the column
  simp [Leaf.head, Statement.writeFrom]

namespace Filter

/-- A filter without the leaves that do not apply; groups left empty are removed, and groups left
with one member replaced by it. -/
def pruned? (query : Entries Value) (f : Filter) : Option Filter :=
  f.choose? (Leaf.applied? query)

/-- The text of a filter and the bound values, which go on from `params`; or a failure, and what was
bound until then. -/
def rendered (w : Writer) (params : List Value) (query : Entries Value) (table : Option TableRef)
    (f : Filter) : Except Failure String × List Value :=
  match f.pieces query table with
  | .ok s => (.ok (s.writeFrom w (params.length + 1)), params ++ s.values)
  | .error u => (.error u.failure, params ++ u.bound)

/-- The leaves of a filter that apply. -/
def remaining (query : Entries Value) (f : Filter) : List Leaf :=
  f.leaves.filter (Leaf.applies query)

/-- The text that is printed for a filter, token by token, with placeholders behind those of
`params`. -/
def text (w : Writer) (params : List Value) (query : Entries Value) (table : Option TableRef)
    (f : Filter) : String :=
  String.join (Statement.writeEach w (params.length + 1)
    ((f.tokens (Leaf.comparison query table)).map Token.pieces))

variable {w : Writer} {params : List Value} {query : Entries Value} {table : Option TableRef}

theorem text_eq_writeFrom_printed (f : Filter) :
    f.text w params query table =
      (f.printed (Leaf.comparison query table)).writeFrom w (params.length + 1) :=
  (Statement.writeFrom_flatMap w _ _ _).symm

theorem text_ne_empty (f : Filter) : f.text w params query table ≠ "" := by
  rw [text_eq_writeFrom_printed]
  cases f with
  | leaf l =>
    rw [printed, tokens, List.flatMap_singleton]
    exact l.writeFrom_comparison_ne_empty w _ query table
  | group connective members =>
    rw [printed, tokens, List.flatMap_cons]
    exact Statement.writeFrom_append_ne_empty (by simp [Token.pieces, Statement.writeFrom]) _

/-- A filter that is not refused is written as the pruned filter is printed, and as nothing when
nothing is left of it. -/
theorem writeFrom_assemble (f : Filter) :
    (f.assemble (Leaf.written query table)).writeFrom w (params.length + 1) =
      ((f.pruned? query).map (text w params query table)).getD "" := by
  have hpruned : assemble? (Leaf.comparison query table) (f.pruned? query) =
      f.assemble (Leaf.written query table) := assemble?_choose? f
  rw [← hpruned]
  cases hp : f.pruned? query with
  | none => rfl
  | some p =>
    show (p.assemble _).writeFrom w _ = p.text w params query table
    rw [text_eq_writeFrom_printed,
      assemble_eq_printed (Leaf.comparison_ne_nil query table) p (two_le_of_mem_groups hp)]

/-- A filter is refused for the first of its leaves that apply and have no list with items to be
tested for; the leaves before it stay bound. Otherwise it is written as its pruned filter is
printed, which nobody reads differently from the pruned filter itself. -/
theorem rendered_spec (w : Writer) (params : List Value) (query : Entries Value)
    (table : Option TableRef) (f : Filter) :
    (∃ (before : List Leaf) (l : Leaf) (after : List Leaf) (v : Value),
        f.remaining query = before ++ l :: after ∧ (∀ k ∈ before, ¬ k.Refused query) ∧
        l.Refused query ∧ query.get? l.column = some v ∧
        f.rendered w params query table =
          (.error (.malformed (.emptyMembership l.column v)),
            params ++ before.flatMap (Leaf.bound query))) ∨
      (∀ l ∈ f.remaining query, ¬ l.Refused query) ∧
        ∃ written, f.rendered w params query table =
            (.ok written, params ++ (f.remaining query).flatMap (Leaf.bound query)) ∧
          match f.pruned? query with
          | none => written = ""
          | some p => written ≠ "" ∧ written = p.text w params query table ∧
            ∀ (α : Type) [Lattice α] [BoundedOrder α] (holds : Nat → α),
              Token.readAll holds (p.tokens (Leaf.comparison query table)) =
                some (p.truthFrom holds 0) := by
  have hpieces : f.pieces query table = _ := f.pieces_eq_assemble
  rw [← Leaf.refusal_filter] at hpieces
  rcases Leaf.refusal_cases (f.remaining query) with
    ⟨before, l, after, v, hremaining, hbefore, hl, hv, hrefusal⟩ | ⟨hnone, hrefusal⟩
  · refine Or.inl ⟨before, l, after, v, hremaining, hbefore, hl, hv, ?_⟩
    rw [remaining] at hrefusal
    rw [hrefusal] at hpieces
    change f.pieces query table = .error _ at hpieces
    simp only [rendered, hpieces, Unrenderable.failure]
  · rw [remaining] at hrefusal
    rw [hrefusal] at hpieces
    change f.pieces query table = .ok _ at hpieces
    refine Or.inr ⟨hnone, ((f.pruned? query).map (text w params query table)).getD "", ?_, ?_⟩
    · rw [rendered, hpieces, remaining, Leaf.flatMap_bound_filter, ← values_eq_of_pieces hpieces,
        ← writeFrom_assemble]
    · cases hp : f.pruned? query with
      | none => rfl
      | some p =>
        exact ⟨text_ne_empty p, rfl, fun α _ _ holds =>
          Token.readAll_tokens holds (two_le_of_mem_groups hp)⟩

end Filter

end TableOps
