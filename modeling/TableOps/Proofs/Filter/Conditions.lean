import TableOps.Filter.Conditions
import TableOps.Proofs.Entries
import TableOps.Proofs.Except
import TableOps.Proofs.Filter.Pieces

/-!
# Plain conditions and their filter

Every condition that is no group becomes one leaf of the filter, named as the condition is, and
writes its value into the query under that same name.

* `Conditions.leaves` — the leaves that conditions ask for, in order.
* `Conditions.comparisons` — the same with the value that each condition gives.
* `Filter.leaves_ofConditions` — the filter of conditions has these leaves, and the query these
  names.
* `Filter.query_ofConditions` — the query is written by the conditions from left to right.
-/

namespace TableOps

namespace Conditions

/-- The member is a group of conditions. -/
def isGroup (key : String) : Bool :=
  Text.fold key == "and" || Text.fold key == "or"

/-- The operator that a condition spells out. -/
def operator (members : Entries Value) : String :=
  (((Entries.get? members "op").bind Value.text?).getD "=")

mutual

/-- The leaves that conditions ask for: one for each condition that is no group. -/
def leaves : Value → List Leaf
  | .map members => leavesOf members
  | _ => []

/-- The leaves that the members of conditions ask for, in order. -/
def leavesOf : List (String × Value) → List Leaf
  | [] => []
  | (key, v) :: rest => leavesAt key v ++ leavesOf rest

/-- The leaves that one member asks for. -/
def leavesAt (key : String) : Value → List Leaf
  | .map members => if isGroup key then leavesOf members else [⟨key, operator members, false⟩]
  | _ => if isGroup key then [] else [.equals key]

end

/-- A condition that is no group: its column, its operator and its own value. -/
structure Comparison where
  name : String
  op : String
  value : Value

namespace Comparison

/-- The leaf that a comparison asks for. -/
def leaf (c : Comparison) : Leaf :=
  ⟨c.name, c.op, false⟩

/-- What a comparison writes into the query. -/
def entry (c : Comparison) : String × Value :=
  (c.name, c.value)

end Comparison

/-- The value of a condition that is a mapping: the one beside the operator, or true for an operator
that has none; without an operator the mapping itself. -/
def ownValue (members : Entries Value) : Value :=
  if Entries.has members "op" then
    if Operator.ofWording (operator members) = .unary then .bool true
    else (Entries.get? members "value").getD .null
  else .map members

mutual

/-- The comparisons of conditions, in the order in which they are gone through. -/
def comparisons : Value → List Comparison
  | .map members => comparisonsOf members
  | _ => []

/-- The comparisons of the members of conditions, in order. -/
def comparisonsOf : List (String × Value) → List Comparison
  | [] => []
  | (key, v) :: rest => comparisonsAt key v ++ comparisonsOf rest

/-- The comparisons of one member. -/
def comparisonsAt (key : String) : Value → List Comparison
  | .map members =>
    if isGroup key then comparisonsOf members
    else [⟨key, operator members, ownValue members⟩]
  | v => if isGroup key then [] else [⟨key, "=", v⟩]

end

mutual

theorem map_leaf_comparisons (v : Value) : (comparisons v).map Comparison.leaf = leaves v := by
  cases v with
  | map members =>
    rw [comparisons, leaves]
    exact map_leaf_comparisonsOf members
  | _ => rfl

theorem map_leaf_comparisonsOf (members : List (String × Value)) :
    (comparisonsOf members).map Comparison.leaf = leavesOf members := by
  cases members with
  | nil => rfl
  | cons member rest =>
    obtain ⟨key, v⟩ := member
    rw [comparisonsOf, leavesOf, List.map_append, map_leaf_comparisonsAt, map_leaf_comparisonsOf]

theorem map_leaf_comparisonsAt (key : String) (v : Value) :
    (comparisonsAt key v).map Comparison.leaf = leavesAt key v := by
  cases v with
  | map members =>
    rw [comparisonsAt, leavesAt]
    split
    · exact map_leaf_comparisonsOf members
    · rfl
  | _ =>
    simp only [comparisonsAt, leavesAt]
    split <;> rfl

end

end Conditions

namespace Filter

open Conditions (Comparison)

/-- A reading that found the leaves of some comparisons and wrote their values in the same order. -/
structure Found (expected : List Comparison) (query query' : Entries Value) (found : List Leaf) :
    Prop where
  leaves_eq : found = expected.map Comparison.leaf
  query_eq : query' = query.update (expected.map Comparison.entry)

theorem Found.nil (query : Entries Value) : Found [] query query [] where
  leaves_eq := rfl
  query_eq := rfl

/-- Two readings in a row find and write what each of them does. -/
theorem Found.append {cs ds : List Comparison} {found found' : List Leaf} {q q' q'' : Entries Value}
    (h : Found cs q q' found) (h' : Found ds q' q'' found') :
    Found (cs ++ ds) q q'' (found ++ found') where
  leaves_eq := by rw [h.leaves_eq, h'.leaves_eq, List.map_append]
  query_eq := by rw [h'.query_eq, h.query_eq, List.map_append, Entries.update_append]

/-- A leaf whose value is written under its name. -/
theorem Found.put (query : Entries Value) (c : Comparison) :
    Found [c] query (query.put c.name c.value) [c.leaf] where
  leaves_eq := rfl
  query_eq := rfl

theorem found_ofOperator {key : String} {op : Value} {members q q' : Entries Value} {f : Filter}
    (hop : Entries.get? members "op" = some op)
    (h : (ofOperator key op members).run.run q = (.ok f, q')) :
    Found [⟨key, Conditions.operator members, Conditions.ownValue members⟩] q q' f.leaves := by
  unfold ofOperator at h
  cases op with
  | text op =>
    have hname : Conditions.operator members = op := by simp [Conditions.operator, hop, Value.text?]
    have hhas : Entries.has members "op" = true := by rw [Entries.has, hop]; rfl
    rw [Conditions.ownValue, if_pos hhas, hname]
    -- whatever the operator asks for, a value is written under the name of the condition
    have hput : ∀ v, (do QueryM.put key v; return Filter.leaf ⟨key, op, false⟩ : QueryM Filter).run.run q =
        (.ok f, q') → Found [⟨key, op, v⟩] q q' f.leaves := by
      intro v hv
      cases hv
      exact Found.put q ⟨key, op, v⟩
    simp only at h
    split at h
    · rename_i hunary
      rw [if_pos hunary]
      exact hput _ h
    · rename_i v hvalue hvalued
      rw [if_neg hvalued, hvalue, Option.getD_some]
      exact hput _ h
    · cases h
  | _ => cases h

theorem found_joinNamed? {name : Value} {fs : List Filter} {q q' : Entries Value}
    {f : Option Filter} (h : (joinNamed? name fs).run.run q = (.ok f, q')) :
    q' = q ∧ leavesOf? f = leavesOf fs := by
  unfold joinNamed? at h
  split at h
  · cases h
    exact ⟨rfl, rfl⟩
  · rename_i f'
    cases h
    exact ⟨rfl, by simp [leavesOf?, leavesOf]⟩
  · obtain ⟨connective, q₁, hconnective, hreturn⟩ := ok_of_run_bind h
    cases hreturn
    rw [run_liftM] at hconnective
    exact ⟨(congrArg Prod.snd hconnective).symm, rfl⟩

/-- Conditions that are no mapping are accepted only where there are none. -/
theorem ok_of_guard {v : Value} {q q' : Entries Value} {f : Option Filter}
    (h : (if v.truthy then throw Failure.unsupportedValue else return none : QueryM
      (Option Filter)).run.run q = (.ok f, q')) : q' = q ∧ f = none := by
  split at h
  · cases h
  · cases h
    exact ⟨rfl, rfl⟩

/-- A member that is no mapping is found as an equality, or as an empty group. -/
theorem found_plain {key : String} {v : Value} {q q' : Entries Value} {f : Option Filter}
    (h : (if Conditions.isGroup key then
        if v.truthy then throw Failure.unsupportedValue else return none
      else do
        QueryM.put key v
        return some (.leaf (.equals key)) : QueryM (Option Filter)).run.run q = (.ok f, q')) :
    Found (if Conditions.isGroup key then [] else [⟨key, "=", v⟩]) q q' (leavesOf? f) := by
  by_cases hgroup : Conditions.isGroup key
  · rw [if_pos hgroup] at h ⊢
    obtain ⟨rfl, rfl⟩ := ok_of_guard h
    exact Found.nil q'
  · rw [if_neg hgroup] at h ⊢
    cases h
    exact Found.put q ⟨key, "=", v⟩

mutual

/-- Conditions become a filter with their leaves, and a query with the names of these. -/
theorem found_ofConditions (name v : Value) (q q' : Entries Value) (f : Option Filter)
    (h : (ofConditions name v).run.run q = (.ok f, q')) :
    Found (Conditions.comparisons v) q q' (leavesOf? f) := by
  cases v with
  | map members =>
    rw [ofConditions] at h
    obtain ⟨fs, q₁, hfs, hjoin⟩ := ok_of_run_bind h
    obtain ⟨rfl, hleaves⟩ := found_joinNamed? hjoin
    rw [Conditions.comparisons, hleaves]
    exact found_ofMembersOf members q q' fs hfs
  | _ =>
    simp only [ofConditions] at h
    obtain ⟨rfl, rfl⟩ := ok_of_guard h
    exact Found.nil q'

theorem found_ofMembersOf (members : List (String × Value)) (q q' : Entries Value)
    (fs : List Filter) (h : (ofMembersOf members).run.run q = (.ok fs, q')) :
    Found (Conditions.comparisonsOf members) q q' (leavesOf fs) := by
  cases members with
  | nil =>
    cases h
    exact Found.nil q
  | cons member rest =>
    obtain ⟨key, v⟩ := member
    rw [ofMembersOf] at h
    obtain ⟨f, q₁, hf, h⟩ := ok_of_run_bind h
    obtain ⟨fs', q₂, hfs, h⟩ := ok_of_run_bind h
    cases h
    -- the rest is read with the query as the first member has left it
    rw [Conditions.comparisonsOf, leavesOf_append, leavesOf_toList]
    exact (found_ofCondition key v q q₁ f hf).append (found_ofMembersOf rest q₁ q' fs' hfs)

theorem found_ofCondition (key : String) (v : Value) (q q' : Entries Value) (f : Option Filter)
    (h : (ofCondition key v).run.run q = (.ok f, q')) :
    Found (Conditions.comparisonsAt key v) q q' (leavesOf? f) := by
  cases v with
  | map members =>
    rw [ofCondition] at h
    rw [Conditions.comparisonsAt]
    -- a mapping is a group under a connective, and spells an operator out under a column
    by_cases hgroup : (Text.fold key == "and" || Text.fold key == "or") = true
    · have hkey : Conditions.isGroup key = true := hgroup
      rw [if_pos hgroup] at h
      rw [if_pos hkey]
      obtain ⟨fs, q₁, hfs, hjoin⟩ := ok_of_run_bind h
      obtain ⟨rfl, hleaves⟩ := found_joinNamed? hjoin
      rw [hleaves]
      exact found_ofMembersOf members q q' fs hfs
    · have hkey : ¬ Conditions.isGroup key = true := hgroup
      rw [if_neg hgroup] at h
      rw [if_neg hkey]
      cases hop : Entries.get? members "op" with
      | some op =>
        rw [hop] at h
        obtain ⟨f', hf, rfl⟩ := ok_of_run_map h
        exact found_ofOperator hop hf
      | none =>
        rw [hop] at h
        cases h
        have hname : Conditions.operator members = "=" := by simp [Conditions.operator, hop]
        have hhas : ¬ Entries.has members "op" = true := by rw [Entries.has, hop]; decide
        rw [hname, Conditions.ownValue, if_neg hhas]
        exact Found.put q ⟨key, "=", .map members⟩
  | _ =>
    rw [ofCondition] at h
    · rw [Conditions.comparisonsAt]
      · exact found_plain h
      · exact fun _ hmap => by cases hmap
    · exact fun _ hmap => by cases hmap

end

/-- The filter that conditions become has one leaf for each condition that is no group, and the
query has a value under exactly the names of these leaves. -/
theorem leaves_ofConditions {name v : Value} {f : Option Filter} {query : Entries Value}
    (h : (ofConditions name v).run.run [] = (.ok f, query)) :
    leavesOf? f = Conditions.leaves v ∧
      ∀ key, query.has key ↔ key ∈ (Conditions.leaves v).map Leaf.name := by
  have hfound := found_ofConditions name v [] query f h
  have hleaves := Conditions.map_leaf_comparisons v
  refine ⟨hfound.leaves_eq.trans hleaves, fun key => ?_⟩
  rw [hfound.query_eq, Entries.has_update, ← hleaves, List.map_map]
  simp [Entries.has, Comparison.entry, Comparison.leaf, Function.comp_def]

/-- The query of conditions is written by their comparisons, one after the other. -/
theorem query_ofConditions {name v : Value} {f : Option Filter} {query : Entries Value}
    (h : (ofConditions name v).run.run [] = (.ok f, query)) :
    query = .ofPairs ((Conditions.comparisons v).map Comparison.entry) :=
  (found_ofConditions name v [] query f h).query_eq

end Filter

end TableOps
