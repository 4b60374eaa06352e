import TableOps.Value.Basic

/-!
# Equality of values

Two queries are the same when their values are equal as data: numbers compare across integers,
floats and truth values, the order of the members of a mapping does not count, and the order of a
list does.

* `Value.same` — equality as data.
* `Value.sameEntries` — equality of two mappings.
-/

namespace TableOps

namespace Value

/-- The integer a truth value counts as. -/
def ofTruth (b : Bool) : Int :=
  if b then 1 else 0

mutual

/-- Equality as data. -/
def same : Value → Value → Bool
  | .null, .null => true
  | .bool a, .bool b => a == b
  | .bool a, .int n => ofTruth a == n
  | .bool a, .float x => x.eqInt (ofTruth a)
  | .int n, .bool b => n == ofTruth b
  | .int m, .int n => m == n
  | .int n, .float x => x.eqInt n
  | .float x, .bool b => x.eqInt (ofTruth b)
  | .float x, .int n => x.eqInt n
  | .float x, .float y => x.eqNumber y
  | .text s, .text t => s == t
  | .list xs, .list ys => sameAll xs ys
  | .map xs, .map ys => xs.length == ys.length && sameMembers xs ys
  | .column a, .column b => a == b
  | .transformer a, .transformer b => a == b
  | .expression a, .expression b => a == b
  | .connection a, .connection b => a == b
  | .database a, .database b => a == b
  | .checked m a, .checked n b => m == n && same a b
  | _, _ => false

/-- Equality of two lists, item by item. -/
def sameAll : List Value → List Value → Bool
  | [], [] => true
  | x :: xs, y :: ys => same x y && sameAll xs ys
  | _, _ => false

/-- Every member of the first mapping stands in the second with an equal value. -/
def sameMembers : List (String × Value) → List (String × Value) → Bool
  | [], _ => true
  | (k, v) :: rest, ys =>
    (match Entries.get? ys k with
      | some w => same v w
      | none => false) && sameMembers rest ys

end

/-- Equality of two mappings: the same names with equal values, in any order. -/
def sameEntries (xs ys : Entries Value) : Bool :=
  same (.map xs) (.map ys)

end Value

end TableOps
