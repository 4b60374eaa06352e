import TableOps.Value.Equality

/-!
# The count cache

A paged list remembers its total together with the query it was counted for, and the last
statement that was composed.

* `CountCache.countFor` — the total, if it was counted for an equal query.
* `CountCache.store`, `CountCache.invalidate` — remembering a total and forgetting it.
-/

namespace TableOps

/-- The last statement, and the last total of type `α` with its query. -/
structure CountCache (α : Type) where
  statement : Option String
  /-- What was looked up when the total was counted; null when nothing has been counted. -/
  query : Value
  count : Option α
  deriving Repr

namespace CountCache

variable {α : Type}

/-- Nothing is remembered. -/
def empty : CountCache α :=
  ⟨none, .null, none⟩

/-- The total, if it was counted for an equal query. -/
def countFor (cache : CountCache α) (query : Value) : Option α :=
  if Value.same cache.query query then cache.count else none

/-- Remembers a total and the query it was counted for. -/
def store (cache : CountCache α) (query : Value) (count : α) : CountCache α :=
  { cache with query := query, count := some count }

/-- Forgets the total and its query; the statement is kept. -/
def invalidate (cache : CountCache α) : CountCache α :=
  { cache with query := .null, count := none }

/-- After a store the total is found for queries equal to its own, and for no others. -/
theorem countFor_store (cache : CountCache α) (query other : Value) (count : α) :
    (cache.store query count).countFor other =
      if Value.same query other then some count else none :=
  rfl

/-- After forgetting, no total is found. -/
theorem countFor_invalidate (cache : CountCache α) (query : Value) :
    cache.invalidate.countFor query = none :=
  ite_self _

end CountCache

end TableOps
