/-!
# Ordered entries

A mapping from names whose order is that of first insertion: writing to a name that is present
replaces its value and keeps its place.

* `Entries.put`, `Entries.erase` — writing and removing.
* `Entries.get?`, `Entries.has`, `Entries.keys` — looking.
* `Entries.ofPairs`, `Entries.update` — writing many pairs from left to right.

Main statements: `get?_put`, what is found after a write; `keys_put`, which names there are then and
in which order; `nodup_keys_put`, no name stands twice.
-/

namespace TableOps

/-- Named values in the order of first insertion. -/
abbrev Entries (α : Type) := List (String × α)

namespace Entries

variable {α β : Type}

/-- The value under `key`. -/
@[simp] def get? : Entries α → String → Option α
  | [], _ => none
  | (k, v) :: rest, key => if k = key then some v else get? rest key

/-- There is a value under `key`. -/
def has (entries : Entries α) (key : String) : Bool :=
  (get? entries key).isSome

/-- The names in order. -/
def keys (entries : Entries α) : List String :=
  entries.map Prod.fst

/-- The entries with `value` under `key`, in its old place or at the end. -/
@[simp] def put : Entries α → String → α → Entries α
  | [], key, value => [(key, value)]
  | (k, v) :: rest, key, value =>
    if k = key then (k, value) :: rest else (k, v) :: put rest key value

/-- The entries without the one under `key`. -/
@[simp] def erase : Entries α → String → Entries α
  | [], _ => []
  | (k, v) :: rest, key => if k = key then rest else (k, v) :: erase rest key

/-- The entries after writing `pairs` to them from left to right. -/
def update (entries : Entries α) (pairs : List (String × α)) : Entries α :=
  pairs.foldl (fun es (k, v) => put es k v) entries

/-- The entries written by `pairs` from left to right. -/
def ofPairs (pairs : List (String × α)) : Entries α :=
  update [] pairs

/-- Every value changed, names and order kept. -/
def mapValues (f : α → β) (entries : Entries α) : Entries β :=
  entries.map fun (k, v) => (k, f v)

/-! ## What is found, and where -/

@[simp] theorem keys_nil : keys ([] : Entries α) = [] :=
  rfl

@[simp] theorem keys_cons (entry : String × α) (entries : Entries α) :
    keys (entry :: entries) = entry.1 :: keys entries :=
  rfl

@[simp] theorem mapValues_nil (f : α → β) : mapValues f [] = [] :=
  rfl

@[simp] theorem mapValues_cons (f : α → β) (entry : String × α) (entries : Entries α) :
    mapValues f (entry :: entries) = (entry.1, f entry.2) :: mapValues f entries :=
  rfl

/-- A write is found under its own name and changes nothing under any other. -/
@[simp] theorem get?_put (entries : Entries α) (key other : String) (value : α) :
    get? (put entries key value) other =
      if key = other then some value else get? entries other := by
  induction entries with
  | nil => simp
  | cons entry rest ih =>
    obtain ⟨k, v⟩ := entry
    by_cases hk : k = key
    · subst hk
      by_cases ho : k = other <;> simp [ho]
    · by_cases ho : k = other
      · subst ho
        simp [hk, Ne.symm hk]
      · simp [hk, ho, ih]

/-- A name is present after a write if it was written or was there before. -/
@[simp] theorem has_put (entries : Entries α) (key other : String) (value : α) :
    has (put entries key value) other = (key == other || has entries other) := by
  by_cases h : key = other <;> simp [has, h]

/-- Removing one name leaves the values of the others. -/
theorem get?_erase_of_ne {key other : String} (h : key ≠ other) (entries : Entries α) :
    get? (erase entries key) other = get? entries other := by
  induction entries with
  | nil => rfl
  | cons entry rest ih =>
    obtain ⟨k, v⟩ := entry
    by_cases hk : k = key
    · subst hk
      simp [h]
    · simp only [erase, get?, hk, if_false, ih]

/-- A value is found exactly under the names that are present. -/
theorem get?_eq_none_iff {entries : Entries α} {key : String} :
    get? entries key = none ↔ key ∉ keys entries := by
  induction entries with
  | nil => simp
  | cons entry rest ih =>
    obtain ⟨k, v⟩ := entry
    by_cases hk : k = key
    · simp [hk]
    · simp only [get?, hk, if_false, ih]
      simp [Ne.symm hk]

/-- A write keeps the names in order and adds its own at the end when it is new. -/
theorem keys_put (entries : Entries α) (key : String) (value : α) :
    keys (put entries key value) =
      if key ∈ keys entries then keys entries else keys entries ++ [key] := by
  induction entries with
  | nil => simp
  | cons entry rest ih =>
    obtain ⟨k, v⟩ := entry
    by_cases hk : k = key
    · simp [hk]
    · simp only [keys, List.map_cons, put, hk, if_false] at ih ⊢
      rw [ih]
      by_cases hm : key ∈ List.map Prod.fst rest <;> simp [hm, Ne.symm hk]

/-- Writing to entries in which no name stands twice leaves no name standing twice. -/
theorem nodup_keys_put {entries : Entries α} (h : (keys entries).Nodup) (key : String)
    (value : α) : (keys (put entries key value)).Nodup := by
  rw [keys_put]
  split
  · exact h
  · rename_i hm
    rw [List.nodup_append]
    refine ⟨h, by simp, ?_⟩
    intro a ha b hb hab
    rw [List.mem_singleton] at hb
    exact hm (hb ▸ hab ▸ ha)

/-- Changing every value keeps the names. -/
@[simp] theorem keys_mapValues (f : α → β) (entries : Entries α) :
    keys (mapValues f entries) = keys entries := by
  simp [keys, mapValues]

/-- A changed value is found where the old one was. -/
@[simp] theorem get?_mapValues (f : α → β) (entries : Entries α) (key : String) :
    get? (mapValues f entries) key = (get? entries key).map f := by
  induction entries with
  | nil => rfl
  | cons entry rest ih =>
    obtain ⟨k, v⟩ := entry
    by_cases hk : k = key
    · simp [hk]
    · simpa [hk] using ih

end Entries

end TableOps
