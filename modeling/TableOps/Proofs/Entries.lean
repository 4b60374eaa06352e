import Mathlib.Data.List.Induction
import TableOps.Entries

/-!
# Writing many entries

What is found after pairs were written to entries from left to right: the last pair with a name, or
else what was there before.

* `Entries.get?_update` — what is found.
* `Entries.get?_erase_self` — what was erased is not found.
* `Entries.exists_of_get?_ofPairs`, `Entries.keys_ofPairs` — the pair that is found, and the names in
  order.
* `Entries.Only` — all pairs with a name have the same value; then it does not matter which of them
  is found.
-/

namespace TableOps.Entries

variable {α : Type}

theorem get?_append (entries entries' : Entries α) (key : String) :
    get? (entries ++ entries') key = (get? entries key).or (get? entries' key) := by
  induction entries with
  | nil => rfl
  | cons entry rest ih =>
    obtain ⟨k, v⟩ := entry
    by_cases hk : k = key
    · simp [hk]
    · simpa [hk] using ih

theorem has_of_mem_keys {entries : Entries α} {key : String} (h : key ∈ entries.keys) :
    entries.has key = true := by
  rw [has, Option.isSome_iff_ne_none, Ne, get?_eq_none_iff]
  exact not_not_intro h

/-! ## Erased entries -/

theorem keys_erase (entries : Entries α) (key : String) :
    (erase entries key).keys = entries.keys.erase key := by
  induction entries with
  | nil => rfl
  | cons entry rest ih =>
    obtain ⟨k, v⟩ := entry
    by_cases hk : k = key
    · subst hk
      simp
    · have hne : ¬ (k == key) := by simpa using hk
      have hcons : ∀ es : Entries α, keys ((k, v) :: es) = k :: es.keys := fun _ => rfl
      rw [erase, if_neg hk, hcons, ih, hcons, List.erase_cons_tail hne]

theorem nodup_keys_erase {entries : Entries α} (h : entries.keys.Nodup) (key : String) :
    (erase entries key).keys.Nodup := by
  rw [keys_erase]
  exact h.erase key

/-- An erased name is not found again, when names stand once each. -/
theorem get?_erase_self {entries : Entries α} (h : entries.keys.Nodup) (key : String) :
    get? (erase entries key) key = none := by
  rw [get?_eq_none_iff, keys_erase]
  exact fun hmem => h.not_mem_erase hmem

/-! ## Finding entries -/

/-- What is found is one of the entries. -/
theorem mem_of_get? {entries : Entries α} {key : String} {v : α} (h : get? entries key = some v) :
    (key, v) ∈ entries := by
  induction entries with
  | nil => cases h
  | cons entry rest ih =>
    obtain ⟨k, v'⟩ := entry
    by_cases hk : k = key
    · simp only [get?, hk, if_true, Option.some.injEq] at h
      rw [hk, h]
      exact List.mem_cons_self
    · simp only [get?, hk, if_false] at h
      exact List.mem_cons_of_mem _ (ih h)

/-- Names that stand once each are found with their values. -/
theorem get?_of_mem {entries : Entries α} (h : entries.keys.Nodup) {key : String} {v : α}
    (hmem : (key, v) ∈ entries) : get? entries key = some v := by
  induction entries with
  | nil => cases hmem
  | cons entry rest ih =>
    obtain ⟨k, w⟩ := entry
    obtain ⟨hk, hrest⟩ := List.nodup_cons.mp h
    rcases List.mem_cons.mp hmem with heq | hmem
    · cases heq
      rw [get?, if_pos rfl]
    · have hne : k ≠ key := fun heq => hk (List.mem_map.mpr ⟨(key, v), hmem, heq.symm⟩)
      rw [get?, if_neg hne]
      exact ih hrest hmem

/-- After writing pairs the last one with a name is found, else what was there before. -/
theorem get?_update (entries : Entries α) (pairs : List (String × α)) (key : String) :
    get? (update entries pairs) key = (get? pairs.reverse key).or (get? entries key) := by
  induction pairs generalizing entries with
  | nil => rfl
  | cons pair pairs ih =>
    obtain ⟨k, v⟩ := pair
    have hstep : update entries ((k, v) :: pairs) = update (put entries k v) pairs := rfl
    rw [hstep, ih, get?_put, List.reverse_cons, get?_append, Option.or_assoc]
    by_cases hk : k = key <;> simp [hk]

theorem update_append (entries : Entries α) (pairs pairs' : List (String × α)) :
    update entries (pairs ++ pairs') = update (update entries pairs) pairs' :=
  List.foldl_append

/-- What pairs write by themselves is found as the last pair with its name. -/
theorem get?_ofPairs (pairs : List (String × α)) (key : String) :
    get? (ofPairs pairs) key = get? pairs.reverse key := by
  rw [ofPairs, get?_update]
  exact Option.or_none

/-- Writing pairs to entries in which no name stands twice leaves no name standing twice. -/
theorem nodup_keys_update {entries : Entries α} (h : entries.keys.Nodup)
    (pairs : List (String × α)) : (update entries pairs).keys.Nodup := by
  induction pairs generalizing entries with
  | nil => exact h
  | cons pair pairs ih => exact ih (nodup_keys_put h pair.1 pair.2)

/-- Whichever of the pairs with a name is found, one is found exactly if there is one. -/
theorem get?_reverse_eq_none_iff {pairs : List (String × α)} {key : String} :
    get? pairs.reverse key = none ↔ key ∉ keys pairs := by
  rw [get?_eq_none_iff, keys, List.map_reverse, List.mem_reverse]
  rfl

/-- A name is present after some writes if it was written or was there before. -/
theorem has_update (entries : Entries α) (pairs : List (String × α)) (key : String) :
    has (update entries pairs) key ↔ has entries key ∨ key ∈ pairs.map Prod.fst := by
  induction pairs generalizing entries with
  | nil => simp [update]
  | cons pair pairs ih =>
    have hstep : update entries (pair :: pairs) = update (put entries pair.1 pair.2) pairs := rfl
    rw [hstep, ih, has_put, List.map_cons, List.mem_cons, Bool.or_eq_true, beq_iff_eq,
      or_assoc, or_left_comm, @eq_comm _ pair.1 key]

theorem mem_put {entries : Entries α} {key : String} {v : α} {p : String × α}
    (h : p ∈ put entries key v) : p ∈ entries ∨ p = (key, v) := by
  induction entries with
  | nil => exact Or.inr (List.mem_singleton.mp h)
  | cons entry rest ih =>
    obtain ⟨k, v'⟩ := entry
    by_cases hk : k = key
    · simp only [put, hk, if_true, List.mem_cons] at h
      rcases h with rfl | h
      · exact Or.inr rfl
      · exact Or.inl (List.mem_cons_of_mem _ h)
    · simp only [put, hk, if_false, List.mem_cons] at h
      rcases h with rfl | h
      · exact Or.inl List.mem_cons_self
      · exact (ih h).imp_left (List.mem_cons_of_mem _)

/-- Writing brings in no entries but the written ones. -/
theorem mem_update {entries : Entries α} {pairs : List (String × α)} {p : String × α}
    (h : p ∈ update entries pairs) : p ∈ entries ∨ p ∈ pairs := by
  induction pairs generalizing entries with
  | nil => exact Or.inl h
  | cons pair pairs ih =>
    have hstep : p ∈ update (put entries pair.1 pair.2) pairs := h
    rcases ih hstep with h | h
    · rcases mem_put h with h | rfl
      · exact Or.inl h
      · exact Or.inr List.mem_cons_self
    · exact Or.inr (List.mem_cons_of_mem _ h)

theorem mem_erase {entries : Entries α} {key : String} {p : String × α}
    (h : p ∈ erase entries key) : p ∈ entries := by
  induction entries with
  | nil => cases h
  | cons entry rest ih =>
    obtain ⟨k, v⟩ := entry
    by_cases hk : k = key
    · simp only [erase, hk, if_true] at h
      exact List.mem_cons_of_mem _ h
    · simp only [erase, hk, if_false, List.mem_cons] at h
      exact List.mem_cons.mpr (h.imp_right ih)

/-- Nothing is found under a name that no entry has. -/
theorem get?_eq_none_of_not_mem {entries : Entries α} {key : String}
    (h : ∀ v, (key, v) ∉ entries) : get? entries key = none := by
  cases hget : get? entries key with
  | none => rfl
  | some v => exact absurd (mem_of_get? hget) (h v)

/-! ## Which pair is found -/

/-- What is found is the value of the first pair with its name. -/
theorem exists_of_get? {pairs : List (String × α)} {key : String} {v : α}
    (h : get? pairs key = some v) :
    ∃ front back, pairs = front ++ (key, v) :: back ∧ key ∉ keys front := by
  induction pairs with
  | nil => cases h
  | cons pair pairs ih =>
    obtain ⟨k, w⟩ := pair
    by_cases hk : k = key
    · rw [get?, if_pos hk] at h
      cases h
      exact ⟨[], pairs, by rw [hk]; rfl, List.not_mem_nil⟩
    · rw [get?, if_neg hk] at h
      obtain ⟨front, back, rfl, hfront⟩ := ih h
      refine ⟨(k, w) :: front, back, rfl, ?_⟩
      rw [keys, List.map_cons, List.mem_cons, not_or]
      exact ⟨Ne.symm hk, hfront⟩

/-- What pairs write under a name is the value of the last one with it. -/
theorem exists_of_get?_ofPairs {pairs : List (String × α)} {key : String} {v : α}
    (h : get? (ofPairs pairs) key = some v) :
    ∃ front back, pairs = front ++ (key, v) :: back ∧ key ∉ keys back := by
  rw [get?_ofPairs] at h
  obtain ⟨front, back, hpairs, hfront⟩ := exists_of_get? h
  refine ⟨back.reverse, front.reverse, ?_, ?_⟩
  · rw [← List.reverse_reverse pairs, hpairs]
    simp
  · rwa [keys, List.map_reverse, List.mem_reverse]

/-- Pairs write their names in the order in which each of them stands first. -/
theorem keys_ofPairs (pairs : List (String × α)) :
    (ofPairs pairs).keys = (keys pairs).eraseDups := by
  induction pairs using List.reverseRecOn with
  | nil => rfl
  | append_singleton pairs pair ih =>
    have hstep : ofPairs (pairs ++ [pair]) = put (ofPairs pairs) pair.1 pair.2 := by
      rw [ofPairs, update_append]
      rfl
    have hkeys : keys (pairs ++ [pair]) = keys pairs ++ [pair.1] := by
      rw [keys, List.map_append]
      rfl
    rw [hstep, keys_put, ih, hkeys, List.eraseDups_append]
    by_cases hmem : pair.1 ∈ keys pairs
    · rw [if_pos (List.mem_eraseDups.mpr hmem)]
      simp [List.removeAll, hmem]
    · rw [if_neg (mt List.mem_eraseDups.mp hmem)]
      simp [List.removeAll, List.eraseDups_cons, hmem]

/-! ## One value under a name -/

/-- There are pairs with a name, and all of them have the same value. -/
def Only (pairs : List (String × α)) (key : String) (v : α) : Prop :=
  (∃ w, (key, w) ∈ pairs) ∧ ∀ w, (key, w) ∈ pairs → w = v

namespace Only

variable {pairs : List (String × α)} {key : String} {v : α}

theorem get?_eq (h : Only pairs key v) : get? pairs key = some v := by
  cases hget : get? pairs key with
  | none =>
    obtain ⟨w, hw⟩ := h.1
    exact absurd (List.mem_map_of_mem hw) (get?_eq_none_iff.mp hget)
  | some w => rw [h.2 w (mem_of_get? hget)]

theorem reverse (h : Only pairs key v) : Only pairs.reverse key v := by
  unfold Only at h ⊢
  simp only [List.mem_reverse]
  exact h

/-- The value is found after the pairs were written. -/
theorem get?_update (h : Only pairs key v) (entries : Entries α) :
    get? (update entries pairs) key = some v := by
  rw [Entries.get?_update, h.reverse.get?_eq, Option.some_or]

/-- The entries that the pairs write have the value under the name, and no other. -/
theorem ofPairs (h : Only pairs key v) : Only (ofPairs pairs) key v := by
  refine ⟨⟨v, mem_of_get? (h.get?_update [])⟩, fun w hw => ?_⟩
  rcases mem_update hw with hw | hw
  · cases hw
  · exact h.2 w hw

end Only

end TableOps.Entries
