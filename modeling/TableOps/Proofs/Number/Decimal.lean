import Mathlib.Data.List.Induction
import Mathlib.Data.List.TakeWhile
import Mathlib.Order.Basic
import Mathlib.Tactic.Ring
import TableOps.Failure
import TableOps.Proofs.Except
import TableOps.Proofs.Text.Characters
import TableOps.Url.Address

/-!
# Numbers in decimal

A number that is written in decimal is read back as it was.

* `Decimal.toList_natCast`, `Decimal.isDecimal_of_mem` — the digits a number is written with.
* `Decimal.of_isDecimal` — what a digit is, and what it is not.
* `Url.numberOf_toDigits` — the number of these digits.
* `Integer.ofText_of_isDecimal` — what is read from digits alone.
* `Integer.lt_of_ofText` — a number that is read from digits alone has no sign and is not too long.
* `Integer.digits_natCast`, `Integer.of_digits_natCast` — the digits of a number that is not too long.

Main statement: `Integer.ofText_natCast`, a number that is not too long is read back.
-/

namespace TableOps

namespace Decimal

/-- A number that is not negative is written with its digits alone. -/
theorem toList_natCast (n : Nat) : (toString (n : Int)).toList = Nat.toDigits 10 n :=
  Nat.toList_repr

theorem isDecimal_of_mem {n : Nat} {c : Char} (h : c ∈ Nat.toDigits 10 n) : Url.isDecimal c := by
  have hdigit := Nat.isDigit_of_mem_toDigits (by decide) (by decide) h
  unfold Char.isDigit at hdigit
  unfold Url.isDecimal
  exact hdigit

theorem toNat_of_isDecimal {c : Char} (h : Url.isDecimal c) : c.toNat < 128 := by
  simp only [Url.isDecimal, Bool.and_eq_true, decide_eq_true_eq] at h
  exact Nat.lt_of_le_of_lt h.2 (by decide)

/-- A digit of ASCII is a digit of some script, no blank and no sign. -/
theorem of_isDecimal {c : Char} (h : Url.isDecimal c) :
    Text.decimal? c = some (c.toNat - '0'.toNat) ∧ Text.isBlank c = false ∧
      c ≠ '_' ∧ c ≠ '-' ∧ c ≠ '+' ∧ c ≠ ')' := by
  obtain ⟨n, rfl⟩ := Text.exists_ascii (toNat_of_isDecimal h)
  revert n
  decide +kernel

end Decimal

/-- The digits of a number stand for it. -/
theorem Url.numberOf_toDigits (n : Nat) : numberOf (Nat.toDigits 10 n) = n :=
  Nat.ofDigitChars_ten_toDigits

namespace Integer

/-! ## Reading digits -/

theorem digitValues?_of_isDecimal {cs : List Char} (hne : cs ≠ []) (h : ∀ c ∈ cs, Url.isDecimal c) :
    digitValues? Text.decimal? cs = some (cs.map fun c => c.toNat - '0'.toNat) := by
  induction cs with
  | nil => exact absurd rfl hne
  | cons c cs ih =>
    obtain ⟨hc, hcs⟩ := List.forall_mem_cons.mp h
    have hvalue := (Decimal.of_isDecimal hc).1
    cases cs with
    | nil => rw [digitValues?, hvalue]; rfl
    | cons d cs =>
      have hd : d ≠ '_' := (Decimal.of_isDecimal (hcs d List.mem_cons_self)).2.2.1
      rw [digitValues?.eq_def]
      split
      · rename_i heq
        cases heq
      · rename_i heq
        cases heq
      · rename_i heq
        cases heq
        exact absurd rfl hd
      · rename_i heq
        cases heq
        rw [hvalue, ih (List.cons_ne_nil _ _) hcs]
        rfl

theorem ofDigits_map (cs : List Char) :
    ofDigits (cs.map fun c => c.toNat - '0'.toNat) = Url.numberOf cs := by
  rw [ofDigits, Url.numberOf, List.foldl_map]

/-- Digits of ASCII are read as their number, unless there are too many of them. -/
theorem unsigned_of_isDecimal {cs : List Char} (hne : cs ≠ []) (h : ∀ c ∈ cs, Url.isDecimal c) :
    unsigned Text.decimal? 0 cs =
      if cs.length ≤ digitLimit then .ok (Url.numberOf cs) else .error (.tooLong cs.length) := by
  have hfront : (cs.takeWhile fun c => (Text.decimal? c).isSome || c == '_') = cs := by
    refine List.takeWhile_eq_self_iff.mpr fun c hc => ?_
    rw [(Decimal.of_isDecimal (h c hc)).1]
    rfl
  simp only [unsigned, hfront, digitValues?_of_isDecimal hne h, List.length_map, Nat.zero_add,
    lt_irrefl, if_false, ofDigits_map]
  by_cases hlong : digitLimit < cs.length
  · rw [if_pos hlong, if_neg (by omega)]
  · rw [if_neg hlong, if_pos (by omega)]

/-- Digits of ASCII have no white space around them. -/
theorem trimWhite_of_isDecimal {cs : List Char} (h : ∀ c ∈ cs, Url.isDecimal c) :
    trimWhite cs = cs := by
  have hblank : ∀ cs : List Char, (∀ c ∈ cs, Url.isDecimal c) →
      cs.dropWhile Text.isWhiteSpace = cs := by
    refine fun cs hcs => List.dropWhile_eq_self_iff.mpr fun hpos hwhite => ?_
    have hfirst := (Decimal.of_isDecimal (hcs _ (List.getElem_mem hpos))).2.1
    rw [Text.isBlank, hwhite] at hfirst
    cases hfirst
  rw [trimWhite, hblank _ h, hblank _ fun c hc => h c (List.mem_reverse.mp hc), List.reverse_reverse]

/-- Digits of ASCII alone are read as a number without sign. -/
theorem ofText_of_isDecimal {cs : List Char} (hne : cs ≠ []) (h : ∀ c ∈ cs, Url.isDecimal c) :
    ofText (String.ofList cs) =
      if cs.length ≤ digitLimit then .ok (Url.numberOf cs : Int)
      else .error (.tooLong cs.length) := by
  rw [ofText, String.toList_ofList, trimWhite_of_isDecimal h]
  split
  · exact absurd rfl (Decimal.of_isDecimal (h '-' List.mem_cons_self)).2.2.2.1
  · exact absurd rfl (Decimal.of_isDecimal (h '+' List.mem_cons_self)).2.2.2.2.1
  · rw [unsigned_of_isDecimal hne h]
    split <;> rfl

/-- A number that is not too long is read back as it was written. -/
theorem ofText_natCast {n : Nat} (h : n < 10 ^ digitLimit) :
    ofText (toString (n : Int)) = .ok n := by
  have hlength : (Nat.toDigits 10 n).length ≤ digitLimit :=
    (Nat.length_toDigits_le_iff (by decide) (by decide)).mpr h
  rw [← String.ofList_toList (s := toString (n : Int)), Decimal.toList_natCast,
    ofText_of_isDecimal Nat.toDigits_ne_nil fun c => Decimal.isDecimal_of_mem, if_pos hlength,
    Url.numberOf_toDigits]

/-! ## Numbers that were read -/

theorem lt_of_digitValues? {digit? : Char → Option Nat} {base : Nat}
    (hdigit : ∀ c d, digit? c = some d → d < base) {cs : List Char} {ds : List Nat}
    (h : digitValues? digit? cs = some ds) : ∀ d ∈ ds, d < base := by
  fun_induction digitValues? digit? cs generalizing ds with
  | case1 => cases h
  | case2 c =>
    obtain ⟨d, hd, rfl⟩ := Option.map_eq_some_iff.mp h
    simpa using hdigit c d hd
  | case3 c cs ih | case4 c cs _ _ ih =>
    obtain ⟨d, hd, h⟩ := Option.bind_eq_some_iff.mp h
    obtain ⟨rest, hrest, h⟩ := Option.bind_eq_some_iff.mp h
    cases h
    exact List.forall_mem_cons.mpr ⟨hdigit c d hd, ih hrest⟩

theorem lt_of_decimal? {c : Char} {d : Nat} (h : Text.decimal? c = some d) : d < 10 := by
  obtain ⟨z, hz, rfl⟩ := Option.map_eq_some_iff.mp h
  have hrange := List.find?_some hz
  simp only [Bool.and_eq_true, decide_eq_true_eq] at hrange
  omega

/-- Digits stand for a number with no more of them. -/
theorem ofDigits_lt {ds : List Nat} (h : ∀ d ∈ ds, d < 10) : ofDigits ds < 10 ^ ds.length := by
  induction ds using List.reverseRecOn with
  | nil => decide
  | append_singleton ds d ih =>
    rw [List.forall_mem_append, List.forall_mem_singleton] at h
    have hds := ih h.1
    rw [ofDigits, List.foldl_append, List.length_append, List.length_singleton, Nat.pow_succ]
    have hstep : List.foldl (fun n d => 10 * n + d) (ofDigits ds) [d] = 10 * ofDigits ds + d := rfl
    rw [ofDigits] at hstep hds
    omega

theorem unsigned_lt {cs : List Char} {n : Nat} (h : unsigned Text.decimal? 0 cs = .ok n) :
    n < 10 ^ digitLimit := by
  simp only [unsigned] at h
  split at h
  · cases h
  · rename_i ds hds
    split at h
    · cases h
    · rename_i hlong
      split at h
      · cases h
      · cases h
        refine (ofDigits_lt (lt_of_digitValues? (fun _ _ => lt_of_decimal?) hds)).trans_le ?_
        exact Nat.pow_le_pow_right (by decide) (by omega)

/-- A number that is read from digits alone has no sign, and is not too long. -/
theorem lt_of_ofText {s : String} {n : Int} (hdigits : ∀ c ∈ s.toList, Text.isDigit c)
    (h : ofText s = .ok n) : ∃ m : Nat, n = m ∧ m < 10 ^ digitLimit := by
  have hmem : ∀ c ∈ trimWhite s.toList, c ∈ s.toList := fun c hc => by
    rw [trimWhite, List.mem_reverse] at hc
    have hback := (List.dropWhile_sublist _).subset hc
    exact (List.dropWhile_sublist _).subset (List.mem_reverse.mp hback)
  unfold ofText at h
  split at h
  · rename_i hsign
    exact absurd (hdigits '-' (hmem _ (hsign ▸ List.mem_cons_self))) (by decide +kernel)
  · rename_i hsign
    exact absurd (hdigits '+' (hmem _ (hsign ▸ List.mem_cons_self))) (by decide +kernel)
  · obtain ⟨k, hk, rfl⟩ := ok_of_map h
    obtain ⟨m, hm, hk⟩ := ok_of_bind hk
    cases hk
    exact ⟨m, rfl, unsigned_lt hm⟩

/-! ## Numbers that are written -/

theorem isSome_text?_iff {n : Int} : (text? n).isSome ↔ n.natAbs < 10 ^ digitLimit := by
  have hlength : (toString n.natAbs).length ≤ digitLimit ↔ n.natAbs < 10 ^ digitLimit := by
    rw [← Nat.length_toDigits_le_iff (by decide) (by decide), ← String.length_toList,
      show (toString n.natAbs).toList = Nat.toDigits 10 n.natAbs from Nat.toList_repr]
  rw [← hlength, text?]
  by_cases hlong : digitLimit < (toString n.natAbs).length
  · rw [if_pos hlong]
    exact iff_of_false Bool.false_ne_true (Nat.not_le_of_lt hlong)
  · rw [if_neg hlong]
    exact iff_of_true rfl (Nat.le_of_not_lt hlong)

/-- A number is written exactly when it is not too long, and refused for nothing else. -/
theorem digits_cases (n : Int) :
    (∃ s, digits n = .ok s ∧ n.natAbs < 10 ^ digitLimit) ∨
      digits n = .error (.input .unwritableInteger) ∧ ¬n.natAbs < 10 ^ digitLimit := by
  rw [← isSome_text?_iff, digits]
  cases text? n with
  | some s => exact .inl ⟨s, rfl, rfl⟩
  | none => exact .inr ⟨rfl, Bool.false_ne_true⟩

/-- What is written for a number without sign are its digits. -/
theorem of_digits_natCast {n : Nat} {s : String} (h : digits n = .ok s) : s = toString n := by
  unfold digits text? at h
  dsimp only at h
  split at h
  · rename_i written hwritten
    cases h
    split at hwritten
    · cases hwritten
    · rw [if_neg (by omega), Int.natAbs_natCast] at hwritten
      exact (Option.some.inj hwritten).symm
  · cases h

/-- A number without sign that is not too long is written with its digits. -/
theorem digits_natCast {n : Nat} (h : n < 10 ^ digitLimit) : digits n = .ok (toString n) := by
  rcases digits_cases n with ⟨s, hs, -⟩ | ⟨-, hlong⟩
  · rw [hs, of_digits_natCast hs]
  · exact absurd h hlong

end Integer

end TableOps
