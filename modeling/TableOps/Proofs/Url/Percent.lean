import TableOps.Url.Percent

/-!
# Percent coding and back

What is coded for a URL is read back as it was, whatever the text, and consists of plain characters
and percent signs only.

* `Utf8.decodeFrom_bytes` — the bytes of a character are read back as that character.
* `Percent.isPlain_or_percent` — the characters of a coded text.

Main statement: `Percent.decode_encode`, decoding undoes coding.
-/

namespace TableOps

/-! ## Bytes of characters -/

namespace Utf8

/-- A character is no surrogate and has at most 21 bits. -/
theorem toNat_bounds (c : Char) : c.toNat < 0xD800 ∨ 0xDFFF < c.toNat ∧ c.toNat < 0x110000 :=
  c.valid

theorem bytes_lt (c : Char) : ∀ b ∈ bytes c, b < 256 := by
  have hbounds := toNat_bounds c
  intro b hb
  unfold bytes at hb
  dsimp only at hb
  split at hb
  · simp only [List.mem_singleton] at hb
    omega
  · split at hb
    · simp only [List.mem_cons, List.not_mem_nil, or_false] at hb
      omega
    · split at hb <;> simp only [List.mem_cons, List.not_mem_nil, or_false] at hb <;> omega

/-- A byte that continues a character and ends it. -/
theorem decodeFrom_last {bits low high b : Nat} (hlow : low ≤ b) (hhigh : b ≤ high)
    (bs : List Nat) :
    decodeFrom (some ⟨1, bits, low, high⟩) (b :: bs) =
      Char.ofNat (64 * bits + (b - 0x80)) :: decodeFrom none bs := by
  simp [decodeFrom, hlow, hhigh]

/-- A byte that continues a character and does not end it. -/
theorem decodeFrom_next {left bits low high b : Nat} (hleft : 1 < left) (hlow : low ≤ b)
    (hhigh : b ≤ high) (bs : List Nat) :
    decodeFrom (some ⟨left, bits, low, high⟩) (b :: bs) =
      decodeFrom (some ⟨left - 1, 64 * bits + (b - 0x80), 0x80, 0xBF⟩) bs := by
  simp [decodeFrom, hlow, hhigh, Nat.not_le.mpr hleft]

/-- A byte that begins a longer character. -/
theorem decodeFrom_begin {b : Nat} {s : Begun} (h : begin b = some (.inr s)) (bs : List Nat) :
    decodeFrom none (b :: bs) = decodeFrom (some s) bs := by
  rw [decodeFrom, h]

theorem begin_two {n : Nat} (hlow : 0x80 ≤ n) (hhigh : n < 0x800) :
    begin (0xC0 + n / 64) = some (.inr ⟨1, n / 64, 0x80, 0xBF⟩) := by
  unfold begin
  rw [if_neg (by omega), if_neg (by omega), if_pos (by omega), Nat.add_sub_cancel_left]

/-- The first of three bytes; the second one lies in the range that leaves out shorter characters
and surrogates. -/
theorem begin_three {n : Nat} (hlow : 0x800 ≤ n) (hhigh : n < 0x10000)
    (hsurrogate : n < 0xD800 ∨ 0xDFFF < n) : ∃ low high,
    begin (0xE0 + n / 4096) = some (.inr ⟨2, n / 4096, low, high⟩) ∧
      low ≤ 0x80 + n / 64 % 64 ∧ 0x80 + n / 64 % 64 ≤ high := by
  unfold begin
  rw [if_neg (by omega), if_neg (by omega), if_neg (by omega)]
  by_cases hfirst : n / 4096 = 0
  · rw [if_pos (by omega), hfirst]
    exact ⟨_, _, rfl, by omega, by omega⟩
  · rw [if_neg (by omega)]
    by_cases hmiddle : n / 4096 = 13
    · rw [if_pos (by omega), hmiddle]
      exact ⟨_, _, rfl, by omega, by omega⟩
    · rw [if_neg (by omega), if_pos (by omega), Nat.add_sub_cancel_left]
      exact ⟨_, _, rfl, by omega, by omega⟩

/-- The first of four bytes; the second one lies in the range that leaves out shorter characters
and those with more than 21 bits. -/
theorem begin_four {n : Nat} (hlow : 0x10000 ≤ n) (hhigh : n < 0x110000) : ∃ low high,
    begin (0xF0 + n / 262144) = some (.inr ⟨3, n / 262144, low, high⟩) ∧
      low ≤ 0x80 + n / 4096 % 64 ∧ 0x80 + n / 4096 % 64 ≤ high := by
  unfold begin
  rw [if_neg (by omega), if_neg (by omega), if_neg (by omega), if_neg (by omega),
    if_neg (by omega), if_neg (by omega)]
  by_cases hfirst : n / 262144 = 0
  · rw [if_pos (by omega), hfirst]
    exact ⟨_, _, rfl, by omega, by omega⟩
  · rw [if_neg (by omega)]
    by_cases hlast : n / 262144 = 4
    · rw [if_neg (by omega), if_pos (by omega), hlast]
      exact ⟨_, _, rfl, by omega, by omega⟩
    · rw [if_pos (by omega), Nat.add_sub_cancel_left]
      exact ⟨_, _, rfl, by omega, by omega⟩

/-- The bytes of a character stand for it, whatever follows them. -/
theorem decodeFrom_bytes (c : Char) (bs : List Nat) :
    decodeFrom none (bytes c ++ bs) = c :: decodeFrom none bs := by
  have hbounds := toNat_bounds c
  have hread : ∀ n, n = c.toNat → Char.ofNat n = c := fun n hn => by rw [hn, Char.ofNat_toNat]
  unfold bytes
  dsimp only
  -- one case for each number of bytes
  by_cases hone : c.toNat < 0x80
  · rw [if_pos hone, List.singleton_append, decodeFrom, begin, if_pos hone]
    dsimp only
    rw [hread _ rfl]
  rw [if_neg hone]
  by_cases htwo : c.toNat < 0x800
  · rw [if_pos htwo, List.cons_append, decodeFrom_begin (begin_two (by omega) htwo),
      List.cons_append, decodeFrom_last (by omega) (by omega), hread _ (by omega), List.nil_append]
  rw [if_neg htwo]
  by_cases hthree : c.toNat < 0x10000
  · obtain ⟨low, high, hbegin, hlow, hhigh⟩ := begin_three (by omega) hthree (by omega)
    rw [if_pos hthree, List.cons_append, decodeFrom_begin hbegin, List.cons_append,
      decodeFrom_next (by decide) hlow hhigh, List.cons_append,
      decodeFrom_last (by omega) (by omega), hread _ (by omega), List.nil_append]
  · obtain ⟨low, high, hbegin, hlow, hhigh⟩ := begin_four (n := c.toNat) (by omega) (by omega)
    rw [if_neg hthree, List.cons_append, decodeFrom_begin hbegin, List.cons_append,
      decodeFrom_next (by decide) hlow hhigh, List.cons_append,
      decodeFrom_next (by decide) (by omega) (by omega), List.cons_append,
      decodeFrom_last (by omega) (by omega), hread _ (by omega), List.nil_append]

/-- The bytes of a text stand for it. -/
theorem decode_bytes (cs : List Char) : decode (cs.flatMap bytes) = cs := by
  have hfrom : ∀ cs, decodeFrom none (cs.flatMap bytes) = cs := by
    intro cs
    induction cs with
    | nil => rfl
    | cons c cs ih => rw [List.flatMap_cons, decodeFrom_bytes, ih]
  exact hfrom cs

end Utf8

/-! ## Coded texts -/

namespace Percent

theorem hexValue?_hexDigit {n : Nat} (h : n < 16) : hexValue? (hexDigit n) = some n := by
  have hall : ∀ n : Fin 16, hexValue? (hexDigit n) = some n.val := by decide
  exact hall ⟨n, h⟩

theorem isPlain_hexDigit {n : Nat} (h : n < 16) : isPlain (hexDigit n) := by
  have hall : ∀ n : Fin 16, isPlain (hexDigit n) := by decide
  exact hall ⟨n, h⟩

theorem byte?_hexDigit {b : Nat} (h : b < 256) :
    byte? (hexDigit (b / 16)) (hexDigit (b % 16)) = some b := by
  have hsum : 16 * (b / 16) + b % 16 = b := by omega
  rw [byte?, hexValue?_hexDigit (by omega), hexValue?_hexDigit (by omega)]
  exact congrArg some hsum

/-- A plain character is one of ASCII and no percent sign. -/
theorem toNat_of_isPlain {c : Char} (h : isPlain c) : c.toNat < 0x80 ∧ c ≠ '%' := by
  have hle : ∀ d : Char, c ≤ d → c.toNat ≤ d.toNat := fun d hd => hd
  unfold isPlain at h
  simp only [Bool.or_eq_true, Bool.and_eq_true, decide_eq_true_eq, beq_iff_eq] at h
  refine ⟨?_, ?_⟩
  · rcases h with ((((((⟨-, h⟩ | ⟨-, h⟩) | ⟨-, h⟩) | rfl) | rfl) | rfl) | rfl)
    · exact Nat.lt_of_le_of_lt (hle _ h) (by decide)
    · exact Nat.lt_of_le_of_lt (hle _ h) (by decide)
    · exact Nat.lt_of_le_of_lt (hle _ h) (by decide)
    all_goals decide
  · rintro rfl
    revert h
    decide

/-- A coded text consists of plain characters and percent signs. -/
theorem isPlain_or_percent {s : String} {c : Char} (h : c ∈ (encode s).toList) :
    isPlain c ∨ c = '%' := by
  rw [encode, String.toList_ofList] at h
  obtain ⟨d, -, hc⟩ := List.mem_flatMap.mp h
  unfold encodeChar at hc
  split at hc
  · rename_i hplain
    rw [List.mem_singleton.mp hc]
    exact .inl hplain
  · obtain ⟨b, hb, hc⟩ := List.mem_flatMap.mp hc
    have hlt := Utf8.bytes_lt d b hb
    unfold code at hc
    rcases List.mem_cons.mp hc with rfl | hc
    · exact .inr rfl
    · rcases List.mem_cons.mp hc with rfl | hc
      · exact .inl (isPlain_hexDigit (by omega))
      · rw [List.mem_singleton.mp hc]
        exact .inl (isPlain_hexDigit (by omega))

theorem encode_ne_empty {s : String} (h : s ≠ "") : (encode s).toList ≠ [] := by
  rw [encode, String.toList_ofList]
  cases hs : s.toList with
  | nil => exact absurd (String.toList_eq_nil_iff.mp hs) h
  | cons c cs =>
    have hc : encodeChar c ≠ [] := by
      unfold encodeChar Utf8.bytes
      dsimp only
      split
      · simp
      · split
        · simp [code]
        · split
          · simp [code]
          · split <;> simp [code]
    simp [hc]

/-! ## Reading a coded text -/

/-- A coded byte is read. -/
theorem decodeFrom_code (pending : List Nat) {b : Nat} (h : b < 256) (cs : List Char) :
    decodeFrom pending (code b ++ cs) = decodeFrom (b :: pending) cs := by
  show decodeFrom pending ('%' :: hexDigit (b / 16) :: hexDigit (b % 16) :: cs) = _
  rw [decodeFrom, byte?_hexDigit h]

/-- A plain character is read as its byte. -/
theorem decodeFrom_plain (pending : List Nat) {c : Char} (h : isPlain c) (cs : List Char) :
    decodeFrom pending (c :: cs) = decodeFrom (c.toNat :: pending) cs := by
  obtain ⟨hlt, hne⟩ := toNat_of_isPlain h
  rw [decodeFrom, if_pos hlt]
  intro a b rest heq
  exact absurd heq hne

/-- Coded bytes are read in order. -/
theorem decodeFrom_codes (pending : List Nat) {bs : List Nat} (h : ∀ b ∈ bs, b < 256)
    (cs : List Char) :
    decodeFrom pending (bs.flatMap code ++ cs) = decodeFrom (bs.reverse ++ pending) cs := by
  induction bs generalizing pending with
  | nil => rfl
  | cons b bs ih =>
    obtain ⟨hb, hbs⟩ := List.forall_mem_cons.mp h
    rw [List.flatMap_cons, List.append_assoc, decodeFrom_code pending hb, ih _ hbs,
      List.reverse_cons, List.append_assoc, List.singleton_append]

/-- A character is read as its bytes, coded or not. -/
theorem decodeFrom_encodeChar (pending : List Nat) (c : Char) (cs : List Char) :
    decodeFrom pending (encodeChar c ++ cs) =
      decodeFrom ((Utf8.bytes c).reverse ++ pending) cs := by
  unfold encodeChar
  split
  · rename_i hplain
    have hbytes : Utf8.bytes c = [c.toNat] := if_pos (toNat_of_isPlain hplain).1
    rw [List.singleton_append, decodeFrom_plain pending hplain, hbytes]
    rfl
  · exact decodeFrom_codes pending (Utf8.bytes_lt c) cs

/-- Decoding undoes coding. -/
theorem decode_encode (s : String) : decode (encode s) = s := by
  have hfrom : ∀ (pending : List Nat) (cs : List Char),
      decodeFrom pending (cs.flatMap encodeChar) =
        Utf8.decode (pending.reverse ++ cs.flatMap Utf8.bytes) := by
    intro pending cs
    induction cs generalizing pending with
    | nil => rw [List.flatMap_nil, List.flatMap_nil, List.append_nil, decodeFrom]
    | cons c cs ih =>
      rw [List.flatMap_cons, decodeFrom_encodeChar, ih, List.reverse_append, List.reverse_reverse,
        List.append_assoc, List.flatMap_cons]
  rw [decode, encode, String.toList_ofList, hfrom, List.reverse_nil, List.nil_append,
    Utf8.decode_bytes, String.ofList_toList]

end Percent

end TableOps
