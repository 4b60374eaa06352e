import TableOps.Proofs.NativeType.Mysql

/-!
# Room for texts and binaries on MySQL

A column of limited length is declared by a type that states the length, or by one of the types of
fixed capacity. MySQL refuses a stated length beyond the limit of the type.

* `Mysql.statedLength?` — the length that a declaration states.
* `Mysql.capacity?` — the room of a declaration, if MySQL accepts it.
* `Mysql.promotedRoom` — the room of a length that is stated up to 255 and promoted beyond.
* `Mysql.capacity?_withParameter`, `Mysql.capacity?_sizedNative` — the room of what is written.

Main statement: `Mysql.room_of_length`, a text or a binary has room for its length, and one of varying
length has it as long as MySQL accepts the length.
-/

namespace TableOps.NativeType.Mysql

/-- The room of the types of fixed capacity. -/
def fixedCapacities : Entries Nat :=
  [("tinytext", 255), ("text", 65535), ("mediumtext", 16777215), ("longtext", 4294967295),
    ("tinyblob", 255), ("blob", 65535), ("mediumblob", 16777215), ("longblob", 4294967295)]

/-- The types that state a length, with the longest one that MySQL accepts. -/
def statedLimits : List (String × Nat) :=
  [("binary", 255), ("varchar", 65535), ("varbinary", 65535)]

/-- The length that a declaration states in parentheses at its end. -/
def statedLength? (declaration : String) : Option Nat :=
  match ((Text.cutFirst? '(' declaration.toList).map Prod.snd).bind (Text.cutFirst? ')') with
  | some (digits, []) =>
    if !digits.isEmpty && digits.all Url.isDecimal then some (Url.numberOf digits) else none
  | _ => none

/-- The room of a declaration, if MySQL accepts it. -/
def capacity? (declaration : String) : Option Nat :=
  match fixedCapacities.get? declaration with
  | some room => some room
  | none =>
    match statedLimits.find? fun (word, _) => Text.startsWith (word ++ "(") declaration with
    | some (_, limit) => (statedLength? declaration).filter (· ≤ limit)
    | none => none

/-- The room of a length that is stated up to 255 and promoted to a type of fixed capacity beyond. -/
def promotedRoom (n : Nat) : Nat :=
  if n ≤ 255 then n else if n ≤ 65535 then 65535 else if n ≤ 16777215 then 16777215 else 4294967295

/-! ## Stated lengths -/

theorem statedLength?_withParameter {word : String} (hword : isWord word) (n : Nat) :
    statedLength? (withParameter word (toString n)) = some n := by
  have hopen : '(' ∉ word.toList := (of_isWord hword).2.1
  have hclose : ')' ∉ Nat.toDigits 10 n := (isPart_toDigits n).closed
  have hdigits : (Nat.toDigits 10 n).all Url.isDecimal = true :=
    List.all_eq_true.mpr fun _ hc => Decimal.isDecimal_of_mem hc
  have hne : (Nat.toDigits 10 n).isEmpty = false := List.isEmpty_eq_false_iff.mpr Nat.toDigits_ne_nil
  have hspelled : (withParameter word (toString n)).toList =
      word.toList ++ '(' :: (Nat.toDigits 10 n ++ [')']) :=
    spelled_withParameter word n
  rw [statedLength?, hspelled, Text.cutFirst?_append hopen, Option.map_some, Option.bind_some,
    Text.cutFirst?_append hclose]
  simp only [hne, hdigits, Bool.not_false, Bool.and_self, if_true, Url.numberOf_toDigits]

/-- A declaration that states its length has room for it up to the limit of its type, and is refused
beyond. -/
theorem capacity?_withParameter {word : String} {limit : Nat} (h : (word, limit) ∈ statedLimits)
    (n : Nat) :
    capacity? (withParameter word (toString n)) = if n ≤ limit then some n else none := by
  have hspelled := spelled_withParameter word n
  have hwords : ∀ entry ∈ statedLimits, isWord entry.1 ∧
      ∀ key ∈ fixedCapacities.keys, Text.startsWith (entry.1 ++ "(") key = false := by
    decide
  obtain ⟨hword, hkeys⟩ := hwords _ h
  have hfind : (statedLimits.find? fun (word', _) =>
      Text.startsWith (word' ++ "(") (withParameter word (toString n))) = some (word, limit) := by
    simp only [statedLimits, List.mem_cons, Prod.mk.injEq, List.not_mem_nil, or_false] at h
    simp only [statedLimits, List.find?, hspelled.startsWith_eq]
    rcases h with ⟨rfl, rfl⟩ | ⟨rfl, rfl⟩ | ⟨rfl, rfl⟩ <;> rfl
  rw [capacity?, hspelled.get?_eq_none hkeys, hfind]
  dsimp only
  rw [statedLength?_withParameter hword, Option.filter_some]
  simp only [decide_eq_true_eq]

/-- The lengths that MySQL knows have few enough digits to be written. -/
theorem lt_digitLimit {n : Nat} (h : n ≤ 4294967295) : n < 10 ^ Integer.digitLimit :=
  Nat.lt_of_lt_of_le (by omega : n < 10 ^ 10) (Nat.pow_le_pow_right (by decide) (by decide))

/-! ## Promoted lengths -/

/-- A length is stated up to 255, and beyond it the smallest type that has room for it is taken. -/
theorem capacity?_sizedNative {word small medium large unsized : String} {limit n : Nat}
    (hword : (word, limit) ∈ statedLimits) (hlimit : 255 ≤ limit) (hpos : 1 ≤ n)
    (hsmall : capacity? small = some 65535) (hmedium : capacity? medium = some 16777215)
    (hlarge : capacity? large = some 4294967295) :
    ∃ declaration,
      sizedNative word (some (n : Int)) [(65535, small), (16777215, medium)] large unsized =
        .ok declaration ∧ capacity? declaration = some (promotedRoom n) := by
  have hnonzero : nonZero? (some (n : Int)) = some (n : Int) := if_pos (by simp; omega)
  have hstated : (n : Int) ≤ lengthLimit ↔ n ≤ 255 := by
    rw [lengthLimit]
    omega
  rw [sizedNative, hnonzero]
  dsimp only
  by_cases hshort : n ≤ 255
  · rw [if_pos (hstated.mpr hshort), withNumber_natCast (lt_digitLimit (by omega))]
    refine ⟨_, rfl, ?_⟩
    rw [capacity?_withParameter hword, if_pos (hshort.trans hlimit), promotedRoom, if_pos hshort]
  · rw [if_neg (mt hstated.mp hshort), promotedRoom, if_neg hshort]
    refine ⟨_, rfl, ?_⟩
    by_cases htext : n ≤ 65535
    · rw [tiered, List.find?_cons_of_pos (by simpa using (by omega : (n : Int) ≤ 65535)), if_pos htext]
      exact hsmall
    · rw [tiered, List.find?_cons_of_neg (by simpa using (by omega : (65535 : Int) < n)), if_neg htext]
      by_cases hmiddle : n ≤ 16777215
      · rw [List.find?_cons_of_pos (by simpa using (by omega : (n : Int) ≤ 16777215)),
          if_pos hmiddle]
        exact hmedium
      · rw [List.find?_cons_of_neg (by simpa using (by omega : (16777215 : Int) < n)),
          if_neg hmiddle]
        exact hlarge

/-- The room of a text or a binary. -/
theorem capacity?_promoted {c : ColumnType} {n : Nat} (hkind : c.kind = "string" ∨ c.kind = "binary")
    (hformat : c.format = none) (hlength : c.maxLength = some (n : Int)) (hpos : 1 ≤ n) :
    ∃ declaration, toNative c = .ok declaration ∧ capacity? declaration = some (promotedRoom n) := by
  rcases hkind with hkind | hkind
  · have hnative : toNative c = sizedNative "varchar" (some (n : Int))
        [(65535, "text"), (16777215, "mediumtext")] "longtext" "text" := by
      simp only [toNative, hkind, textNative, hformat, hlength, Option.filter_none]
    rw [hnative]
    exact capacity?_sizedNative (by decide : ("varchar", 65535) ∈ statedLimits) (by decide) hpos
      (by decide) (by decide) (by decide)
  · have hnative : toNative c = sizedNative "binary" (some (n : Int))
        [(65535, "blob"), (16777215, "mediumblob")] "longblob" "blob" := by
      simp only [toNative, hkind, binaryNative, hformat, hlength, Option.filter_none]
    rw [hnative]
    exact capacity?_sizedNative (by decide : ("binary", 255) ∈ statedLimits) (by decide) hpos
      (by decide) (by decide) (by decide)

/-- The room of a binary of varying length, which is never promoted. -/
theorem capacity?_varying {c : ColumnType} {n : Nat} (hkind : c.kind = "varbinary")
    (hlength : c.maxLength = some (n : Int)) (hpos : 1 ≤ n) (hle : n ≤ 4294967295) :
    ∃ declaration, toNative c = .ok declaration ∧
      capacity? declaration = if n ≤ 65535 then some n else none := by
  have hnonzero : nonZero? (some (n : Int)) = some (n : Int) := if_pos (by simp; omega)
  have hnative : toNative c = withNumber "varbinary" n := by
    simp only [toNative, hkind, hlength, hnonzero, Option.getD_some]
  rw [withNumber_natCast (lt_digitLimit hle)] at hnative
  exact ⟨_, hnative,
    capacity?_withParameter (by decide : ("varbinary", 65535) ∈ statedLimits) n⟩

/-! ## Room for a length -/

theorem le_promotedRoom {n : Nat} (h : n ≤ 4294967295) : n ≤ promotedRoom n := by
  unfold promotedRoom
  split_ifs <;> omega

theorem promotedRoom_mono {n m : Nat} (h : n ≤ m) : promotedRoom n ≤ promotedRoom m := by
  unfold promotedRoom
  split_ifs <;> omega

/-- A text, a binary or a binary of varying length without a format is declared by a type that MySQL
accepts and that has room for the length, except that a binary of varying length is not promoted and is
refused beyond 65535. A longer one never has less room. -/
theorem room_of_length {c : ColumnType} {n : Nat}
    (hkind : c.kind ∈ ["string", "binary", "varbinary"]) (hformat : c.format = none)
    (hlength : c.maxLength = some (n : Int)) (hpos : 1 ≤ n) (hle : n ≤ 4294967295) :
    ∃ declaration, toNative c = .ok declaration ∧
      ((∃ room, capacity? declaration = some room ∧ n ≤ room) ↔
        (c.kind = "varbinary" → n ≤ 65535)) ∧
      ∀ (c' : ColumnType) (m : Nat) (declaration' : String), c'.kind = c.kind → c'.format = none →
        c'.maxLength = some (m : Int) → n ≤ m → m ≤ 4294967295 → toNative c' = .ok declaration' →
        ∀ room room', capacity? declaration = some room → capacity? declaration' = some room' →
          room ≤ room' := by
  by_cases hvarying : c.kind = "varbinary"
  · obtain ⟨declaration, hnative, hcapacity⟩ := capacity?_varying hvarying hlength hpos hle
    refine ⟨declaration, hnative, ?_, ?_⟩
    · rw [forall_prop_of_true hvarying, hcapacity]
      by_cases hfits : n ≤ 65535
      · exact iff_of_true ⟨n, if_pos hfits, le_rfl⟩ hfits
      · refine iff_of_false ?_ hfits
        rintro ⟨room, hroom, -⟩
        rw [if_neg hfits] at hroom
        cases hroom
    · intro c' m declaration' hkind' _ hlength' hnm hmax hnative' room room' hroom hroom'
      obtain ⟨_, hdeclared, hcapacity'⟩ :=
        capacity?_varying (hkind'.trans hvarying) hlength' (hpos.trans hnm) hmax
      obtain rfl := Except.ok.inj (hdeclared.symm.trans hnative')
      rw [hcapacity', Option.ite_none_right_eq_some] at hroom'
      rw [hcapacity, Option.ite_none_right_eq_some] at hroom
      cases hroom.2
      cases hroom'.2
      exact hnm
  · have hpromoted : c.kind = "string" ∨ c.kind = "binary" := by
      simp only [List.mem_cons, List.not_mem_nil, or_false] at hkind
      tauto
    obtain ⟨declaration, hnative, hcapacity⟩ := capacity?_promoted hpromoted hformat hlength hpos
    refine ⟨declaration, hnative,
      iff_of_true ⟨_, hcapacity, le_promotedRoom hle⟩ fun h => absurd h hvarying, ?_⟩
    intro c' m declaration' hkind' hformat' hlength' hnm _ hnative' room room' hroom hroom'
    obtain ⟨_, hdeclared, hcapacity'⟩ :=
      capacity?_promoted (hkind' ▸ hpromoted) hformat' hlength' (hpos.trans hnm)
    obtain rfl := Except.ok.inj (hdeclared.symm.trans hnative')
    rw [hcapacity'] at hroom'
    rw [hcapacity] at hroom
    cases hroom
    cases hroom'
    exact promotedRoom_mono hnm

theorem room_of_length_binary :
    ∃ declaration, toNative (sized "binary" (some 65536)) = .ok declaration ∧
      (∃ room, capacity? declaration = some room ∧ 65536 ≤ room) ∧
      ∀ room room', capacity? declaration = some room → capacity? "longblob" = some room' →
        room ≤ room' := by
  obtain ⟨declaration, hnative, hroom, hlonger⟩ :=
    room_of_length (by decide : (sized "binary" (some 65536)).kind ∈ _) rfl
      (rfl : _ = some ((65536 : Nat) : Int)) (by decide) (by decide)
  exact ⟨declaration, hnative, hroom.mpr (by decide), hlonger (sized "binary" (some 16777216))
    16777216 "longblob" rfl rfl rfl (by decide) (by decide) (ok_of_toOption (by decide +kernel))⟩

/-- A binary of varying length is not promoted, and MySQL refuses what is declared instead. -/
theorem varbinary_refused :
    toNative (sized "varbinary" (some 65536)) = .ok "varbinary(65536)" ∧
      capacity? "varbinary(65536)" = none :=
  ⟨ok_of_toOption (by decide +kernel), by decide +kernel⟩

end TableOps.NativeType.Mysql
