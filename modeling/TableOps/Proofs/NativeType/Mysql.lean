import TableOps.NativeType.Mysql
import TableOps.Proofs.Entries
import TableOps.Proofs.NativeType.Parameter

/-!
# Spellings of MySQL

A spelling that was written is written as it is when it is read. Only two kinds are written as
spellings that are read as something else, and no spelling of the engine is read as these kinds.

* `Mysql.IsSettled` — a spelling that is written as it was read; `Mysql.Settles`, a type that is
  written as such a spelling.
* `Mysql.OfSpelling` — what a spelling with parameters or attributes is read as;
  `Mysql.ofSpelling_cases`, it is read as nothing else.
* `Mysql.settles_number`, `Mysql.settles_sized`, `Mysql.settles_time` — how this is written.

Main statement: `Mysql.settles_of_ofNative`.
-/

namespace TableOps.NativeType.Mysql

/-- A spelling that is written as it was read. -/
def IsSettled (spelling : String) : Prop :=
  (ofNative spelling >>= toNative) = .ok spelling

/-- A type that is written as such a spelling. -/
def Settles (c : ColumnType) : Prop :=
  ∃ spelling, toNative c = .ok spelling ∧ IsSettled spelling

/-- `IsSettled` as a test. -/
def isSettled (spelling : String) : Bool :=
  (ofNative spelling >>= toNative).toOption == some spelling

/-- `Settles` as a test. -/
def settles (c : ColumnType) : Bool :=
  (toNative c).toOption.any isSettled

theorem IsSettled.of_test {spelling : String} (h : isSettled spelling = true) :
    IsSettled spelling :=
  ok_of_toOption (beq_iff_eq.mp h)

theorem Settles.of_test {c : ColumnType} (h : settles c = true) : Settles c := by
  obtain ⟨spelling, hspelling, hsettled⟩ := (Option.any_eq_true _ _).mp h
  exact ⟨spelling, ok_of_toOption hspelling, .of_test hsettled⟩

/-! ## What spellings are read as -/

theorem settles_integer {spelling : String} {c : ColumnType} (h : integerOf? spelling = some c) :
    settles c = true := by
  have hall : ∀ entry ∈ integerWords, ∀ unsigned : Bool, settles
      { ColumnType.ofKind "integer" with
        format := entry.2
        options := if unsigned then { ColumnOptions.none with unsigned := some true } else .none } =
      true := by
    decide
  obtain ⟨entry, hentry, rfl⟩ := Option.map_eq_some_iff.mp h
  exact hall entry (List.mem_of_find?_eq_some hentry) _

/-- The types of spellings that have no parameter, or one that is a word of its own. -/
def fixedTypes : List ColumnType :=
  [.ofKind "boolean", refined "number" "double", refined "number" "float",
    refined "year" "year(2)", .ofKind "year"]

/-- The types that a spelling with parameters or attributes is read as. -/
inductive OfSpelling (native spelling : String) : ColumnType → Prop where
  | number : OfSpelling native spelling (refined "number" (decimalFormat spelling))
  | sized {kind : String} (hkind : kind ∈ ["string", "varbinary", "binary"]) {n : Option Int}
      (hn : intParameter? spelling = .ok n) : OfSpelling native spelling (sized kind n)
  | integer {c : ColumnType} (h : integerOf? spelling = some c) : OfSpelling native spelling c
  | time {kind : String} (hkind : kind ∈ ["timestamp", "datetime", "time"]) {n : Option Int}
      (hn : intParameter? spelling = .ok n) :
      OfSpelling native spelling { ColumnType.ofKind kind with precision := n }
  | fixed {c : ColumnType} (h : c ∈ fixedTypes) : OfSpelling native spelling c
  | unknown : OfSpelling native spelling (.ofKind native)

theorem ofSpelling_of_timeOf? {native spelling : String} {c : ColumnType}
    (h : timeOf? spelling = .ok (some c)) : OfSpelling native spelling c := by
  unfold timeOf? at h
  split at h
  · rename_i kind hkind
    obtain ⟨n, hn, h⟩ := ok_of_bind h
    cases h
    exact .time (List.mem_of_find?_eq_some hkind) hn
  · cases h

/-- A spelling with parameters or attributes is read as one of these types. -/
theorem ofSpelling_cases {native spelling : String} {c : ColumnType}
    (h : ofSpelling native spelling = .ok c) : OfSpelling native spelling c := by
  have hsized : ∀ {kind}, kind ∈ ["string", "varbinary", "binary"] →
      (do return NativeType.sized kind (← intParameter? spelling)) = Except.ok c →
      OfSpelling native spelling c := by
    intro kind hkind h
    obtain ⟨n, hn, h⟩ := ok_of_bind h
    cases h
    exact .sized hkind hn
  unfold ofSpelling at h
  dsimp only at h
  split at h
  · cases h
    exact .number
  split at h
  · exact hsized (by decide) h
  split at h
  · exact hsized (by decide) h
  split at h
  · exact hsized (by decide) h
  split at h
  · cases h
    exact .fixed (by simp [fixedTypes])
  split at h
  · rename_i column hcolumn
    cases h
    exact .integer hcolumn
  split at h
  · cases h
    exact .fixed (by simp [fixedTypes])
  split at h
  · cases h
    exact .fixed (by simp [fixedTypes])
  obtain ⟨found, hfound, h⟩ := ok_of_bind h
  cases found with
  | some column =>
    cases h
    exact ofSpelling_of_timeOf? hfound
  | none =>
    dsimp only at h
    split at h
    · cases h
      refine .fixed ?_
      split <;> simp [fixedTypes]
    · cases h
      exact .unknown

/-! ## How types are written -/

/-- The words in front of parameters; no spelling with a parameter has a meaning of its own. -/
theorem of_mem_words {word : String} (h : word ∈ ["decimal", "varchar", "varbinary", "binary",
    "timestamp", "datetime", "time"]) :
    isWord word ∧ ∀ key ∈ exact.keys, Text.startsWith (word ++ "(") key = false := by
  revert word
  decide

theorem ofNative_spelled {word spelling : String} {part : List Char}
    (h : Spelled word part "" spelling) (hword : word ∈ ["decimal", "varchar", "varbinary", "binary",
      "timestamp", "datetime", "time"]) (hpart : IsPart part) :
    ofNative spelling = ofSpelling spelling spelling := by
  obtain ⟨hisWord, hkeys⟩ := of_mem_words hword
  simp only [ofNative, h.normalize_eq hisWord (by decide) hpart, h.get?_eq_none hkeys]

theorem settles_number {spelling : String} (hlower : ∀ c ∈ spelling.toList, Text.IsLowered c) :
    Settles (refined "number" (decimalFormat spelling)) := by
  rcases decimalFormat_cases spelling with hformat | ⟨part, hformat, hne, hspace, hclosed, htrim, hsub⟩
  · rw [hformat]
    exact .of_test (by decide)
  · rw [hformat]
    have hpart : IsPart part := ⟨hclosed, fun c hc => hlower c (hsub hc), htrim⟩
    have hnative : toNative (refined "number" ("decimal(" ++ String.ofList part ++ ")")) =
        .ok ("decimal" ++ parenthesised ("decimal(" ++ String.ofList part ++ ")")) := by
      simp [refined, ColumnType.ofKind, toNative, numberNative, isExactFormat_decimal]
    have h := spelled_parenthesised "decimal" part
    refine ⟨_, hnative, ?_⟩
    rw [IsSettled, ofNative_spelled h (by decide) hpart]
    simp only [ofSpelling, startsWithAny, h.startsWith_eq,
      h.decimalFormat_eq (by decide) hpart hne hspace]
    exact hnative

/-- The types that are written as a word and a number. -/
def numbered (n : Int) : List (String × ColumnType) :=
  [("varchar", sized "string" n), ("varbinary", sized "varbinary" n), ("binary", sized "binary" n)] ++
    ["timestamp", "datetime", "time"].map fun kind =>
      (kind, { ColumnType.ofKind kind with precision := n })

/-- A word and a number are read as the type that is written so. -/
theorem ofNative_withParameter {word : String} {c : ColumnType} {n : Nat}
    (hn : n < 10 ^ Integer.digitLimit) (h : (word, c) ∈ numbered n) :
    ofNative (withParameter word (toString n)) = .ok c := by
  have hspelled := spelled_withParameter word n
  simp only [numbered, List.map_cons, List.map_nil, List.cons_append, List.nil_append,
    List.mem_cons, Prod.mk.injEq, List.not_mem_nil, or_false] at h
  rcases h with ⟨rfl, rfl⟩ | ⟨rfl, rfl⟩ | ⟨rfl, rfl⟩ | ⟨rfl, rfl⟩ | ⟨rfl, rfl⟩ | ⟨rfl, rfl⟩
  all_goals
    rw [ofNative_spelled hspelled (by decide) (isPart_toDigits n)]
    simp only [ofSpelling, startsWithAny, integerOf?, timeOf?, hspelled.startsWith_eq,
      hspelled.intParameter?_eq (by decide) hn]
    rfl

/-- A type that is written as a word and a number is read from that. -/
theorem settles_withNumber {word : String} {c : ColumnType} {n : Nat}
    (hn : n < 10 ^ Integer.digitLimit) (h : (word, c) ∈ numbered n)
    (hnative : toNative c = withNumber word n) : Settles c := by
  rw [withNumber_natCast hn] at hnative
  refine ⟨_, hnative, ?_⟩
  rw [IsSettled, ofNative_withParameter hn h]
  exact hnative

theorem tiered_mem (length : Int) (tiers : List (Int × String)) (largest : String) :
    tiered length tiers largest ∈ largest :: tiers.map Prod.snd := by
  unfold tiered
  split
  · rename_i limit name hfind
    exact List.mem_cons_of_mem _ (List.mem_map_of_mem (List.mem_of_find?_eq_some hfind))
  · exact List.mem_cons_self

/-- A type with a length is written with it or as one of few words. -/
theorem sizedNative_cases (word : String) (n : Option Int) (tiers : List (Int × String))
    (largest unsized : String) :
    (∃ tier ∈ unsized :: largest :: tiers.map Prod.snd,
        sizedNative word n tiers largest unsized = .ok tier) ∨
      ∃ m, nonZero? n = some m ∧ sizedNative word n tiers largest unsized = withNumber word m := by
  unfold sizedNative
  split
  · rename_i m hm
    split
    · exact .inr ⟨m, hm, rfl⟩
    · exact .inl ⟨_, List.mem_cons_of_mem _ (tiered_mem _ _ _), rfl⟩
  · exact .inl ⟨_, List.mem_cons_self, rfl⟩

theorem settles_sizedNative {spelling kind word largest unsized : String} {n : Option Int}
    {tiers : List (Int × String)} (hn : intParameter? spelling = .ok n)
    (hnative : toNative (sized kind n) = sizedNative word n tiers largest unsized)
    (hword : ∀ m, (word, sized kind (some m)) ∈ numbered m)
    (htiers : ∀ s ∈ unsized :: largest :: tiers.map Prod.snd, isSettled s = true) :
    Settles (sized kind n) := by
  rcases sizedNative_cases word n tiers largest unsized with ⟨tier, hmem, htier⟩ | ⟨k, hk, hnumber⟩
  · exact ⟨tier, hnative.trans htier, .of_test (htiers tier hmem)⟩
  · rcases nonZero?_of_intParameter? hn with hnone | ⟨m, rfl, hm, hlt⟩
    · rw [hnone] at hk
      cases hk
    · obtain rfl := Option.some.inj (hm.symm.trans hk)
      exact settles_withNumber hlt (hword m) (hnative.trans hnumber)

theorem settles_sized {spelling kind : String} {n : Option Int}
    (hkind : kind ∈ ["string", "varbinary", "binary"]) (hn : intParameter? spelling = .ok n) :
    Settles (sized kind n) := by
  simp only [List.mem_cons, List.not_mem_nil, or_false] at hkind
  rcases hkind with rfl | rfl | rfl
  · exact settles_sizedNative hn (rfl : _ = sizedNative "varchar" n
      [(65535, "text"), (16777215, "mediumtext")] "longtext" "text")
      (fun m => by simp [numbered]) (by decide)
  · have hnative : toNative (sized "varbinary" n) =
        withNumber "varbinary" ((nonZero? n).getD lengthLimit) := rfl
    rcases nonZero?_of_intParameter? hn with hnone | ⟨m, rfl, hm, hlt⟩
    · have hdefault : toNative (sized "varbinary" n) = .ok "varbinary(255)" := by
        rw [hnative, hnone]
        exact ok_of_toOption (by decide)
      exact ⟨_, hdefault, .of_test (by decide)⟩
    · rw [hm] at hnative
      exact settles_withNumber hlt (by simp [numbered]) hnative
  · exact settles_sizedNative hn (rfl : _ = sizedNative "binary" n
      [(65535, "blob"), (16777215, "mediumblob")] "longblob" "blob")
      (fun m => by simp [numbered]) (by decide)

theorem settles_time {spelling kind : String} {n : Option Int}
    (hkind : kind ∈ ["timestamp", "datetime", "time"]) (hn : intParameter? spelling = .ok n) :
    Settles { ColumnType.ofKind kind with precision := n } := by
  have hnative : toNative { ColumnType.ofKind kind with precision := n } = withPrecision kind n := by
    simp only [List.mem_cons, List.not_mem_nil, or_false] at hkind
    rcases hkind with rfl | rfl | rfl <;> rfl
  have hplain : ∀ kind ∈ ["timestamp", "datetime", "time"], isSettled kind = true := by
    decide
  rcases nonZero?_of_intParameter? hn with hnone | ⟨m, rfl, hm, hlt⟩
  · rw [withPrecision, hnone] at hnative
    exact ⟨kind, hnative, .of_test (hplain kind hkind)⟩
  · rw [withPrecision, hm] at hnative
    exact settles_withNumber hlt (List.mem_append_right _ (List.mem_map_of_mem hkind)) hnative

/-- A kind is written as it stands, or as a spelling that is settled, but for two kinds that are
written as attributes and as text. -/
theorem toNative_ofKind {kind : String} (hserial : kind ≠ "serial") (huuid : kind ≠ "uuid") :
    toNative (.ofKind kind) = .ok kind ∨ Settles (.ofKind kind) := by
  rw [Settles, ColumnType.ofKind, toNative.eq_def]
  dsimp only
  split
  case h_4 => exact absurd rfl hserial
  case h_10 => exact absurd rfl huuid
  all_goals first | exact .inl rfl | exact .inr ⟨_, rfl, .of_test (by decide)⟩

theorem settles_exact : ∀ entry ∈ exact, settles entry.2 = true := by
  decide +kernel

theorem settles_fixed : ∀ c ∈ fixedTypes, settles c = true := by
  decide

/-- What is read is written, as a spelling that is written as it was read. -/
theorem settles_of_ofNative {native : String} {c : ColumnType} (hserial : native ≠ "serial")
    (huuid : native ≠ "uuid") (h : ofNative native = .ok c) : Settles c := by
  have hread := h
  unfold ofNative at h
  dsimp only at h
  split at h
  · rename_i column hexact
    cases h
    have hsettles : settles c = true := settles_exact (_, c) (Entries.mem_of_get? hexact)
    exact .of_test hsettles
  · cases ofSpelling_cases h with
    | number => exact settles_number fun _ => isLowered_of_mem_normalize
    | sized hkind hn => exact settles_sized hkind hn
    | integer hinteger => exact .of_test (settles_integer hinteger)
    | time hkind hn => exact settles_time hkind hn
    | fixed hfixed => exact .of_test (settles_fixed c hfixed)
    | unknown =>
      rcases toNative_ofKind hserial huuid with hkind | hsettles
      · refine ⟨native, hkind, ?_⟩
        rw [IsSettled, hread]
        exact hkind
      · exact hsettles

end TableOps.NativeType.Mysql
