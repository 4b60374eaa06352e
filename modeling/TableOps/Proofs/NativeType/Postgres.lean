import TableOps.NativeType.Postgres
import TableOps.Proofs.Entries
import TableOps.Proofs.NativeType.Parameter

/-!
# Spellings of PostgreSQL

A spelling that was written is written as it is when it is read. An array type is read and written as
its items are and keeps its suffixes, so this has to be shown for items alone: what they are written
as has no suffix of its own and no blanks around it.

* `Postgres.IsSettled` — a spelling of an item that is written as it was read; `Postgres.Settles`, a
  type that is written as such a spelling.
* `Postgres.OfSpelling` — what a spelling with parameters or attributes is read as;
  `Postgres.ofSpelling_cases`, it is read as nothing else.
* `Postgres.settles_number`, `Postgres.settles_string`, `Postgres.settles_time` — how this is written.
* `Postgres.peel_base`, `Postgres.peel_brackets`, `Postgres.peel_append_blanks` — the suffixes of a
  text.
* `Postgres.toNative_of_ofNative` — an array type is read and written as its items are.

Main statements: `Postgres.written_again`, what was written is written again; `Postgres.written_array`,
an array suffix that is added is kept.
-/

namespace TableOps.NativeType.Postgres

/-- A spelling that is written as it was read, and to which array suffixes can be added: it has no
blanks around it and does not end like one. -/
structure IsSettled (spelling : String) : Prop where
  written : (itemOfNative spelling >>= toNative) = .ok spelling
  head : ∀ c, spelling.toList.head? = some c → Text.isBlank c = false
  last : ∀ c, spelling.toList.getLast? = some c → Text.isBlank c = false ∧ c ≠ ']'

/-- A type that is written as such a spelling. -/
def Settles (c : ColumnType) : Prop :=
  ∃ spelling, toNative c = .ok spelling ∧ IsSettled spelling

/-- `IsSettled` as a test. -/
def isSettled (spelling : String) : Bool :=
  (itemOfNative spelling >>= toNative).toOption == some spelling &&
    spelling.toList.head?.all (!Text.isBlank ·) &&
      spelling.toList.getLast?.all fun c => !Text.isBlank c && c != ']'

/-- `Settles` as a test. -/
def settles (c : ColumnType) : Bool :=
  (toNative c).toOption.any isSettled

namespace IsSettled

theorem of_test {spelling : String} (h : isSettled spelling = true) : IsSettled spelling := by
  simp only [isSettled, Bool.and_eq_true, beq_iff_eq, Option.all_eq_true, Bool.not_eq_true',
    bne_iff_ne] at h
  exact ⟨ok_of_toOption h.1.1, h.1.2, h.2⟩

end IsSettled

namespace Settles

theorem of_test {c : ColumnType} (h : settles c = true) : Settles c := by
  obtain ⟨spelling, hspelling, hsettled⟩ := (Option.any_eq_true _ _).mp h
  exact ⟨spelling, ok_of_toOption hspelling, .of_test hsettled⟩

/-- A type that is read from its own spelling. -/
theorem of_spelled {c : ColumnType} {word tail spelling : String} {part : List Char}
    (h : Spelled word part tail spelling) (hword : isWord word) (htail : isTail tail)
    (hnative : toNative c = .ok spelling) (hread : itemOfNative spelling = .ok c) : Settles c := by
  obtain ⟨hhead, hlast⟩ := h.of_ends hword htail
  refine ⟨spelling, hnative, ?_, hhead, hlast⟩
  rw [hread]
  exact hnative

end Settles

/-! ## What spellings are read as -/

/-- The types that a spelling with parameters or attributes is read as. -/
inductive OfSpelling (native spelling : String) : ColumnType → Prop where
  | number : OfSpelling native spelling (refined "number" (decimalFormat spelling))
  | string {n : Option Int} (hn : intParameter? spelling = .ok n) :
      OfSpelling native spelling (sized "string" n)
  | time {kind : String} (hkind : kind ∈ ["timestamp", "time"]) {n : Option Int}
      (hn : intParameter? spelling = .ok n) {zone : Option Bool}
      (hzone : zone = none ∨ zone = some true) :
      OfSpelling native spelling
        { ColumnType.ofKind kind with precision := n, withTimeZone := zone }
  | unknown : OfSpelling native spelling (.ofKind native)

/-- A spelling with parameters or attributes is read as one of these types. -/
theorem ofSpelling_cases {native spelling : String} {c : ColumnType}
    (h : ofSpelling native spelling = .ok c) : OfSpelling native spelling c := by
  unfold ofSpelling at h
  dsimp only at h
  split at h
  · cases h
    exact .number
  · split at h
    · obtain ⟨n, hn, h⟩ := ok_of_bind h
      cases h
      exact .string hn
    · obtain ⟨found, hfound, h⟩ := ok_of_bind h
      cases found with
      | none =>
        cases h
        exact .unknown
      | some column =>
        cases h
        unfold timeOf? at hfound
        split at hfound
        · rename_i kind hkind
          obtain ⟨n, hn, h⟩ := ok_of_bind hfound
          cases h
          refine .time (List.mem_of_find?_eq_some hkind) hn ?_
          split
          · exact .inr rfl
          · exact .inl rfl
        · cases hfound

/-- The words in front of parameters; no spelling with a parameter has a meaning of its own. -/
theorem of_mem_words {word : String} (h : word ∈ ["numeric", "varchar", "timestamp", "time"]) :
    isWord word ∧ ∀ key ∈ exact.keys, Text.startsWith (word ++ "(") key = false := by
  revert word
  decide

theorem itemOfNative_spelled {word tail spelling : String} {part : List Char}
    (h : Spelled word part tail spelling) (hword : word ∈ ["numeric", "varchar", "timestamp", "time"])
    (htail : isTail tail) (hpart : IsPart part) :
    itemOfNative spelling = ofSpelling spelling spelling := by
  obtain ⟨hisWord, hkeys⟩ := of_mem_words hword
  simp only [itemOfNative, h.normalize_eq hisWord htail hpart, h.get?_eq_none hkeys]

theorem settles_number {spelling : String} (hlower : ∀ c ∈ spelling.toList, Text.IsLowered c) :
    Settles (refined "number" (decimalFormat spelling)) := by
  rcases decimalFormat_cases spelling with hformat | ⟨part, hformat, hne, hspace, hclosed, htrim, hsub⟩
  · rw [hformat]
    exact .of_test (by decide)
  · rw [hformat]
    have hpart : IsPart part := ⟨hclosed, fun c hc => hlower c (hsub hc), htrim⟩
    have hnative : toNative (refined "number" ("decimal(" ++ String.ofList part ++ ")")) =
        .ok ("numeric" ++ parenthesised ("decimal(" ++ String.ofList part ++ ")")) := by
      simp [refined, ColumnType.ofKind, toNative, numberNative, isExactFormat_decimal]
    have h := spelled_parenthesised "numeric" part
    refine .of_spelled h (by decide) (by decide) hnative ?_
    rw [itemOfNative_spelled h (by decide) (by decide) hpart]
    simp only [ofSpelling, startsWithAny, h.startsWith_eq,
      h.decimalFormat_eq (by decide) hpart hne hspace]
    rfl

theorem settles_string {spelling : String} {n : Option Int} (hn : intParameter? spelling = .ok n) :
    Settles (sized "string" n) := by
  have hnative : toNative (sized "string" n) =
      ((nonZero? n).filter (· ≤ lengthLimit)).elim (.ok "text") (withNumber "varchar") := by
    show textNative none n = _
    rw [textNative]
    cases (nonZero? n).filter (· ≤ lengthLimit) <;> rfl
  have htext : IsSettled "text" := .of_test (by decide)
  rcases nonZero?_of_intParameter? hn with hnone | ⟨m, rfl, hm, hlt⟩
  · rw [hnone] at hnative
    exact ⟨"text", hnative, htext⟩
  · rw [hm, Option.filter_some] at hnative
    by_cases hlimit : (m : Int) ≤ lengthLimit
    · rw [if_pos (by simpa using hlimit), Option.elim_some, withNumber_natCast hlt] at hnative
      have h := spelled_withParameter "varchar" m
      refine .of_spelled h (by decide) (by decide) hnative ?_
      rw [itemOfNative_spelled h (by decide) (by decide) (isPart_toDigits m)]
      simp only [ofSpelling, startsWithAny, h.startsWith_eq, h.intParameter?_eq (by decide) hlt]
      rfl
    · rw [if_neg (by simpa using hlimit)] at hnative
      exact ⟨"text", hnative, htext⟩

/-- What stands behind the parentheses of a time type. -/
def zoneTail (zone : Option Bool) : String :=
  if zone = some true then " with time zone" else " without time zone"

/-- The zone is read from behind the parentheses. -/
theorem holds_zone {kind spelling : String} {n : Nat} {zone : Option Bool}
    (h : Spelled kind (Nat.toDigits 10 n) (zoneTail zone) spelling)
    (hkind : kind ∈ ["timestamp", "time"]) :
    (Text.holds "with time zone" spelling && !Text.holds "without" spelling) =
      (zone == some true) := by
  have hdigits : ∀ text : String, 'w' ∈ text.toList →
      Text.contains text.toList (Nat.toDigits 10 n) = false := fun text hw =>
    Text.contains_eq_false hw fun hdigit => absurd (Decimal.isDecimal_of_mem hdigit) (by decide)
  have hword : Text.contains "with time zone".toList kind.toList = false ∧
      Text.contains "without".toList kind.toList = false := by
    clear h
    revert kind
    decide
  rw [h.holds_eq (by decide) (by decide),
    h.holds_eq (by decide) (by decide), hdigits _ (by decide),
    hdigits _ (by decide), hword.1, hword.2]
  unfold zoneTail
  by_cases hzone : zone = some true
  · rw [if_pos hzone, hzone]
    decide
  · rw [if_neg hzone, beq_eq_false_iff_ne.mpr hzone]
    decide

theorem timeOf?_spelled {kind spelling : String} {n : Nat} {zone : Option Bool}
    (h : Spelled kind (Nat.toDigits 10 n) (zoneTail zone) spelling)
    (hkind : kind ∈ ["timestamp", "time"]) (hn : n < 10 ^ Integer.digitLimit)
    (hzone : zone = none ∨ zone = some true) :
    timeOf? spelling =
      .ok (some { ColumnType.ofKind kind with precision := some n, withTimeZone := zone }) := by
  have hfind : (["timestamp", "time"].find? fun word => Text.startsWith word spelling) =
      some kind := by
    simp only [List.mem_cons, List.not_mem_nil, or_false] at hkind
    simp only [List.find?, h.startsWith_eq]
    rcases hkind with rfl | rfl <;> rfl
  have hword : isWord kind := by
    clear h hfind
    revert kind
    decide
  have hread : (if Text.holds "with time zone" spelling && !Text.holds "without" spelling then
      some true else none) = zone := by
    rw [holds_zone h hkind]
    rcases hzone with rfl | rfl <;> rfl
  simp only [timeOf?, hfind, h.intParameter?_eq hword hn, hread]
  rfl

/-- How a time type is written. -/
theorem toNative_time {kind : String} (hkind : kind ∈ ["timestamp", "time"]) (n : Option Int)
    (zone : Option Bool) :
    toNative { ColumnType.ofKind kind with precision := n, withTimeZone := zone } =
      (withPrecision kind n).map (· ++ zoneTail zone) := by
  simp only [List.mem_cons, List.not_mem_nil, or_false] at hkind
  rcases hkind with rfl | rfl <;> rfl

theorem settles_time {spelling kind : String} {n : Option Int} {zone : Option Bool}
    (hkind : kind ∈ ["timestamp", "time"]) (hn : intParameter? spelling = .ok n)
    (hzone : zone = none ∨ zone = some true) :
    Settles { ColumnType.ofKind kind with precision := n, withTimeZone := zone } := by
  have hnative := toNative_time hkind n zone
  rcases nonZero?_of_intParameter? hn with hnone | ⟨m, rfl, hm, hlt⟩
  · -- no precision is written
    rw [withPrecision, hnone] at hnative
    refine ⟨kind ++ zoneTail zone, hnative, ?_⟩
    simp only [List.mem_cons, List.not_mem_nil, or_false] at hkind
    rcases hkind with rfl | rfl <;> rcases hzone with rfl | rfl <;>
      exact .of_test (by decide)
  · have h := (spelled_withParameter kind m).append (zoneTail zone)
    rw [withPrecision, hm] at hnative
    dsimp only at hnative
    rw [withNumber_natCast hlt] at hnative
    have hmem : kind ∈ ["numeric", "varchar", "timestamp", "time"] :=
      List.mem_cons_of_mem _ (List.mem_cons_of_mem _ hkind)
    have htail : isTail (zoneTail zone) := by
      rcases hzone with rfl | rfl <;> decide
    refine .of_spelled h (of_mem_words hmem).1 htail hnative ?_
    rw [itemOfNative_spelled h hmem htail (isPart_toDigits m)]
    simp only [ofSpelling, startsWithAny, h.startsWith_eq, timeOf?_spelled h hkind hlt hzone]
    simp only [List.mem_cons, List.not_mem_nil, or_false] at hkind
    rcases hkind with rfl | rfl <;> rfl

/-- A kind is written as it stands, or as a spelling that is settled. -/
theorem toNative_ofKind (kind : String) :
    toNative (.ofKind kind) = .ok kind ∨ Settles (.ofKind kind) := by
  rw [Settles, ColumnType.ofKind, toNative.eq_def]
  dsimp only
  split
  all_goals first | exact .inl rfl | exact .inr ⟨_, rfl, .of_test (by decide)⟩

theorem settles_exact : ∀ entry ∈ exact, settles entry.2 = true := by
  decide +kernel

/-- An item is written as a spelling that is settled, or as it stands. -/
theorem written_of_itemOfNative {native : String} {c : ColumnType}
    (h : itemOfNative native = .ok c) : toNative c = .ok native ∨ Settles c := by
  unfold itemOfNative at h
  dsimp only at h
  split at h
  · rename_i column hexact
    cases h
    have hsettles : settles c = true := settles_exact (_, c) (Entries.mem_of_get? hexact)
    exact .inr (.of_test hsettles)
  · have hlower : ∀ c ∈ (normalize native).toList, Text.IsLowered c := fun _ =>
      isLowered_of_mem_normalize
    cases ofSpelling_cases h with
    | number => exact .inr (settles_number hlower)
    | string hn => exact .inr (settles_string hn)
    | time hkind hn hzone => exact .inr (settles_time hkind hn hzone)
    | unknown => exact toNative_ofKind native

/-! ## Array suffixes -/

theorem peel_suffix (rest : List Char) :
    peel (']' :: '[' :: rest) = ((peel rest).1 + 1, (peel rest).2) :=
  rfl

theorem peel_cons {c : Char} {rest : List Char} (hne : ∀ rest', c :: rest ≠ ']' :: '[' :: rest') :
    peel (c :: rest) =
      if Text.isBlank c ∧ (peel rest).1 ≠ 0 then peel rest else (0, c :: rest) := by
  rw [peel.eq_def]
  split
  · rename_i heq
    cases heq
  · rename_i heq
    exact absurd heq (hne _)
  · rename_i heq
    cases heq
    by_cases hc : Text.isBlank c
    · rw [if_pos hc]
      split
      · rename_i hbase
        rw [hbase, if_neg fun h => h.2 rfl]
      · rename_i hlayers
        rw [if_pos ⟨hc, fun hzero => hlayers _ (Prod.ext hzero rfl)⟩]
    · rw [if_neg hc, if_neg fun h => hc h.1]

/-- A blank does not close an array suffix. -/
theorem ne_suffix_of_isBlank {c : Char} (hc : Text.isBlank c) (rest rest' : List Char) :
    c :: rest ≠ ']' :: '[' :: rest' := by
  intro heq
  cases heq
  cases hc

/-- Blanks in front of a text, which is given from its end, stay in front of what is left. -/
theorem peel_append_blanks {blanks : List Char} (h : ∀ c ∈ blanks, Text.isBlank c) (cs : List Char) :
    peel (cs ++ blanks) = ((peel cs).1, (peel cs).2 ++ blanks) := by
  have hblanks : peel blanks = (0, blanks) := by
    induction blanks with
    | nil => rfl
    | cons c blanks ih =>
      obtain ⟨hc, hrest⟩ := List.forall_mem_cons.mp h
      rw [peel_cons (ne_suffix_of_isBlank hc _), ih hrest, if_neg fun h => h.2 rfl]
  fun_induction peel cs with
  | case1 => exact hblanks
  | case2 rest n base hbase ih =>
    rw [List.cons_append, List.cons_append, peel_suffix, ih, hbase]
  | case3 c rest _ hc base hbase ih =>
    rw [List.cons_append, peel_cons (ne_suffix_of_isBlank hc _), ih, hbase, if_neg fun h => h.2 rfl]
  | case4 c rest _ hc hlayers ih =>
    rw [List.cons_append, peel_cons (ne_suffix_of_isBlank hc _), ih,
      if_pos ⟨hc, fun hzero => hlayers _ (Prod.ext hzero rfl)⟩]
  | case5 c rest hsuffix hc =>
    refine (peel_cons fun rest' heq => ?_).trans (if_neg fun h => hc h.1)
    obtain ⟨rfl, hrest⟩ := List.cons.inj heq
    cases rest with
    | nil =>
      -- the opening bracket would be a blank
      have hopen : '[' ∈ blanks := by
        rw [show blanks = '[' :: rest' from hrest]
        exact List.mem_cons_self
      exact absurd (h '[' hopen) (by decide)
    | cons d rest => exact hsuffix rest rfl (by rw [(List.cons.inj hrest).1])

/-- What is left has no suffix. -/
theorem peel_base {cs base : List Char} {n : Nat} (h : peel cs = (n, base)) :
    peel base = (0, base) := by
  fun_induction peel cs generalizing n base with
  | case1 =>
    cases h
    rfl
  | case2 rest m base' hbase ih =>
    cases h
    exact ih hbase
  | case3 c rest _ hc base' hbase ih =>
    cases h
    rw [peel_cons (ne_suffix_of_isBlank hc _), hbase, if_neg fun h => h.2 rfl]
  | case4 c rest _ hc hlayers ih => exact ih h
  | case5 c rest hsuffix hc =>
    cases h
    exact (peel_cons fun rest' heq => hsuffix _ (List.cons.inj heq).1 (List.cons.inj heq).2).trans
      (if_neg fun h => hc h.1)

/-- A text without suffix is left as it is. -/
theorem peel_of_zero {cs : List Char} (h : (peel cs).1 = 0) : peel cs = (0, cs) := by
  fun_induction peel cs with
  | case1 => rfl
  | case2 rest m base hbase ih => cases h
  | case3 => rfl
  | case4 c rest _ hc hlayers ih => exact (hlayers _ (Prod.ext h rfl)).elim
  | case5 => rfl

/-- There is no suffix at the end of a text that ends in neither a blank nor a bracket. -/
theorem peel_eq_self {cs : List Char} (h : ∀ c, cs.head? = some c → Text.isBlank c = false ∧ c ≠ ']') :
    peel cs = (0, cs) := by
  cases cs with
  | nil => rfl
  | cons c cs =>
    obtain ⟨hblank, hclose⟩ := h c rfl
    rw [peel_cons fun rest' heq => hclose (List.cons.inj heq).1, hblank,
      if_neg fun h => Bool.false_ne_true h.1]

/-! ## Arrays -/

/-- Array suffixes. -/
def brackets (n : Nat) : List Char :=
  (List.replicate n ['[', ']']).flatten

theorem brackets_succ (n : Nat) : brackets (n + 1) = brackets n ++ ['[', ']'] := by
  simp [brackets, List.replicate_succ']

theorem peel_brackets (n : Nat) (rest : List Char) :
    peel ((brackets n).reverse ++ rest) = ((peel rest).1 + n, (peel rest).2) := by
  induction n with
  | zero => rfl
  | succ n ih =>
    have hcons : (brackets (n + 1)).reverse ++ rest =
        ']' :: '[' :: ((brackets n).reverse ++ rest) := by
      rw [brackets_succ, List.reverse_append]
      rfl
    rw [hcons, peel_suffix, ih, Nat.add_assoc]

/-- A spelling with array suffixes. -/
def bracketed (n : Nat) (spelling : String) : String :=
  String.ofList (spelling.toList ++ brackets n)

theorem bracketed_succ (n : Nat) (spelling : String) :
    bracketed (n + 1) spelling = bracketed n spelling ++ "[]" := by
  rw [bracketed, bracketed, brackets_succ, ← List.append_assoc, String.ofList_append]

theorem toNative_nested (n : Nat) (c : ColumnType) :
    toNative (nested n c) = (toNative c).map (bracketed n) := by
  induction n with
  | zero =>
    have hself : bracketed 0 = id := funext fun s => by simp [bracketed, brackets]
    rw [nested, hself]
    cases toNative c <;> rfl
  | succ n ih =>
    have hstep : toNative (nested (n + 1) c) = (toNative (nested n c)).map (· ++ "[]") := rfl
    rw [hstep, ih]
    cases toNative c with
    | error f => rfl
    | ok spelling => exact congrArg Except.ok (bracketed_succ n spelling).symm

/-- The item that is left of an array type, without blanks in front, or of any other type. -/
def itemOf : Nat × List Char → List Char
  | (layers, base) => if layers = 0 then base.reverse else Text.trimFront base.reverse

theorem peel_itemOf {n : Nat} {base : List Char} (h : peel base = (0, base)) :
    peel (itemOf (n, base)).reverse = (0, (itemOf (n, base)).reverse) := by
  rw [itemOf]
  split
  · rw [List.reverse_reverse, h]
  · obtain ⟨blanks, hblanks, hbase⟩ := Text.exists_trimFront base.reverse
    have hreverse : base = (Text.trimFront base.reverse).reverse ++ blanks.reverse := by
      rw [← List.reverse_append, ← hbase, List.reverse_reverse]
    have hblanks' : ∀ c ∈ blanks.reverse, Text.isBlank c := fun c hc =>
      hblanks c (List.mem_reverse.mp hc)
    have hlayers := peel_append_blanks hblanks' (Text.trimFront base.reverse).reverse
    rw [← hreverse, h] at hlayers
    exact peel_of_zero (Prod.ext_iff.mp hlayers).1.symm

/-- A spelling is read as its item is. -/
theorem ofNative_eq {native : String} {n : Nat} {base : List Char}
    (h : peel native.toList.reverse = (n, base)) :
    ofNative native = (itemOfNative (String.ofList (itemOf (n, base)))).map (nested n) := by
  simp only [ofNative, h, itemOf]

/-- A spelling is read and written as its item is, and keeps its array suffixes. -/
theorem toNative_of_ofNative {native : String} {n : Nat} {base : List Char}
    (h : peel native.toList.reverse = (n, base)) :
    (ofNative native >>= toNative) =
      (itemOfNative (String.ofList (itemOf (n, base))) >>= toNative).map (bracketed n) := by
  rw [ofNative_eq h]
  cases itemOfNative (String.ofList (itemOf (n, base))) with
  | error e => rfl
  | ok c => exact toNative_nested n c

/-- What was read can be written. -/
theorem exists_toNative_of_ofNative {native : String} {c : ColumnType} (h : ofNative native = .ok c) :
    ∃ spelling, toNative c = .ok spelling := by
  obtain ⟨⟨n, base⟩, hpeel⟩ : ∃ layers, peel native.toList.reverse = layers := ⟨_, rfl⟩
  rw [ofNative_eq hpeel] at h
  obtain ⟨item, hitem, rfl⟩ := ok_of_map h
  obtain ⟨written, hwritten⟩ : ∃ written, toNative item = .ok written := by
    rcases written_of_itemOfNative hitem with heq | ⟨written, heq, -⟩
    · exact ⟨_, heq⟩
    · exact ⟨written, heq⟩
  exact ⟨bracketed n written, by rw [toNative_nested, hwritten, Except.map]⟩

/-- A spelling that was written is written as it was read. -/
theorem written_again {native written : String}
    (h : (ofNative native >>= toNative) = .ok written) :
    (ofNative written >>= toNative) = .ok written := by
  obtain ⟨⟨n, base⟩, hpeel⟩ : ∃ layers, peel native.toList.reverse = layers := ⟨_, rfl⟩
  rw [toNative_of_ofNative hpeel] at h
  obtain ⟨item, hitem, rfl⟩ := ok_of_map h
  obtain ⟨c, hc, hnative⟩ := ok_of_bind hitem
  have hbase := peel_base hpeel
  have hfixed : (itemOfNative item >>= toNative) = .ok item ∧
      peel item.toList.reverse = (0, item.toList.reverse) ∧
      (n ≠ 0 → Text.trimFront item.toList = item.toList) := by
    rcases written_of_itemOfNative hc with heq | ⟨spelling, heq, hsettled⟩
    · obtain rfl := Except.ok.inj (heq.symm.trans hnative)
      rw [hc, String.toList_ofList]
      refine ⟨heq, peel_itemOf hbase, fun hn => ?_⟩
      rw [itemOf, if_neg hn, Text.trimFront_trimFront]
    · obtain rfl := Except.ok.inj (heq.symm.trans hnative)
      refine ⟨hsettled.written, peel_eq_self fun c hc => ?_, fun _ => Text.trimFront_eq_self hsettled.head⟩
      exact hsettled.last c (by rwa [List.head?_reverse] at hc)
  obtain ⟨hwritten, hlast, hfront⟩ := hfixed
  have hagain : peel (bracketed n item).toList.reverse = (n, item.toList.reverse) := by
    rw [bracketed, String.toList_ofList, List.reverse_append, peel_brackets, hlast, Nat.zero_add]
  have hself : itemOf (n, item.toList.reverse) = item.toList := by
    rw [itemOf, List.reverse_reverse]
    split
    · rfl
    · exact hfront ‹_›
  rw [toNative_of_ofNative hagain, hself, String.ofList_toList, hwritten]
  rfl

/-- An array suffix that is added is kept, and blanks in front of the items are not. -/
theorem written_array (native : String) :
    (ofNative (native ++ "[]") >>= toNative) =
      (ofNative (String.ofList (Text.trimFront native.toList)) >>= toNative).map (· ++ "[]") := by
  obtain ⟨blanks, hblanks, hnative⟩ := Text.exists_trimFront native.toList
  generalize hitems : Text.trimFront native.toList = items at hnative
  obtain ⟨⟨n, base⟩, hpeel⟩ : ∃ layers, peel items.reverse = layers := ⟨_, rfl⟩
  have harray : peel (native ++ "[]").toList.reverse = (n + 1, base ++ blanks.reverse) := by
    have hreverse : (native ++ "[]").toList.reverse =
        ']' :: '[' :: (items.reverse ++ blanks.reverse) := by
      rw [String.toList_append, hnative, ← List.reverse_append, List.reverse_append]
      rfl
    rw [hreverse, peel_suffix, peel_append_blanks fun c hc => hblanks c (List.mem_reverse.mp hc),
      hpeel]
  have hitem : itemOf (n + 1, base ++ blanks.reverse) = itemOf (n, base) := by
    have hfront : itemOf (n + 1, base ++ blanks.reverse) = Text.trimFront base.reverse := by
      rw [itemOf, if_neg n.succ_ne_zero, List.reverse_append, List.reverse_reverse,
        Text.trimFront_append hblanks]
    rw [hfront, itemOf]
    split
    · -- without suffix the items are the whole text, whose blanks are gone
      rename_i hzero
      have hbase := peel_of_zero (by rw [hpeel, hzero] : (peel items.reverse).1 = 0)
      rw [hpeel, Prod.mk.injEq] at hbase
      rw [hbase.2, List.reverse_reverse, ← hitems, Text.trimFront_trimFront]
    · rfl
  have hself : peel (String.ofList items).toList.reverse = (n, base) := by
    rw [String.toList_ofList, hpeel]
  rw [toNative_of_ofNative harray, toNative_of_ofNative hself, hitem]
  cases itemOfNative (String.ofList (itemOf (n, base))) >>= toNative with
  | error e => rfl
  | ok item => exact congrArg Except.ok (bracketed_succ n item)

end TableOps.NativeType.Postgres
