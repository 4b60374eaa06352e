import TableOps.Proofs.NativeType.Postgres
import TableOps.Proofs.Text.Stretches

/-!
# Spellings of time types on PostgreSQL

PostgreSQL takes the time types in many spellings: with a precision or without, with the words of the
zone behind it or with the zone in the name, in any letter case, with any blanks between the words, and
with array suffixes. Their precision and suffixes are always found, but their zone is found only in
some of them.

* `TimeSpelling` — such a spelling; `TimeSpelling.Spells`, the texts that are spelled like it.
* `TimeSpelling.isZoned`, `TimeSpelling.zoneFound` — it has a time zone, and this is found.
* `Postgres.peel_layers`, `Postgres.peel_map_foldChar` — array suffixes with blanks between them, in
  any letter case.
* `TimeSpelling.ofNative_eq` — a spelling is read as its item is, under its layers.
* `TimeSpelling.zone_item`, `TimeSpelling.intParameter?_item` — the zone and the precision of an item.

Main statement: `TimeSpelling.time_read_iff`, a spelling is read as the time type it stands for exactly
when its zone is found.
-/

namespace TableOps.NativeType.Postgres

/-- What is said of the characters of a list is decided by going through the list, where another
instance goes through all characters. -/
local instance decidableForallMem (cs : List Char) (p : Char → Prop) [DecidablePred p] :
    Decidable (∀ c ∈ cs, p c) :=
  List.decidableBAll p cs

/-! ## Spellings -/

/-- The blanks between the words of a type. -/
def isTypeBlank (c : Char) : Bool :=
  [' ', '\t', '\n', '\r', '\x0b', '\x0c'].contains c

/-- A run of blanks, perhaps an empty one. -/
structure Blanks where
  chars : List Char
  blank : ∀ c ∈ chars, isTypeBlank c = true

/-- A precision in parentheses, with the blanks in front of them and inside. -/
structure Precision where
  lead : Blanks
  front : Blanks
  digits : List Char
  nonempty : digits ≠ []
  decimal : ∀ c ∈ digits, Url.isDecimal c = true
  back : Blanks

/-- The words that say whether there is a time zone, with the blanks in front of each. -/
structure ZonePhrase where
  zoned : Bool
  lead : Blanks
  middle : Blanks
  middle_nonempty : middle.chars ≠ []
  last : Blanks
  last_nonempty : last.chars ≠ []

/-- How a spelling says whether there is a time zone: not at all, in the name of the type, or in words
at the end. -/
inductive Zone where
  | unsaid
  | named
  | said (phrase : ZonePhrase)

/-- A spelling of a time type. -/
structure TimeSpelling where
  /-- a timestamp, or a time of day -/
  stamped : Bool
  precision : Option Precision
  zone : Zone
  /-- the words of the zone stand apart from the name of the type -/
  apart : ∀ phrase, zone = .said phrase → precision = none → phrase.lead.chars ≠ []
  /-- the blanks in front of each array suffix -/
  layers : List Blanks
  front : Blanks
  back : Blanks

def Precision.chars (p : Precision) : List Char :=
  p.lead.chars ++ '(' :: (p.front.chars ++ p.digits ++ p.back.chars ++ [')'])

def ZonePhrase.chars (z : ZonePhrase) : List Char :=
  z.lead.chars ++ (if z.zoned then "with" else "without").toList ++ z.middle.chars ++ "time".toList ++
    z.last.chars ++ "zone".toList

/-- What the zone adds to the name of the type. -/
def Zone.suffix : Zone → List Char
  | .named => ['t', 'z']
  | _ => []

/-- The words of the zone. -/
def Zone.words : Zone → List Char
  | .said phrase => phrase.chars
  | _ => []

namespace TimeSpelling

variable (sp : TimeSpelling)

/-- The kind of the type, and the word it is spelled with. -/
def kind : String :=
  if sp.stamped then "timestamp" else "time"

/-- The characters of the type without its array suffixes, up to the words of the zone. -/
def head : List Char :=
  sp.kind.toList ++ sp.zone.suffix ++ sp.precision.elim [] Precision.chars

/-- The characters of the type without its array suffixes. -/
def item : List Char :=
  sp.head ++ sp.zone.words

/-- The characters of the spelling in lower case. -/
def chars : List Char :=
  sp.front.chars ++ sp.item ++ sp.layers.flatMap (fun gap => gap.chars ++ ['[', ']']) ++ sp.back.chars

/-- A text is spelled like this, in any letter case. -/
def Spells (native : String) : Prop :=
  (Text.fold native).toList = sp.chars

instance (native : String) : Decidable (sp.Spells native) :=
  inferInstanceAs (Decidable (_ = _))

/-- The precision that is written. -/
def number : Option Int :=
  sp.precision.map fun p => (Url.numberOf p.digits : Int)

/-- The precision is one that can be read: it has at most as many digits as a number may have. -/
def Readable : Prop :=
  ∀ p, sp.precision = some p → p.digits.length ≤ Integer.digitLimit

/-- The spelling says that there is a time zone. -/
def isZoned : Bool :=
  match sp.zone with
  | .unsaid => false
  | .named => true
  | .said phrase => phrase.zoned

/-- The time zone is found in the words: one space stands between any two of them. -/
def wordsFound : Bool :=
  match sp.zone with
  | .said phrase => phrase.zoned && phrase.middle.chars == [' '] && phrase.last.chars == [' ']
  | _ => false

/-- The type is spelled with its short name alone, which says that there is a time zone. -/
def isShortName : Bool :=
  match sp.zone with
  | .named => sp.stamped && sp.precision.isNone
  | _ => false

/-- The time zone is found: in words with one space between any two of them, or in the name of a
timestamp without precision. -/
def zoneFound : Bool :=
  sp.wordsFound || sp.isShortName

/-- The type that the item is read as. -/
def itemRead : ColumnType :=
  { ColumnType.ofKind sp.kind with
    precision := sp.number, withTimeZone := if sp.zoneFound then some true else none }

end TimeSpelling

/-- A written type says that there is a time zone. -/
def saysZone (native : String) : Prop :=
  Text.holds "with time zone" native = true

/-- What a spelling of a time type stands for: the kind with its precision and its zone, under the
array layers, which is written with a zone or without one as it was. -/
structure TimeSpelling.StandsFor (sp : TimeSpelling) (c : ColumnType) : Prop where
  read : ∃ item, c = nested sp.layers.length item ∧ item.kind = sp.kind ∧
    item.precision = sp.number ∧ (item.withTimeZone = some true ↔ sp.isZoned = true)
  written : ∃ spelling, toNative c = .ok spelling ∧ (saysZone spelling ↔ sp.isZoned = true)

/-! ## Characters of a spelling -/

/-- A blank, a digit, or one of some other characters. -/
def isSpelledWith (others : List Char) (c : Char) : Bool :=
  isTypeBlank c || Url.isDecimal c || others.contains c

theorem of_isTypeBlank {c : Char} (h : isTypeBlank c = true) :
    Text.isBlank c = true ∧ c.toNat < 128 := by
  have hall : ∀ d ∈ [' ', '\t', '\n', '\r', '\x0b', '\x0c'], Text.isBlank d = true ∧ d.toNat < 128 := by
    decide
  exact hall c (List.contains_iff_mem.mp h)

theorem isSpelledWith_mono {others others' : List Char} {c : Char} (h : isSpelledWith others c = true)
    (hsubset : others ⊆ others') : isSpelledWith others' c = true := by
  simp only [isSpelledWith, Bool.or_eq_true, List.contains_iff_mem] at h ⊢
  exact h.imp_right fun hmem => hsubset hmem

theorem ascii_of_isSpelledWith {others : List Char} {c : Char} (hothers : ∀ d ∈ others, d.toNat < 128)
    (h : isSpelledWith others c = true) : c.toNat < 128 := by
  simp only [isSpelledWith, Bool.or_eq_true, List.contains_iff_mem] at h
  rcases h with (hblank | hdigit) | hother
  · exact (of_isTypeBlank hblank).2
  · exact Decimal.toNat_of_isDecimal hdigit
  · exact hothers c hother

namespace Blanks

theorem isBlank (b : Blanks) : ∀ c ∈ b.chars, Text.isBlank c = true := fun c hc =>
  (of_isTypeBlank (b.blank c hc)).1

theorem isSpelledWith (b : Blanks) (others : List Char) :
    ∀ c ∈ b.chars, isSpelledWith others c = true := fun c hc => by
  rw [Postgres.isSpelledWith, b.blank c hc, Bool.true_or, Bool.true_or]

end Blanks

theorem Precision.isSpelledWith (p : Precision) : ∀ c ∈ p.chars, isSpelledWith ['(', ')'] c = true := by
  have hdigits : ∀ c ∈ p.digits, Postgres.isSpelledWith ['(', ')'] c = true := fun c hc => by
    rw [Postgres.isSpelledWith, p.decimal c hc, Bool.or_true, Bool.true_or]
  simp only [Precision.chars, List.forall_mem_append, List.forall_mem_cons]
  exact ⟨p.lead.isSpelledWith _, by decide, ⟨⟨p.front.isSpelledWith _, hdigits⟩, p.back.isSpelledWith _⟩,
    by decide, by simp⟩

theorem ZonePhrase.isSpelledWith (z : ZonePhrase) :
    ∀ c ∈ z.chars, isSpelledWith "withoutimezone".toList c = true := by
  have hword : ∀ word ∈ ["with", "without", "time", "zone"], ∀ c ∈ word.toList,
      Postgres.isSpelledWith "withoutimezone".toList c = true := by
    decide
  have hzoned : ∀ c ∈ (if z.zoned then "with" else "without").toList,
      Postgres.isSpelledWith "withoutimezone".toList c = true := by
    cases z.zoned <;> exact hword _ (by decide)
  simp only [ZonePhrase.chars, List.forall_mem_append]
  exact ⟨⟨⟨⟨⟨z.lead.isSpelledWith _, hzoned⟩, z.middle.isSpelledWith _⟩, hword _ (by decide)⟩,
    z.last.isSpelledWith _⟩, hword _ (by decide)⟩

namespace TimeSpelling

variable (sp : TimeSpelling)

/-- What stands behind the word of the type. -/
def tail : List Char :=
  sp.zone.suffix ++ sp.precision.elim [] Precision.chars ++ sp.zone.words

theorem item_eq : sp.item = sp.kind.toList ++ sp.tail := by
  simp only [item, head, tail, List.append_assoc]

theorem kind_mem : sp.kind ∈ ["timestamp", "time"] := by
  unfold kind
  cases sp.stamped <;> decide

theorem isSpelledWith_suffix : ∀ c ∈ sp.zone.suffix, isSpelledWith ['t', 'z'] c = true := by
  cases sp.zone with
  | unsaid | said => simp [Zone.suffix]
  | named => decide

theorem isSpelledWith_precision :
    ∀ c ∈ sp.precision.elim [] Precision.chars, isSpelledWith ['(', ')'] c = true := by
  cases sp.precision with
  | none => simp
  | some p => exact p.isSpelledWith

theorem isSpelledWith_words :
    ∀ c ∈ sp.zone.words, isSpelledWith "withoutimezone".toList c = true := by
  cases sp.zone with
  | unsaid | named => simp [Zone.words]
  | said z => exact z.isSpelledWith

theorem isSpelledWith_kind : ∀ c ∈ sp.kind.toList, isSpelledWith "timestamp".toList c = true := by
  unfold kind
  cases sp.stamped <;> decide

theorem isSpelledWith_head : ∀ c ∈ sp.head, isSpelledWith "timestampz()".toList c = true := by
  simp only [head, List.forall_mem_append]
  exact ⟨⟨fun c hc => isSpelledWith_mono (sp.isSpelledWith_kind c hc) (by decide),
    fun c hc => isSpelledWith_mono (sp.isSpelledWith_suffix c hc) (by decide)⟩,
    fun c hc => isSpelledWith_mono (sp.isSpelledWith_precision c hc) (by decide)⟩

theorem isSpelledWith_tail :
    ∀ c ∈ sp.tail, isSpelledWith "()withoutimezone".toList c = true := by
  simp only [tail, List.forall_mem_append]
  exact ⟨⟨fun c hc => isSpelledWith_mono (sp.isSpelledWith_suffix c hc) (by decide),
    fun c hc => isSpelledWith_mono (sp.isSpelledWith_precision c hc) (by decide)⟩,
    fun c hc => isSpelledWith_mono (sp.isSpelledWith_words c hc) (by decide)⟩

/-- An item has characters of ASCII alone. -/
theorem ascii_of_mem_item {c : Char} (h : c ∈ sp.item) : c.toNat < 128 := by
  rw [item_eq, List.mem_append] at h
  rcases h with h | h
  · exact ascii_of_isSpelledWith (by decide) (sp.isSpelledWith_kind c h)
  · exact ascii_of_isSpelledWith (by decide) (sp.isSpelledWith_tail c h)

/-- An item ends in a letter or in a parenthesis. -/
theorem getLast?_item : ∃ c ∈ ['e', 'p', 'z', ')'], sp.item.getLast? = some c := by
  obtain ⟨k, hk, hkind⟩ : ∃ c ∈ ['e', 'p'], sp.kind.toList.getLast? = some c := by
    unfold kind
    cases sp.stamped with
    | true => exact ⟨'p', by decide, rfl⟩
    | false => exact ⟨'e', by decide, rfl⟩
  have hphrase : ∀ z : ZonePhrase, z.chars.getLast? = some 'e' := fun z => by
    rw [ZonePhrase.chars, List.getLast?_append]
    rfl
  have hprecision : ∀ p : Precision, p.chars.getLast? = some ')' := fun p => by
    simp [Precision.chars, List.getLast?_append, List.getLast?_cons]
  simp only [item, head, List.getLast?_append]
  cases sp.zone with
  | said z => exact ⟨'e', by decide, by rw [Zone.words, hphrase, Option.some_or]⟩
  | unsaid =>
    cases sp.precision with
    | none => exact ⟨k, (by decide : ['e', 'p'] ⊆ ['e', 'p', 'z', ')']) hk, by rw [hkind]; rfl⟩
    | some p => exact ⟨')', by decide, by rw [Option.elim_some, hprecision]; rfl⟩
  | named =>
    cases sp.precision with
    | none => exact ⟨'z', by decide, rfl⟩
    | some p => exact ⟨')', by decide, by rw [Option.elim_some, hprecision]; rfl⟩

theorem inked_item : Text.Inked sp.item where
  nonempty := by
    obtain ⟨c, -, hc⟩ := sp.getLast?_item
    rintro hnil
    rw [hnil] at hc
    cases hc
  first c hc := by
    have hkind : sp.kind.toList.head? = some 't' := by
      unfold kind
      cases sp.stamped <;> rfl
    rw [item_eq, List.head?_append, hkind, Option.some_or] at hc
    cases hc
    decide
  last c hc := by
    obtain ⟨d, hd, hlast⟩ := sp.getLast?_item
    cases hlast.symm.trans hc
    clear hc hlast
    revert c
    decide

end TimeSpelling

/-! ## Array suffixes -/

theorem peel_blanks_append {blanks : List Char} (h : ∀ c ∈ blanks, Text.isBlank c = true)
    (rest : List Char) :
    peel (blanks ++ rest) = if (peel rest).1 = 0 then (0, blanks ++ rest) else peel rest := by
  induction blanks with
  | nil =>
    rw [List.nil_append]
    split
    · exact peel_of_zero ‹_›
    · rfl
  | cons c blanks ih =>
    obtain ⟨hc, hblanks⟩ := List.forall_mem_cons.mp h
    rw [List.cons_append, peel_cons (ne_suffix_of_isBlank hc _), ih hblanks]
    by_cases hzero : (peel rest).1 = 0
    · rw [if_pos hzero, if_neg fun h => h.2 rfl, if_pos hzero]
    · rw [if_neg hzero, if_pos ⟨hc, hzero⟩, if_neg hzero]

/-- Suffixes with blanks in front of each are found, and only blanks are left of them. -/
theorem peel_layers (layers : List Blanks) {rest : List Char} (hrest : (peel rest).1 = 0) :
    ∃ blanks, (∀ c ∈ blanks, isTypeBlank c = true) ∧
      peel ((layers.flatMap fun gap => gap.chars ++ ['[', ']']).reverse ++ rest) =
        (layers.length, blanks ++ rest) := by
  induction layers using List.reverseRecOn with
  | nil => exact ⟨[], by simp, peel_of_zero hrest⟩
  | append_singleton layers gap ih =>
    obtain ⟨blanks, hblanks, hlayers⟩ := ih
    have hgap : ∀ c ∈ gap.chars.reverse, isTypeBlank c = true := fun c hc =>
      gap.blank c (List.mem_reverse.mp hc)
    have hsuffix : ((layers ++ [gap]).flatMap fun gap => gap.chars ++ ['[', ']']).reverse ++ rest =
        ']' :: '[' :: (gap.chars.reverse ++
          ((layers.flatMap fun gap => gap.chars ++ ['[', ']']).reverse ++ rest)) := by
      simp
    rw [hsuffix, peel_suffix, peel_blanks_append fun c hc => (of_isTypeBlank (hgap c hc)).1, hlayers]
    by_cases hfirst : layers.length = 0
    · rw [List.length_eq_zero_iff] at hfirst
      subst hfirst
      exact ⟨gap.chars.reverse, hgap, rfl⟩
    · exact ⟨blanks, hblanks, by rw [if_neg hfirst, List.length_append]; rfl⟩

/-- Suffixes are found in any letter case. -/
theorem peel_map_foldChar (cs : List Char) :
    peel (cs.map Text.foldChar) = ((peel cs).1, (peel cs).2.map Text.foldChar) := by
  have hne : ∀ (c : Char) (rest : List Char), (∀ rest', c = ']' → rest = '[' :: rest' → False) →
      ∀ rest', Text.foldChar c :: rest.map Text.foldChar ≠ ']' :: '[' :: rest' := by
    intro c rest hsuffix rest' heq
    obtain ⟨hc, hrest⟩ := List.cons.inj heq
    obtain ⟨d, rest'', rfl, hd, -⟩ := List.map_eq_cons_iff.mp hrest
    refine hsuffix rest'' (Text.eq_of_foldChar hc (by decide)) ?_
    rw [Text.eq_of_foldChar hd (by decide)]
  fun_induction peel cs with
  | case1 => rfl
  | case2 rest n base hbase ih =>
    have hsuffix : (']' :: '[' :: rest).map Text.foldChar = ']' :: '[' :: rest.map Text.foldChar := rfl
    rw [hsuffix, peel_suffix, ih, hbase]
  | case3 c rest hsuffix hc base hbase ih =>
    rw [List.map_cons, peel_cons (hne c rest hsuffix), ih, hbase, if_neg fun h => h.2 rfl]
  | case4 c rest hsuffix hc hlayers ih =>
    rw [List.map_cons, peel_cons (hne c rest hsuffix), ih, Text.isBlank_foldChar,
      if_pos ⟨hc, fun hzero => hlayers _ (Prod.ext hzero rfl)⟩]
  | case5 c rest hsuffix hc =>
    rw [List.map_cons, peel_cons (hne c rest hsuffix), Text.isBlank_foldChar, if_neg fun h => hc h.1]

theorem trimFront_map_foldChar (cs : List Char) :
    Text.trimFront (cs.map Text.foldChar) = (Text.trimFront cs).map Text.foldChar := by
  rw [Text.trimFront, Text.trimFront, List.dropWhile_map,
    show Text.isBlank ∘ Text.foldChar = Text.isBlank from funext Text.isBlank_foldChar]

theorem itemOf_map_foldChar (n : Nat) (base : List Char) :
    itemOf (n, base.map Text.foldChar) = (itemOf (n, base)).map Text.foldChar := by
  simp only [itemOf, ← List.map_reverse, trimFront_map_foldChar]
  split <;> rfl

namespace TimeSpelling

variable {sp : TimeSpelling}

/-- All suffixes of a spelling are found; blanks around the item are left. -/
theorem peel_chars (sp : TimeSpelling) :
    ∃ blanks, (∀ c ∈ blanks, isTypeBlank c = true) ∧
      peel sp.chars.reverse =
        (sp.layers.length, blanks ++ (sp.item.reverse ++ sp.front.chars.reverse)) := by
  have hend : ∀ c ∈ ['e', 'p', 'z', ')'], Text.isBlank c = false ∧ c ≠ ']' := by decide
  have hbase : (peel (sp.item.reverse ++ sp.front.chars.reverse)).1 = 0 := by
    refine congrArg Prod.fst (peel_eq_self fun c hc => ?_)
    obtain ⟨d, hd, hlast⟩ := sp.getLast?_item
    rw [List.head?_append, List.head?_reverse, hlast, Option.some_or] at hc
    cases hc
    exact hend _ hd
  obtain ⟨blanks, hblanks, hlayers⟩ := peel_layers sp.layers hbase
  have hreverse : sp.chars.reverse = sp.back.chars.reverse ++
      ((sp.layers.flatMap fun gap => gap.chars ++ ['[', ']']).reverse ++
        (sp.item.reverse ++ sp.front.chars.reverse)) := by
    simp only [chars, List.reverse_append, List.append_assoc]
  rw [hreverse, peel_blanks_append fun c hc => sp.back.isBlank c (List.mem_reverse.mp hc), hlayers]
  by_cases hnone : sp.layers.length = 0
  · rw [List.length_eq_zero_iff] at hnone
    rw [hnone]
    exact ⟨sp.back.chars.reverse, fun c hc => sp.back.blank c (List.mem_reverse.mp hc), rfl⟩
  · exact ⟨blanks, hblanks, if_neg hnone⟩

/-- The blanks in front of the items of an array are gone. -/
theorem exists_itemOf (sp : TimeSpelling) (n : Nat) (blanks : List Char) :
    ∃ front, (∀ c ∈ front, isTypeBlank c = true) ∧
      itemOf (n, blanks ++ (sp.item.reverse ++ sp.front.chars.reverse)) =
        front ++ sp.item ++ blanks.reverse := by
  have hreverse : (blanks ++ (sp.item.reverse ++ sp.front.chars.reverse)).reverse =
      sp.front.chars ++ (sp.item ++ blanks.reverse) := by
    simp
  rw [itemOf, hreverse]
  split
  · exact ⟨sp.front.chars, sp.front.blank, (List.append_assoc _ _ _).symm⟩
  · refine ⟨[], by simp, ?_⟩
    rw [Text.trimFront_append sp.front.isBlank, Text.trimFront_eq_self, List.nil_append]
    intro c hc
    obtain ⟨d, rest, hitem⟩ := List.exists_cons_of_ne_nil sp.inked_item.nonempty
    rw [hitem] at hc
    cases hc
    exact sp.inked_item.first _ (by rw [hitem]; rfl)

/-- The item between blanks, in any letter case, is normalized to the item. -/
theorem normalize_eq_item {text front back : List Char}
    (h : text.map Text.foldChar = front ++ sp.item ++ back)
    (hfront : ∀ c ∈ front, isTypeBlank c = true) (hback : ∀ c ∈ back, isTypeBlank c = true) :
    normalize (String.ofList text) = String.ofList sp.item := by
  have hascii : ∀ c ∈ (String.ofList text).toList, c.toNat < 128 := by
    intro c hc
    rw [String.toList_ofList] at hc
    have hmem : Text.foldChar c ∈ front ++ sp.item ++ back := h ▸ List.mem_map_of_mem hc
    refine Text.ascii_of_foldChar ?_
    rcases List.mem_append.mp hmem with hmem | hmem
    · rcases List.mem_append.mp hmem with hmem | hmem
      · exact (of_isTypeBlank (hfront _ hmem)).2
      · exact sp.ascii_of_mem_item hmem
    · exact (of_isTypeBlank (hback _ hmem)).2
  rw [normalize, Text.lower_eq_fold hascii, Text.fold, Text.trimmed, String.toList_ofList,
    String.toList_ofList, h, Text.trim_wrapped (fun c hc => (of_isTypeBlank (hfront c hc)).1)
      (fun c hc => (of_isTypeBlank (hback c hc)).1) sp.inked_item]

/-- A spelling is read as its item is, under its layers: the blanks, the letter case and the suffixes
make no difference. -/
theorem ofNative_eq {native : String} (h : sp.Spells native) :
    ∃ item, normalize item = String.ofList sp.item ∧
      ofNative native = (itemOfNative item).map (nested sp.layers.length) := by
  obtain ⟨blanks, hblanks, hpeel⟩ := sp.peel_chars
  obtain ⟨front, hfront, hitem⟩ := sp.exists_itemOf sp.layers.length blanks
  -- the same is left of the text, up to its letter case
  obtain ⟨⟨n, base⟩, hnative⟩ : ∃ left, peel native.toList.reverse = left := ⟨_, rfl⟩
  rw [Spells, Text.fold, String.toList_ofList] at h
  have hfold := peel_map_foldChar native.toList.reverse
  rw [List.map_reverse, h, hpeel, hnative, Prod.mk.injEq] at hfold
  obtain ⟨rfl, hbase⟩ := hfold
  rw [hbase, itemOf_map_foldChar] at hitem
  refine ⟨String.ofList (itemOf (sp.layers.length, base)), ?_, ?_⟩
  · exact normalize_eq_item hitem hfront fun c hc => hblanks c (List.mem_reverse.mp hc)
  · simp only [ofNative, hnative, itemOf]

/-! ## Reading an item -/

/-- The parameter of an item is its precision. -/
theorem parameter?_item (sp : TimeSpelling) :
    parameter? (String.ofList sp.item) = sp.precision.map fun p => String.ofList p.digits := by
  have hname : '(' ∉ sp.kind.toList ++ sp.zone.suffix := by
    rw [List.mem_append, not_or]
    exact ⟨fun h => absurd (sp.isSpelledWith_kind _ h) (by decide),
      fun h => absurd (sp.isSpelledWith_suffix _ h) (by decide)⟩
  cases hprecision : sp.precision with
  | none =>
    have hitem : '(' ∉ sp.item := by
      rw [item, head, hprecision, Option.elim_none, List.append_nil, List.mem_append, not_or]
      exact ⟨hname, fun h => absurd (sp.isSpelledWith_words _ h) (by decide)⟩
    simp only [parameter?, String.toList_ofList, Text.cutFirst?_eq_none_iff.mpr hitem, Option.map_none]
  | some p =>
    have hblank : ∀ b : Blanks, '(' ∉ b.chars ∧ ')' ∉ b.chars := fun b =>
      ⟨fun h => absurd (b.blank _ h) (by decide), fun h => absurd (b.blank _ h) (by decide)⟩
    have hlead : '(' ∉ sp.kind.toList ++ sp.zone.suffix ++ p.lead.chars := by
      rw [List.mem_append, not_or]
      exact ⟨hname, (hblank p.lead).1⟩
    have hclosed : ')' ∉ p.front.chars ++ p.digits ++ p.back.chars := by
      simp only [List.mem_append, not_or]
      exact ⟨⟨(hblank p.front).2, fun h => absurd (p.decimal _ h) (by decide)⟩, (hblank p.back).2⟩
    have hdigits : Text.Inked p.digits :=
      Text.inked_of_blankless p.nonempty fun c hc => (Decimal.of_isDecimal (p.decimal c hc)).2.1
    have hitem : sp.item = (sp.kind.toList ++ sp.zone.suffix ++ p.lead.chars) ++
        '(' :: ((p.front.chars ++ p.digits ++ p.back.chars) ++ ')' :: sp.zone.words) := by
      simp [item, head, hprecision, Precision.chars]
    simp only [parameter?, String.toList_ofList, hitem, Text.cutFirst?_append hlead,
      Text.cutFirst?_append hclosed, Option.map_some,
      Text.trim_wrapped p.front.isBlank p.back.isBlank hdigits]

/-- The precision of an item is read, when it can be. -/
theorem intParameter?_item (sp : TimeSpelling) :
    (sp.Readable → intParameter? (String.ofList sp.item) = .ok sp.number) ∧
      (¬ sp.Readable → ∃ e, intParameter? (String.ofList sp.item) = .error e) := by
  have hparameter := sp.parameter?_item
  cases hprecision : sp.precision with
  | none =>
    rw [hprecision, Option.map_none] at hparameter
    have hreadable : sp.Readable := fun p hp => by
      rw [hprecision] at hp
      cases hp
    refine ⟨fun _ => ?_, fun hnot => absurd hreadable hnot⟩
    rw [intParameter?, hparameter, number, hprecision, Option.map_none]
  | some p =>
    rw [hprecision, Option.map_some] at hparameter
    have hreadable : sp.Readable ↔ p.digits.length ≤ Integer.digitLimit := by
      simp [Readable, hprecision]
    rw [intParameter?_of_digits hparameter p.nonempty p.decimal, hreadable, number, hprecision,
      Option.map_some]
    exact ⟨fun hlength => if_pos hlength, fun hlength => ⟨_, if_neg hlength⟩⟩

/-- One space between two words is what it takes for them to be found. -/
theorem isPrefixOf_gap {gap : Blanks} (hne : gap.chars ≠ []) {a : Char} (ha : isTypeBlank a = false)
    (part rest : List Char) :
    (' ' :: a :: part).isPrefixOf (gap.chars ++ a :: rest) =
      (gap.chars == [' '] && part.isPrefixOf rest) := by
  obtain ⟨chars, hblank⟩ := gap
  match chars with
  | [] => exact absurd rfl hne
  | [b] => simp [List.isPrefixOf, Bool.beq_comm (a := b)]
  | b :: b' :: chars =>
    have hb' : a ≠ b' := by
      rintro rfl
      exact Bool.false_ne_true (ha.symm.trans (hblank a (by simp)))
    simp [List.isPrefixOf, hb']

/-- No other character is found where blanks stand. -/
theorem isPrefixOf_of_blank {gap : Blanks} (hne : gap.chars ≠ []) {a : Char}
    (ha : isTypeBlank a = false) (part rest : List Char) :
    (a :: part).isPrefixOf (gap.chars ++ rest) = false := by
  obtain ⟨b, chars, hchars⟩ := List.exists_cons_of_ne_nil hne
  have hb : a ≠ b := by
    rintro rfl
    exact Bool.false_ne_true (ha.symm.trans (gap.blank a (by simp [hchars])))
  simp [hchars, List.isPrefixOf, hb]

/-- The zone is found in its words, when one space stands between any two of them. -/
theorem words_found (z : ZonePhrase) {front : List Char} (hfront : 'w' ∉ front) :
    (Text.contains "with time zone".toList (front ++ z.chars) &&
        !Text.contains "without".toList (front ++ z.chars)) =
      (z.zoned && z.middle.chars == [' '] && z.last.chars == [' ']) := by
  -- no other `w` stands in the words, so that they are found there or nowhere
  obtain ⟨behind, hbehind⟩ : ∃ behind, behind =
      z.middle.chars ++ 't' :: ("ime".toList ++ (z.last.chars ++ 'z' :: "one".toList)) := ⟨_, rfl⟩
  have hblank : ∀ b : Blanks, 'w' ∉ b.chars := fun b h => absurd (b.blank _ h) (by decide)
  have hlead : 'w' ∉ front ++ z.lead.chars := by simp [hfront, hblank]
  have hrest : 'w' ∉ "ith".toList ++ behind ∧ 'w' ∉ "ithout".toList ++ behind := by
    simp [hbehind, hblank]
  cases hzoned : z.zoned with
  | false =>
    have hchars : front ++ z.chars = (front ++ z.lead.chars) ++ 'w' :: ("ithout".toList ++ behind) := by
      simp [ZonePhrase.chars, hzoned, hbehind]
    have hwithout : Text.contains "without".toList (front ++ z.chars) = true := by
      rw [hchars]
      exact Text.contains_append_cons_self hlead hrest.2
    rw [hwithout, Bool.not_true, Bool.and_false, Bool.false_and, Bool.false_and]
  | true =>
    have hchars : front ++ z.chars = (front ++ z.lead.chars) ++ 'w' :: ("ith".toList ++ behind) := by
      simp [ZonePhrase.chars, hzoned, hbehind]
    have hwithout : Text.contains "without".toList (front ++ z.chars) = false := by
      rw [hchars]
      refine (Text.contains_append_cons_self hlead hrest.1).trans ?_
      rw [hbehind]
      exact isPrefixOf_of_blank z.middle_nonempty (by decide) _ _
    have hwith : Text.contains "with time zone".toList (front ++ z.chars) =
        (z.middle.chars == [' '] && z.last.chars == [' ']) := by
      rw [hchars]
      refine (Text.contains_append_cons_self hlead hrest.1).trans ?_
      rw [hbehind]
      refine (isPrefixOf_gap z.middle_nonempty (by decide) "ime zone".toList _).trans ?_
      refine congrArg (z.middle.chars == [' '] && ·) ?_
      refine (isPrefixOf_gap z.last_nonempty (by decide) "one".toList "one".toList).trans ?_
      exact Bool.and_true _
    rw [hwithout, hwith, Bool.not_false, Bool.and_true, Bool.true_and]

/-- The zone of an item is found, unless it is in its name. -/
theorem zone_item (sp : TimeSpelling) :
    (Text.holds "with time zone" (String.ofList sp.item) &&
      !Text.holds "without" (String.ofList sp.item)) = sp.wordsFound := by
  have hhead : 'w' ∉ sp.head := fun h => absurd (sp.isSpelledWith_head _ h) (by decide)
  simp only [Text.holds, String.toList_ofList, item, wordsFound]
  cases sp.zone with
  | unsaid | named =>
    have hnone : Text.contains "with time zone".toList sp.head = false :=
      Text.contains_eq_false (by decide : 'w' ∈ "with time zone".toList) hhead
    simp only [Zone.words, List.append_nil, hnone, Bool.false_and]
  | said z => exact words_found z hhead

/-- The word of the type is the one that the item starts with. -/
theorem find?_kind (sp : TimeSpelling) :
    (["timestamp", "time"].find? fun word => Text.startsWith word (String.ofList sp.item)) =
      some sp.kind := by
  simp only [List.find?, Text.startsWith, String.toList_ofList, item_eq]
  unfold kind
  cases sp.stamped with
  | true => rfl
  | false =>
    have hstamp : "stamp".toList.isPrefixOf sp.tail = false := by
      rw [Bool.eq_false_iff, Ne, List.isPrefixOf_iff_prefix]
      intro hprefix
      have hs : 's' ∈ sp.tail := hprefix.subset (by decide)
      exact absurd (sp.isSpelledWith_tail _ hs) (by decide)
    have htimestamp : "timestamp".toList.isPrefixOf ("time".toList ++ sp.tail) = false := hstamp
    simp only [Bool.false_eq_true, if_false, htimestamp]
    rfl

/-- The spellings of time types that have a meaning of their own. -/
theorem filter_exact_time : exact.filter (Text.startsWith "time" ·.1) = [
    ("time", .ofKind "time"),
    ("time without time zone", .ofKind "time"),
    ("time with time zone", zoned "time"),
    ("timestamp", .ofKind "timestamp"),
    ("timestamp without time zone", .ofKind "timestamp"),
    ("timestamp with time zone", zoned "timestamp"),
    ("timestamptz", zoned "timestamp")] :=
  rfl

/-- They mean what they say, but for the short name of a timestamp with a time zone. -/
theorem timeOf?_of_mem_exact {spelling : String} {c : ColumnType} (h : (spelling, c) ∈ exact)
    (htime : Text.startsWith "time" spelling = true) (hshort : spelling ≠ "timestamptz") :
    timeOf? spelling = .ok (some c) := by
  have hmem : (spelling, c) ∈ exact.filter (Text.startsWith "time" ·.1) :=
    List.mem_filter.mpr ⟨h, htime⟩
  rw [filter_exact_time] at hmem
  simp only [List.mem_cons, Prod.mk.injEq, List.not_mem_nil, or_false] at hmem
  rcases hmem with ⟨rfl, rfl⟩ | ⟨rfl, rfl⟩ | ⟨rfl, rfl⟩ | ⟨rfl, rfl⟩ | ⟨rfl, rfl⟩ | ⟨rfl, rfl⟩ |
    ⟨rfl, rfl⟩
  case inr.inr.inr.inr.inr.inr => exact absurd rfl hshort
  all_goals rfl

/-- A text that starts with the word of a time type and has no other meaning is read as one. -/
theorem itemOfNative_time {native spelling : String} {r : Except Failure ColumnType}
    (hnormal : normalize native = spelling) (htime : Text.startsWith "time" spelling = true)
    (hshort : spelling ≠ "timestamptz") (h : timeOf? spelling = r.map some) :
    itemOfNative native = r := by
  rw [itemOfNative, hnormal]
  cases hexact : exact.get? spelling with
  | some c =>
    rw [timeOf?_of_mem_exact (Entries.mem_of_get? hexact) htime hshort] at h
    obtain ⟨c', hc', heq⟩ := ok_of_map h.symm
    cases heq
    exact hc'.symm
  | none =>
    rw [Text.startsWith, List.isPrefixOf_iff_prefix] at htime
    obtain ⟨rest, hrest⟩ := htime
    simp only [ofSpelling, startsWithAny, Text.startsWith, ← hrest, h]
    cases r <;> rfl

/-- The short name of a timestamp with a time zone is the only spelling with its meaning. -/
theorem isShortName_iff (sp : TimeSpelling) :
    String.ofList sp.item = "timestamptz" ↔ sp.isShortName = true := by
  have hitem : String.ofList sp.item = "timestamptz" ↔ sp.item = "timestamptz".toList := by
    rw [← String.toList_inj, String.toList_ofList]
  rw [hitem, isShortName]
  cases hzone : sp.zone with
  | said z =>
    refine iff_of_false (fun heq => ?_) Bool.false_ne_true
    have hw : 'w' ∈ z.chars := by
      cases hzoned : z.zoned <;> simp [ZonePhrase.chars, hzoned]
    have hmem : 'w' ∈ sp.item := by simp [item, hzone, Zone.words, hw]
    rw [heq] at hmem
    exact absurd hmem (by decide)
  | unsaid =>
    refine iff_of_false (fun heq => ?_) Bool.false_ne_true
    cases hprecision : sp.precision with
    | none =>
      rw [item, head, hzone, hprecision, kind] at heq
      revert heq
      cases sp.stamped <;> decide
    | some p =>
      have hmem : '(' ∈ sp.item := by simp [item, head, hprecision, Precision.chars]
      rw [heq] at hmem
      exact absurd hmem (by decide)
  | named =>
    cases hprecision : sp.precision with
    | none =>
      rw [item, head, hzone, hprecision, kind]
      cases sp.stamped <;> decide
    | some p =>
      refine iff_of_false (fun heq => ?_) (by simp)
      have hmem : '(' ∈ sp.item := by simp [item, head, hprecision, Precision.chars]
      rw [heq] at hmem
      exact absurd hmem (by decide)

theorem startsWith_time (sp : TimeSpelling) :
    Text.startsWith "time" (String.ofList sp.item) = true := by
  have hkind : sp.kind.toList = "time".toList ++ if sp.stamped then "stamp".toList else [] := by
    unfold kind
    cases sp.stamped <;> rfl
  rw [Text.startsWith, String.toList_ofList (l := sp.item), item_eq, hkind, List.append_assoc,
    List.isPrefixOf_iff_prefix]
  exact List.prefix_append _ _

/-- The short name of a timestamp is read with its time zone. -/
theorem itemOfNative_of_shortName {native : String} (h : normalize native = String.ofList sp.item)
    (hshort : sp.isShortName = true) : sp.Readable ∧ itemOfNative native = .ok sp.itemRead := by
  obtain ⟨hstamped, hprecision⟩ : sp.stamped = true ∧ sp.precision = none := by
    unfold isShortName at hshort
    split at hshort
    · simpa using hshort
    · cases hshort
  have hread : itemOfNative native = .ok (zoned "timestamp") := by
    rw [itemOfNative, h, sp.isShortName_iff.mpr hshort]
    rfl
  have hitem : sp.itemRead = zoned "timestamp" := by
    rw [itemRead, zoneFound, hshort, Bool.or_true, if_pos rfl, number, kind, hstamped, hprecision]
    rfl
  refine ⟨fun p hp => ?_, hread.trans (congrArg Except.ok hitem.symm)⟩
  rw [hprecision] at hp
  cases hp

/-- Any other item is read with its precision, and with its zone where the words say it. -/
theorem itemOfNative_of_words {native : String} (h : normalize native = String.ofList sp.item)
    (hshort : ¬ sp.isShortName = true) :
    itemOfNative native =
      (intParameter? (String.ofList sp.item)).map fun n => { sp.itemRead with precision := n } := by
  have hfound : sp.zoneFound = sp.wordsFound := by
    rw [zoneFound, Bool.eq_false_iff.mpr hshort, Bool.or_false]
  refine itemOfNative_time h sp.startsWith_time (mt sp.isShortName_iff.mp hshort) ?_
  simp only [timeOf?, sp.find?_kind, sp.zone_item, itemRead, hfound]
  cases intParameter? (String.ofList sp.item) <;> rfl

/-- An item is read with its precision, when it can be read, and with its zone where that is found. -/
theorem itemOfNative_item {native : String} (h : normalize native = String.ofList sp.item) :
    (sp.Readable → itemOfNative native = .ok sp.itemRead) ∧
      (¬ sp.Readable → ∃ e, itemOfNative native = .error e) := by
  by_cases hshort : sp.isShortName = true
  · obtain ⟨hreadable, hread⟩ := itemOfNative_of_shortName h hshort
    exact ⟨fun _ => hread, fun hnot => absurd hreadable hnot⟩
  · rw [itemOfNative_of_words h hshort]
    refine ⟨fun hreadable => ?_, fun hnot => ?_⟩
    · rw [sp.intParameter?_item.1 hreadable]
      rfl
    · obtain ⟨e, he⟩ := sp.intParameter?_item.2 hnot
      exact ⟨e, by rw [he]; rfl⟩

/-! ## Writing -/

/-- The precision that was read is written, without the character that the words for the zone begin
with. -/
theorem withPrecision_number (hreadable : sp.Readable) :
    ∃ front, withPrecision sp.kind sp.number = .ok front ∧ 'w' ∉ front.toList := by
  have hkind : 'w' ∉ sp.kind.toList := fun h => absurd (sp.isSpelledWith_kind _ h) (by decide)
  rcases nonZero?_of_intParameter? (sp.intParameter?_item.1 hreadable) with hnone | ⟨m, -, hm, hlt⟩
  · exact ⟨sp.kind, by rw [withPrecision, hnone], hkind⟩
  · have hdigits : 'w' ∉ Nat.toDigits 10 m := fun h =>
      absurd (Decimal.isDecimal_of_mem h) (by decide)
    refine ⟨withParameter sp.kind (toString m), ?_, ?_⟩
    · rw [withPrecision, hm]
      exact withNumber_natCast hlt sp.kind
    · rw [spelled_withParameter]
      simp [hkind, hdigits]

/-- A type is written with a time zone exactly when it was found. -/
theorem saysZone_toNative (hreadable : sp.Readable) (n : Nat) :
    ∃ spelling, toNative (nested n sp.itemRead) = .ok spelling ∧
      (saysZone spelling ↔ sp.zoneFound = true) := by
  obtain ⟨front, hfront, hlead⟩ := sp.withPrecision_number hreadable
  have hbrackets : 'w' ∉ brackets n := by
    rw [brackets, List.mem_flatten]
    rintro ⟨suffix, hsuffix, hw⟩
    rw [List.eq_of_mem_replicate hsuffix] at hw
    exact absurd hw (by decide)
  have hspace : 'w' ∉ front.toList ++ [' '] := by
    rw [List.mem_append, not_or]
    exact ⟨hlead, by decide⟩
  refine ⟨bracketed n (front ++ zoneTail (if sp.zoneFound then some true else none)), ?_, ?_⟩
  · rw [toNative_nested, itemRead, toNative_time sp.kind_mem, hfront]
    rfl
  have hcontains (tail : String) : saysZone (bracketed n (front ++ tail)) ↔
      Text.contains ('w' :: "ith time zone".toList)
        (front.toList ++ tail.toList ++ brackets n) = true := by
    simp only [saysZone, Text.holds, bracketed, String.toList_ofList, String.toList_append]
    exact Iff.rfl
  rw [hcontains]
  cases sp.zoneFound with
  | true =>
    refine iff_of_true ?_ rfl
    have hchars : front.toList ++ (zoneTail (some true)).toList ++ brackets n =
        (front.toList ++ [' ']) ++ 'w' :: ("ith time zone".toList ++ brackets n) := by
      simp [zoneTail]
    have hback : 'w' ∉ "ith time zone".toList ++ brackets n := by simp [hbrackets]
    rw [if_pos rfl, hchars, Text.contains_append_cons_self hspace hback]
    rfl
  | false =>
    refine iff_of_false ?_ Bool.false_ne_true
    have hchars : front.toList ++ (zoneTail none).toList ++ brackets n =
        (front.toList ++ [' ']) ++ 'w' :: ("ithout time zone".toList ++ brackets n) := by
      simp [zoneTail]
    have hback : 'w' ∉ "ithout time zone".toList ++ brackets n := by simp [hbrackets]
    rw [if_neg Bool.false_ne_true, hchars, Text.contains_append_cons_self hspace hback]
    exact Bool.false_ne_true

/-! ## Spellings of time types -/

theorem isZoned_of_zoneFound (h : sp.zoneFound = true) : sp.isZoned = true := by
  simp only [zoneFound, wordsFound, isShortName, isZoned] at h ⊢
  cases hzone : sp.zone with
  | unsaid => simp [hzone] at h
  | named => rfl
  | said z =>
    simp only [hzone, Bool.or_false, Bool.and_eq_true] at h
    exact h.1.1

theorem withTimeZone_itemRead (sp : TimeSpelling) :
    sp.itemRead.withTimeZone = some true ↔ sp.zoneFound = true := by
  simp only [itemRead]
  cases sp.zoneFound <;> simp

/-- A spelling of a time type is read under all its array layers, and written with a time zone when one
was found. It is read as what it stands for exactly when its precision can be read and its zone, if it
has one, is found: with a zone in its name it is not, but for `timestamptz` without a precision, and in
words it is when one space stands between any two of them. -/
theorem time_read_iff {sp : TimeSpelling} {native : String} (h : sp.Spells native) :
    (sp.Readable → ofNative native = .ok (nested sp.layers.length sp.itemRead) ∧
        ∃ spelling, toNative (nested sp.layers.length sp.itemRead) = .ok spelling ∧
          (saysZone spelling ↔ sp.zoneFound = true)) ∧
      ((∃ c, ofNative native = .ok c ∧ sp.StandsFor c) ↔
        sp.Readable ∧ (sp.isZoned = true → sp.zoneFound = true)) := by
  obtain ⟨item, hitem, hnative⟩ := ofNative_eq h
  obtain ⟨hok, herror⟩ := itemOfNative_item hitem
  have hread : sp.Readable → ofNative native = .ok (nested sp.layers.length sp.itemRead) :=
    fun hreadable => by
      rw [hnative, hok hreadable]
      rfl
  refine ⟨fun hreadable => ⟨hread hreadable, sp.saysZone_toNative hreadable _⟩, ?_, ?_⟩
  · rintro ⟨c, hc, hstands⟩
    by_cases hreadable : sp.Readable
    · cases hc.symm.trans (hread hreadable)
      obtain ⟨spelling, hspelling, hsays⟩ := sp.saysZone_toNative hreadable sp.layers.length
      obtain ⟨_, hwritten, hstood⟩ := hstands.written
      obtain rfl := Except.ok.inj (hwritten.symm.trans hspelling)
      exact ⟨hreadable, fun hzoned => hsays.mp (hstood.mpr hzoned)⟩
    · obtain ⟨e, he⟩ := herror hreadable
      rw [hnative, he] at hc
      cases hc
  · rintro ⟨hreadable, hfound⟩
    have hzoned : sp.zoneFound = true ↔ sp.isZoned = true := ⟨isZoned_of_zoneFound, hfound⟩
    obtain ⟨spelling, hspelling, hsays⟩ := sp.saysZone_toNative hreadable sp.layers.length
    exact ⟨_, hread hreadable, ⟨sp.itemRead, rfl, rfl, rfl, sp.withTimeZone_itemRead.trans hzoned⟩,
      spelling, hspelling, hsays.trans hzoned⟩

/-- A timestamp with a precision and a time zone, under two layers. -/
def zonedStamps : TimeSpelling where
  stamped := true
  precision := some ⟨⟨[' '], by decide⟩, ⟨[], by decide⟩, ['3'], by decide, by decide,
    ⟨[' '], by decide⟩⟩
  zone := .said ⟨true, ⟨['\t'], by decide⟩, ⟨[' '], by decide⟩, by decide, ⟨[' '], by decide⟩,
    by decide⟩
  apart := by simp
  layers := [⟨[' '], by decide⟩, ⟨[], by decide⟩]
  front := ⟨[' '], by decide⟩
  back := ⟨[], by decide⟩

theorem time_read_iff_zonedStamps :
    zonedStamps.Spells " TimeStamp (3 )\tWITH time zone [][]" ∧
      ofNative " TimeStamp (3 )\tWITH time zone [][]" =
        .ok (nested 2 { zoned "timestamp" with precision := some 3 }) ∧
      ∃ c, ofNative " TimeStamp (3 )\tWITH time zone [][]" = .ok c ∧ zonedStamps.StandsFor c := by
  have hspells : zonedStamps.Spells " TimeStamp (3 )\tWITH time zone [][]" := by decide +kernel
  have hreadable : zonedStamps.Readable := by
    intro p hp
    cases hp
    decide
  obtain ⟨hread, hstands⟩ := time_read_iff hspells
  exact ⟨hspells, (hread hreadable).1, hstands.mpr ⟨hreadable, fun _ => rfl⟩⟩

/-- A time of day with the zone in its name. -/
def shortTime : TimeSpelling where
  stamped := false
  precision := none
  zone := .named
  apart := by simp
  layers := []
  front := ⟨[], by decide⟩
  back := ⟨[], by decide⟩

/-- The short name of a time of day with a time zone is read as one without, and written as one. -/
theorem zone_lost :
    shortTime.Spells "timetz" ∧ ofNative "timetz" = .ok (.ofKind "time") ∧
      toNative (.ofKind "time") = .ok "time without time zone" ∧
      ¬ ∃ c, ofNative "timetz" = .ok c ∧ shortTime.StandsFor c := by
  have hread : ofNative "timetz" = .ok (.ofKind "time") := rfl
  refine ⟨by decide +kernel, hread, rfl, ?_⟩
  rintro ⟨c, hc, hstands⟩
  cases hread.symm.trans hc
  have hsays : ¬ saysZone "time without time zone" := by
    rw [saysZone]
    decide +kernel
  obtain ⟨_, hwritten, hstood⟩ := hstands.written
  cases hwritten
  exact hsays (hstood.mpr rfl)

end TimeSpelling

end TableOps.NativeType.Postgres
