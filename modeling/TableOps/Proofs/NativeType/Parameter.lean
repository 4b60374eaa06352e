import TableOps.NativeType.Parameter
import TableOps.Proofs.Number.Decimal
import TableOps.Proofs.Text.Blanks
import TableOps.Proofs.Text.Cuts

/-!
# Spellings with a parameter

A type that is written with a parameter in parentheses is read back with that parameter, and is not
changed by normalization.

* `isWord`, `isTail`, `IsPart` — what may stand in front of the parentheses, behind them and in them.
* `Spelled` — a word, the parentheses and a tail; `Spelled.normalize_eq`, `Spelled.parameter?_eq`,
  `Spelled.get?_eq_none`, how it is read.
* `intParameter?_of_digits`, `nat_of_intParameter?`, `Spelled.intParameter?_eq`, `withNumber_natCast` —
  a number as the parameter.
* `decimalFormat_cases`, `Spelled.decimalFormat_eq` — the precision of an exact number as the
  parameter.
-/

namespace TableOps.NativeType

/-! ## Words and what stands behind them -/

/-- A character of the words that types are spelled with: no capital of ASCII. -/
def isWordChar (c : Char) : Bool :=
  c.toNat < 128 && Text.foldChar c == c

/-- A word in front of parentheses. -/
def isWord (word : String) : Bool :=
  word.toList.all (fun c => isWordChar c && c != '(') && word.toList.head?.any (!Text.isBlank ·)

/-- What stands behind parentheses: nothing, or words up to the end. -/
def isTail (tail : String) : Bool :=
  tail.toList.all isWordChar && tail.toList.getLast?.all fun c => !Text.isBlank c && c != ']'

/-- What is kept in parentheses: it ends there, is in lower case, and has no blanks around it. -/
structure IsPart (part : List Char) : Prop where
  closed : ')' ∉ part
  lowered : ∀ c ∈ part, Text.IsLowered c
  trimmed : Text.trim part = part

theorem isLowered_of_isWordChar {c : Char} (h : isWordChar c) : Text.IsLowered c := by
  simp only [isWordChar, Bool.and_eq_true, decide_eq_true_eq, beq_iff_eq] at h
  exact Text.isLowered_of_ascii h.1 h.2

theorem of_isWord {word : String} (h : isWord word) :
    (∀ c ∈ word.toList, Text.IsLowered c) ∧ '(' ∉ word.toList ∧
      ∃ c, word.toList.head? = some c ∧ Text.isBlank c = false := by
  simp only [isWord, Bool.and_eq_true, List.all_eq_true, bne_iff_ne, Option.any_eq_true,
    Bool.not_eq_true'] at h
  exact ⟨fun c hc => isLowered_of_isWordChar (h.1 c hc).1, fun hopen => (h.1 _ hopen).2 rfl, h.2⟩

theorem of_isTail {tail : String} (h : isTail tail) :
    (∀ c ∈ tail.toList, Text.IsLowered c) ∧
      ∀ c, tail.toList.getLast? = some c → Text.isBlank c = false ∧ c ≠ ']' := by
  simp only [isTail, Bool.and_eq_true, List.all_eq_true, Option.all_eq_true,
    Bool.not_eq_true', bne_iff_ne] at h
  exact ⟨fun c hc => isLowered_of_isWordChar (h.1 c hc), h.2⟩

theorem isWordChar_of_isDecimal {c : Char} (h : Url.isDecimal c) : isWordChar c := by
  obtain ⟨n, rfl⟩ := Text.exists_ascii (Decimal.toNat_of_isDecimal h)
  revert n
  decide +kernel

theorem isPart_toDigits (n : Nat) : IsPart (Nat.toDigits 10 n) where
  closed hc := (Decimal.of_isDecimal (Decimal.isDecimal_of_mem hc)).2.2.2.2.2 rfl
  lowered _ hc := isLowered_of_isWordChar (isWordChar_of_isDecimal (Decimal.isDecimal_of_mem hc))
  trimmed := Text.trim_eq_self fun _ hc => (Decimal.of_isDecimal (Decimal.isDecimal_of_mem hc)).2.1

theorem isLowered_of_mem_normalize {native : String} {c : Char} (h : c ∈ (normalize native).toList) :
    Text.IsLowered c := by
  rw [normalize, Text.trimmed, String.toList_ofList] at h
  exact Text.isLowered_of_mem_lower (Text.trim_subset _ h)

/-- Digits as the parameter are read as a number, unless there are too many of them. -/
theorem intParameter?_of_digits {spelling : String} {digits : List Char}
    (h : parameter? spelling = some (String.ofList digits)) (hne : digits ≠ [])
    (hdigits : ∀ c ∈ digits, Url.isDecimal c) :
    intParameter? spelling =
      if digits.length ≤ Integer.digitLimit then .ok (some (Url.numberOf digits : Int))
      else .error (.input (.ofRefusal (String.ofList digits) (.tooLong digits.length))) := by
  have hall : digits.all Text.isDigit = true := by
    refine List.all_eq_true.mpr fun c hc => ?_
    rw [Text.isDigit, (Decimal.of_isDecimal (hdigits c hc)).1]
    rfl
  have hempty : (String.ofList digits).isEmpty = false := by
    rw [Bool.eq_false_iff, Ne, String.isEmpty_iff]
    exact fun hnil => hne (String.ofList_eq_empty_iff.mp hnil)
  simp only [intParameter?, h, String.toList_ofList, hempty, hall, Bool.not_false, Bool.and_self,
    if_true, Integer.ofText_of_isDecimal hne hdigits]
  by_cases hlength : digits.length ≤ Integer.digitLimit
  · rw [if_pos hlength, if_pos hlength]
  · rw [if_neg hlength, if_neg hlength]

/-! ## Spellings -/

/-- A word, a parameter in parentheses, and a tail. -/
def Spelled (word : String) (part : List Char) (tail spelling : String) : Prop :=
  spelling.toList = word.toList ++ '(' :: (part ++ ')' :: tail.toList)

theorem spelled_withParameter (word : String) (n : Nat) :
    Spelled word (Nat.toDigits 10 n) "" (withParameter word (toString n)) := by
  have hdigits : (toString n).toList = Nat.toDigits 10 n := Nat.toList_repr
  simp only [Spelled, withParameter, String.toList_append, hdigits]
  simp

/-- A number without sign that is not too long is written as the parameter. -/
theorem withNumber_natCast {n : Nat} (h : n < 10 ^ Integer.digitLimit) (word : String) :
    withNumber word n = .ok (withParameter word (toString n)) := by
  rw [withNumber, Integer.digits_natCast h]
  rfl

namespace Spelled

variable {word tail spelling : String} {part : List Char}

theorem append (h : Spelled word part "" spelling) (tail : String) :
    Spelled word part tail (spelling ++ tail) := by
  rw [Spelled, String.toList_append, h]
  simp

/-- What the spelling starts with is seen by its characters. -/
theorem startsWith_eq (h : Spelled word part tail spelling) (lead : String) :
    Text.startsWith lead spelling =
      lead.toList.isPrefixOf (word.toList ++ '(' :: (part ++ ')' :: tail.toList)) := by
  rw [Text.startsWith, h]

/-- What stands somewhere in the spelling, but across none of the parentheses. -/
theorem holds_eq (h : Spelled word part tail spelling) {text : String}
    (hopen : '(' ∉ text.toList) (hclose : ')' ∉ text.toList) :
    Text.holds text spelling =
      (Text.contains text.toList word.toList || (Text.contains text.toList part ||
        Text.contains text.toList tail.toList)) := by
  rw [Text.holds, h, Text.contains_append_cons hopen, Text.contains_append_cons hclose]

/-- A spelling with a parameter has no blanks around it, and does not end like an array type. -/
theorem of_ends (h : Spelled word part tail spelling) (hword : isWord word) (htail : isTail tail) :
    (∀ c, spelling.toList.head? = some c → Text.isBlank c = false) ∧
      ∀ c, spelling.toList.getLast? = some c → Text.isBlank c = false ∧ c ≠ ']' := by
  obtain ⟨-, -, d, hd, hblank⟩ := of_isWord hword
  rw [h]
  refine ⟨fun c hc => ?_, fun c hc => ?_⟩
  · rw [List.head?_append, hd, Option.some_or] at hc
    cases hc
    exact hblank
  · rw [List.getLast?_append, List.getLast?_cons, List.getLast?_append, List.getLast?_cons] at hc
    simp only [Option.some_or, Option.getD_some, Option.some.injEq] at hc
    cases hend : tail.toList.getLast? with
    | none =>
      rw [hend] at hc
      rw [← hc]
      decide
    | some d =>
      rw [hend] at hc
      rw [← hc]
      exact (of_isTail htail).2 d hend

/-- A spelling with a parameter is not changed by normalization. -/
theorem normalize_eq (h : Spelled word part tail spelling) (hword : isWord word)
    (htail : isTail tail) (hpart : IsPart part) : normalize spelling = spelling := by
  have hlower : Text.lower spelling = spelling := by
    refine Text.lower_eq_self fun c hc => ?_
    rw [h] at hc
    simp only [List.mem_append, List.mem_cons] at hc
    rcases hc with hc | rfl | hc | rfl | hc
    · exact (of_isWord hword).1 c hc
    · exact isLowered_of_isWordChar (by decide)
    · exact hpart.lowered c hc
    · exact isLowered_of_isWordChar (by decide)
    · exact (of_isTail htail).1 c hc
  obtain ⟨hhead, hlast⟩ := h.of_ends hword htail
  have htrim : Text.trim spelling.toList = spelling.toList :=
    Text.trim_eq_self_of_ends hhead fun c hc => (hlast c hc).1
  rw [normalize, hlower, Text.trimmed, htrim, String.ofList_toList]

/-- The parameter is read back. -/
theorem parameter?_eq (h : Spelled word part tail spelling) (hword : isWord word)
    (hpart : IsPart part) : parameter? spelling = some (String.ofList part) := by
  have hopen : '(' ∉ word.toList := (of_isWord hword).2.1
  rw [Spelled] at h
  simp only [parameter?, h, Text.cutFirst?_append hopen, Text.cutFirst?_append hpart.closed,
    Option.map_some, hpart.trimmed]

/-- Nothing is found under the spelling when no name starts like it. -/
theorem get?_eq_none {α : Type} {entries : Entries α} (h : Spelled word part tail spelling)
    (hkeys : ∀ key ∈ entries.keys, Text.startsWith (word ++ "(") key = false) :
    entries.get? spelling = none := by
  rw [Entries.get?_eq_none_iff]
  intro hmem
  have hstarts := hkeys _ hmem
  have hprefix : (word.toList ++ ['(']).isPrefixOf spelling.toList = true := by
    rw [List.isPrefixOf_iff_prefix, h]
    exact ⟨part ++ ')' :: tail.toList, by simp⟩
  rw [Text.startsWith, String.toList_append, show "(".toList = ['('] from rfl, hprefix] at hstarts
  cases hstarts

/-! ## Numbers as the parameter -/

/-- The parameter is read back as a number when it is one that is not too long. -/
theorem intParameter?_eq {n : Nat} (h : Spelled word (Nat.toDigits 10 n) tail spelling)
    (hword : isWord word) (hn : n < 10 ^ Integer.digitLimit) :
    intParameter? spelling = .ok (some n) := by
  have hlength : (Nat.toDigits 10 n).length ≤ Integer.digitLimit :=
    (Nat.length_toDigits_le_iff (by decide) (by decide)).mpr hn
  rw [intParameter?_of_digits (h.parameter?_eq hword (isPart_toDigits n)) Nat.toDigits_ne_nil
    fun c => Decimal.isDecimal_of_mem, if_pos hlength, Url.numberOf_toDigits]

end Spelled

/-- A number that is read as the parameter has no sign, and is not too long. -/
theorem nat_of_intParameter? {spelling : String} {n : Int}
    (h : intParameter? spelling = .ok (some n)) : ∃ m : Nat, n = m ∧ m < 10 ^ Integer.digitLimit := by
  unfold intParameter? at h
  split at h
  · cases h
  · rename_i p _
    split at h
    · rename_i hdigits
      split at h
      · rename_i hread
        cases h
        rw [Bool.and_eq_true, List.all_eq_true] at hdigits
        exact Integer.lt_of_ofText hdigits.2 hread
      · cases h
    · cases h

/-- A number that is read as the parameter is written as a number without sign that is not too long,
or not at all. -/
theorem nonZero?_of_intParameter? {spelling : String} {n : Option Int}
    (h : intParameter? spelling = .ok n) :
    nonZero? n = none ∨
      ∃ m : Nat, n = some (m : Int) ∧ nonZero? n = some (m : Int) ∧ m < 10 ^ Integer.digitLimit := by
  cases n with
  | none => exact .inl rfl
  | some n =>
    obtain ⟨m, rfl, hlt⟩ := nat_of_intParameter? h
    by_cases hzero : (m : Int) = 0
    · exact .inl (if_neg (by simpa using hzero))
    · exact .inr ⟨m, rfl, if_pos (by simpa using hzero), hlt⟩

/-! ## Exact numbers -/

theorem head?_filter_space {cs : List Char} {c : Char} (h : cs.head? = some c)
    (hblank : Text.isBlank c = false) : (cs.filter (· ≠ ' ')).head? = some c := by
  obtain ⟨rest, rfl⟩ := List.head?_eq_some_iff.mp h
  have hspace : c ≠ ' ' := by
    rintro rfl
    cases hblank
  rw [List.filter_cons_of_pos (by simpa using hspace), List.head?_cons]

/-- The text without its spaces begins and ends as before, when no blank stands there. -/
theorem trim_filter_space {cs : List Char} (h : Text.trim cs = cs) :
    Text.trim (cs.filter (· ≠ ' ')) = cs.filter (· ≠ ' ') := by
  have hends : ∀ {ds : List Char}, (∀ d, ds.head? = some d → Text.isBlank d = false) →
      ∀ c, (ds.filter (· ≠ ' ')).head? = some c → Text.isBlank c = false := by
    intro ds hds c hc
    cases ds with
    | nil => cases hc
    | cons d ds =>
      have hd := hds d rfl
      rw [head?_filter_space rfl hd] at hc
      cases hc
      exact hd
  refine Text.trim_eq_self_of_ends ?_ fun c hc => ?_
  · exact hends fun d hd => Text.isBlank_head_trim (h.symm ▸ hd)
  · rw [← List.head?_reverse, ← List.filter_reverse] at hc
    refine hends (fun d hd => ?_) c hc
    rw [List.head?_reverse] at hd
    exact Text.isBlank_getLast_trim (h.symm ▸ hd)

/-- The format of an exact number says nothing more, or it has a precision without spaces that stands
in the spelling. -/
theorem decimalFormat_cases (spelling : String) :
    decimalFormat spelling = "decimal" ∨
      ∃ part, decimalFormat spelling = "decimal(" ++ String.ofList part ++ ")" ∧ part ≠ [] ∧
        ' ' ∉ part ∧ ')' ∉ part ∧ Text.trim part = part ∧ part ⊆ spelling.toList := by
  unfold decimalFormat
  split
  · rename_i p hp
    obtain ⟨hp, hne⟩ := Option.filter_eq_some_iff.mp hp
    unfold parameter? at hp
    split at hp
    · cases hp
    · rename_i front rest hopen
      obtain ⟨⟨inside, behind⟩, hclose, rfl⟩ := Option.map_eq_some_iff.mp hp
      have hspelling := (Text.cutFirst?_eq_some hopen).1
      obtain ⟨hrest, hclosed⟩ := Text.cutFirst?_eq_some hclose
      have hsubset : (Text.trim inside).filter (· ≠ ' ') ⊆ inside :=
        List.Subset.trans (List.filter_subset_self _) (Text.trim_subset inside)
      refine .inr ⟨(Text.trim inside).filter (· ≠ ' '), by rw [String.toList_ofList], ?_, by simp,
        fun hc => hclosed (hsubset hc), trim_filter_space (Text.trim_trim inside), ?_⟩
      · intro hnil
        cases htrim : Text.trim inside with
        | nil =>
          simp only [htrim] at hne
          cases hne
        | cons c cs =>
          have hhead : (Text.trim inside).head? = some c := by rw [htrim]; rfl
          have hfirst := head?_filter_space hhead (Text.isBlank_head_trim hhead)
          rw [hnil] at hfirst
          cases hfirst
      · intro c hc
        rw [hspelling, hrest]
        simp [hsubset hc]
  · exact .inl rfl

/-- The precision of an exact number is what follows in its format, and in its spelling. -/
theorem spelled_parenthesised (word : String) (part : List Char) :
    Spelled word part "" (word ++ parenthesised ("decimal(" ++ String.ofList part ++ ")")) := by
  simp only [Spelled, parenthesised, String.toList_append, String.toList_ofList]
  rfl

theorem isExactFormat_decimal (part : String) : isExactFormat ("decimal(" ++ part ++ ")") = true := by
  simp only [isExactFormat, startsWithAny, List.any, Text.startsWith, String.toList_append]
  rfl

/-- The precision of an exact number is read back. -/
theorem Spelled.decimalFormat_eq {word tail spelling : String} {part : List Char}
    (h : Spelled word part tail spelling) (hword : isWord word) (hpart : IsPart part)
    (hne : part ≠ []) (hspace : ' ' ∉ part) :
    decimalFormat spelling = "decimal(" ++ String.ofList part ++ ")" := by
  have hempty : (String.ofList part).isEmpty = false := by
    rw [Bool.eq_false_iff, Ne, String.isEmpty_iff]
    exact fun hnil => hne (String.ofList_eq_empty_iff.mp hnil)
  have hfilter : part.filter (· ≠ ' ') = part :=
    List.filter_eq_self.mpr fun c hc => by simpa using ne_of_mem_of_not_mem hc hspace
  simp only [decimalFormat, h.parameter?_eq hword hpart, Option.filter_some, hempty, Bool.not_false,
    if_true, String.toList_ofList, hfilter]

end TableOps.NativeType
