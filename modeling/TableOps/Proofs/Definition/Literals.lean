import Mathlib.Data.List.Basic
import TableOps.Definition.Table
import TableOps.Proofs.Except
import TableOps.Proofs.Text.Quotes

/-!
# Literals as a server reads them

A text in a definition stands between quotes, with the quotes inside it doubled. A server reads it
from the left: a doubled quote is a quote of the value, a single one ends the literal. MySQL also reads
a backslash together with the character behind it, so a value with a backslash is read back only where
the server keeps the backslash.

* `Engine.readLiteral` — a literal as the server of an engine reads it, with what is left behind it.
* `Literal.Kept` — every backslash is one that MySQL keeps.
* `Literal.readOpen_iff` — when a text with doubled quotes is read back.

Main statement: `Engine.literal_read_iff`, a text is read back on PostgreSQL always, and on MySQL
exactly when its backslashes are kept. `Engine.literal_misread` shows a literal that does not end where
it should.
-/

namespace TableOps

namespace Literal

/-- Every backslash stands in front of a character with which it is kept. -/
def Kept (cs : List Char) : Prop :=
  ∀ front back, cs = front ++ '\\' :: back → back.head? = some '%' ∨ back.head? = some '_'

end Literal

open Literal

namespace Engine

/-- A backslash in a literal is read together with the character behind it. -/
def readsEscapes : Engine → Bool
  | .mysql => true
  | .postgres => false

/-- A literal at the front of a text: its value, and what stands behind it. -/
def readLiteral (engine : Engine) (cs : List Char) : Option (List Char × List Char) :=
  Text.readQuoted '\'' engine.readsEscapes cs

end Engine

/-! ## Kept backslashes -/

namespace Literal

open Text

theorem kept_nil : Kept [] := fun front back h => by simp at h

/-- A backslash is kept or not by the character behind it alone. -/
theorem kept_cons {c : Char} {cs : List Char} :
    Kept (c :: cs) ↔ (c = '\\' → cs.head? = some '%' ∨ cs.head? = some '_') ∧ Kept cs := by
  constructor
  · intro h
    refine ⟨fun hc => h [] cs (by rw [hc]; rfl), fun front back hcs => ?_⟩
    exact h (c :: front) back (by rw [hcs]; rfl)
  · rintro ⟨hc, hcs⟩ front back heq
    cases front with
    | nil =>
      obtain ⟨rfl, rfl⟩ := List.cons.inj heq
      exact hc rfl
    | cons d front => exact hcs front back (List.cons.inj heq).2

theorem kept_cons_of_ne {c : Char} {cs : List Char} (h : c ≠ '\\') : Kept (c :: cs) ↔ Kept cs := by
  rw [kept_cons, and_iff_right fun hc => absurd hc h]

/-- A backslash is read only where two of them stand, or where it is kept. -/
theorem of_unescaped_append {d : Char} {rest tail : List Char}
    (h : unescaped d ++ rest = '\\' :: tail) : (d = '\\' ∧ rest = tail) ∨ d = '%' ∨ d = '_' := by
  unfold unescaped at h
  split at h <;> simp_all

theorem unescaped_of_kept {d : Char} (h : d = '%' ∨ d = '_') : unescaped d = ['\\', d] := by
  rcases h with rfl | rfl <;> rfl

theorem count_unescaped_le (d : Char) : (unescaped d).count '\\' ≤ ['\\', d].count '\\' := by
  unfold unescaped
  split
  all_goals first
    | decide
    | exact (List.sublist_cons_self _ _).count_le _

/-! ## Reading -/

variable {escapes : Bool} {cs behind : List Char}

/-- Reading brings no backslashes into a text. -/
theorem count_backslash_le {value : List Char} (h : readOpen '\'' escapes cs = some (value, behind)) :
    value.count '\\' + behind.count '\\' ≤ cs.count '\\' := by
  fun_induction readOpen '\'' escapes cs generalizing value with
  | case1 => cases h
  | case2 =>
    cases h
    exact Nat.zero_le _
  | case3 => cases h
  | case4 cs ih =>
    obtain ⟨rest, hrest, rfl⟩ := eq_append_of_map_prepend h
    have := ih hrest
    simpa using this
  | case5 d cs hd =>
    cases h
    simp
  | case6 c d cs hquote hescape ih =>
    obtain ⟨rest, hrest, rfl⟩ := eq_append_of_map_prepend h
    have hcount := count_unescaped_le d
    have := ih hrest
    rw [List.count_append, hescape.2, show '\\' :: d :: cs = ['\\', d] ++ cs from rfl,
      List.count_append]
    omega
  | case7 c d cs hquote hescape ih =>
    obtain ⟨rest, hrest, rfl⟩ := eq_append_of_map_prepend h
    have := ih hrest
    rw [List.count_append, show c :: d :: cs = [c] ++ d :: cs from rfl, List.count_append]
    omega

/-- A backslash that is not kept is not read back: it takes the closing quote or the first of two
quotes with it, or it is one of two backslashes that are read as one. -/
theorem readOpen_ne_of_lost (h : ¬ (cs.head? = some '%' ∨ cs.head? = some '_'))
    (behind : List Char) :
    readOpen '\'' true ('\\' :: (doubled '\'' cs ++ '\'' :: behind)) ≠ some ('\\' :: cs, behind) := by
  intro hread
  cases cs with
  | nil =>
    rw [doubled, List.nil_append, readOpen_escape (by decide)] at hread
    obtain ⟨rest, -, heq⟩ := eq_append_of_map_prepend hread
    cases heq
  | cons d cs =>
    rw [List.head?_cons, Option.some_inj, Option.some_inj] at h
    by_cases hquote : d = '\''
    · subst hquote
      rw [doubled, if_pos rfl, List.cons_append, readOpen_escape (by decide)] at hread
      obtain ⟨rest, -, heq⟩ := eq_append_of_map_prepend hread
      cases heq
    · rw [doubled, if_neg hquote, List.cons_append, readOpen_escape (by decide)] at hread
      obtain ⟨rest, hrest, heq⟩ := eq_append_of_map_prepend hread
      rcases of_unescaped_append heq.symm with ⟨rfl, rfl⟩ | hkept
      · -- more backslashes would have been read than there are
        have hcount := count_backslash_le hrest
        rw [List.count_append, count_doubled_of_ne (by decide), List.count_cons_self,
          List.count_cons_of_ne (by decide)] at hcount
        omega
      · exact h hkept

/-- A text whose quotes are doubled is read back by a server that reads escapes exactly when it keeps
every backslash. The recursion goes two characters on where a backslash is kept. -/
theorem readOpen_iff_kept (hbehind : behind.head? ≠ some '\'') :
    ∀ cs, readOpen '\'' true (doubled '\'' cs ++ '\'' :: behind) = some (cs, behind) ↔ Kept cs
  | [] => iff_of_true (readOpen_mark hbehind) kept_nil
  | c :: cs => by
    by_cases hquote : c = '\''
    · subst hquote
      rw [doubled, if_pos rfl, List.cons_append, List.cons_append, readOpen_marks]
      refine (map_prepend_eq_some_iff ['\'']).trans ?_
      rw [readOpen_iff_kept hbehind cs, kept_cons_of_ne (by decide)]
    rw [doubled, if_neg hquote, List.cons_append]
    by_cases hescape : c = '\\'
    · subst hescape
      rw [kept_cons, forall_prop_of_true rfl]
      by_cases hkept : cs.head? = some '%' ∨ cs.head? = some '_'
      · obtain ⟨d, cs, rfl, hd⟩ : ∃ d rest, cs = d :: rest ∧ (d = '%' ∨ d = '_') := by
          rcases hkept with h | h <;> obtain ⟨rest, rfl⟩ := List.head?_eq_some_iff.mp h <;>
            exact ⟨_, rest, rfl, by simp⟩
        have hplain : d ≠ '\'' ∧ d ≠ '\\' := by rcases hd with rfl | rfl <;> decide
        rw [doubled, if_neg hplain.1, List.cons_append, readOpen_escape (by decide),
          unescaped_of_kept hd]
        refine (map_prepend_eq_some_iff ['\\', d]).trans ?_
        rw [readOpen_iff_kept hbehind cs, and_iff_right hkept, kept_cons_of_ne hplain.2]
      · exact iff_of_false (readOpen_ne_of_lost hkept behind) fun h => hkept h.1
    · rw [readOpen_plain hquote fun h => hescape h.2]
      refine (map_prepend_eq_some_iff [c]).trans ?_
      rw [readOpen_iff_kept hbehind cs, kept_cons_of_ne hescape]

/-- A text whose quotes are doubled is read back up to its closing quote exactly when the server reads
no backslashes, or keeps all of them. -/
theorem readOpen_iff (escapes : Bool) (hbehind : behind.head? ≠ some '\'') (cs : List Char) :
    readOpen '\'' escapes (doubled '\'' cs ++ '\'' :: behind) = some (cs, behind) ↔
      (escapes = true → Kept cs) := by
  cases escapes with
  | false => exact iff_of_true (readOpen_doubled hbehind cs) nofun
  | true => rw [readOpen_iff_kept hbehind, forall_prop_of_true rfl]

end Literal

namespace Engine

/-! ## Where literals stand -/

/-- A text that is no keyword is written between quotes. -/
theorem toList_textLiteral {s : String} (h : Text.upper s ∉ defaultKeywords) :
    (textLiteral s).toList = '\'' :: (Text.doubled '\'' s.toList ++ ['\'']) := by
  rw [textLiteral, if_neg (by simpa using h), Text.quoted, String.toList_ofList, Text.quotedChars,
    List.cons_append]

/-- The default of a column stands behind its word, and no quote stands behind the default. -/
theorem exists_default_clause (engine : Engine) {o : ColumnOptions} {s : String}
    (h : o.default = .text s) :
    ∃ front behind, engine.columnOptions o = .ok (front ++ " DEFAULT " ++ textLiteral s ++ behind) ∧
      behind.toList.head? ≠ some '\'' := by
  have hcommon : commonOptions o =
      .ok ((if o.notNull = some true then " NOT NULL" else "") ++ " DEFAULT " ++ textLiteral s) := by
    rw [commonOptions, h, String.append_assoc]
    rfl
  cases engine with
  | postgres =>
    exact ⟨_, "", by rw [columnOptions, hcommon, String.append_empty], by decide⟩
  | mysql =>
    refine ⟨_, _, by rw [columnOptions, hcommon, Except.map, String.append_assoc], ?_⟩
    split
    · exact fun hquote => absurd hquote (by simp)
    · split
      · simp
      · simp

/-- The comment of a column stands at the end. -/
theorem exists_comment_clause {o : ColumnOptions} {s : String} (h : o.comment = some s)
    (hne : s ≠ "") {clauses : String} (hclauses : mysql.columnOptions o = .ok clauses) :
    ∃ front, clauses = front ++ " COMMENT " ++ textLiteral s := by
  have hcomment : o.comment.filter (!·.isEmpty) = some s := by
    simpa [h, Option.filter_some] using hne
  obtain ⟨common, -, rfl⟩ := ok_of_map hclauses
  refine ⟨common ++ (if o.autoIncrement = some true then " AUTO_INCREMENT" else ""), ?_⟩
  simp only [hcomment, String.append_assoc]

/-- The comment of a table stands at the end. -/
theorem exists_table_comment {options : Entries Value} {s : String}
    (h : options.get? "comment" = some (.text s)) (hne : s ≠ "") {clauses : String}
    (hclauses : mysql.tableOptions options = .ok clauses) :
    ∃ front, clauses = front ++ " COMMENT=" ++ textLiteral s := by
  have hcomment : tableOption options "comment" " COMMENT=" defaultLiteral =
      .ok (" COMMENT=" ++ textLiteral s) := by
    have htruthy : (options.get? "comment").filter Value.truthy = some (.text s) := by
      simpa [h, Option.filter_some, Value.truthy] using hne
    rw [tableOption, htruthy]
    rfl
  obtain ⟨engine, -, hclauses⟩ := ok_of_bind hclauses
  obtain ⟨charset, -, hclauses⟩ := ok_of_bind hclauses
  obtain ⟨collation, -, hclauses⟩ := ok_of_bind hclauses
  rw [hcomment] at hclauses
  cases hclauses
  exact ⟨engine ++ charset ++ collation, by simp only [String.append_assoc]⟩

/-! ## Literals that are read back -/

/-- A text that is no keyword is read back from its literal, whatever stands behind it but a quote: on
PostgreSQL always, and on MySQL exactly when its backslashes are kept. This is the literal of a default
on both engines, behind which no quote stands, and of the comment of a column or a table on MySQL. -/
theorem literal_read_iff (engine : Engine) {s : String} (hkeyword : Text.upper s ∉ defaultKeywords) :
    ∃ literal, defaultLiteral (.text s) = .ok literal ∧
      (∀ behind : List Char, behind.head? ≠ some '\'' →
        (engine.readLiteral (literal.toList ++ behind) = some (s.toList, behind) ↔
          (engine = .mysql → Kept s.toList))) ∧
      (∀ o : ColumnOptions, o.default = .text s → ∃ front behind,
        engine.columnOptions o = .ok (front ++ " DEFAULT " ++ literal ++ behind) ∧
          behind.toList.head? ≠ some '\'') ∧
      (∀ o : ColumnOptions, o.comment = some s → s ≠ "" →
        ∀ clauses, mysql.columnOptions o = .ok clauses → ∃ front,
          clauses = front ++ " COMMENT " ++ literal) ∧
      ∀ options : Entries Value, options.get? "comment" = some (.text s) → s ≠ "" →
        ∀ clauses, mysql.tableOptions options = .ok clauses → ∃ front,
          clauses = front ++ " COMMENT=" ++ literal := by
  refine ⟨textLiteral s, rfl, fun behind hbehind => ?_, fun o => exists_default_clause engine,
    fun o h hne clauses => exists_comment_clause h hne,
    fun options h hne clauses => exists_table_comment h hne⟩
  have hreads : engine.readsEscapes = true ↔ engine = .mysql := by cases engine <;> decide
  rw [toList_textLiteral hkeyword, List.cons_append, List.append_assoc, List.singleton_append,
    readLiteral, Text.readQuoted, if_pos rfl, readOpen_iff _ hbehind, hreads]

theorem literal_read_iff_discount :
    Text.upper "it's 5\\% off" ∉ defaultKeywords ∧
      mysql.readLiteral "'it''s 5\\% off' COMMENT 'n'".toList =
        some ("it's 5\\% off".toList, " COMMENT 'n'".toList) := by
  have hkeyword : Text.upper "it's 5\\% off" ∉ defaultKeywords := by decide +kernel
  obtain ⟨literal, hliteral, hread, -⟩ := literal_read_iff mysql hkeyword
  have hwritten : defaultLiteral (.text "it's 5\\% off") = .ok "'it''s 5\\% off'" :=
    ok_of_toOption (by decide +kernel)
  obtain rfl := Except.ok.inj (hwritten.symm.trans hliteral)
  refine ⟨hkeyword, (hread " COMMENT 'n'".toList (by decide)).mpr fun _ => ?_⟩
  simp [kept_cons, kept_nil]

/-- A backslash at the end of a value takes the closing quote with it: the clause behind the default
becomes part of the value, and the rest of its comment is read as if it stood outside of quotes. -/
theorem literal_misread :
    mysql.columnOptions
        { ColumnOptions.none with default := .text "a\\", comment := some "or 1=1" } =
      .ok " DEFAULT 'a\\' COMMENT 'or 1=1'" ∧
    mysql.readLiteral "'a\\' COMMENT 'or 1=1'".toList =
      some ("a' COMMENT ".toList, "or 1=1'".toList) ∧
    Text.upper "a\\" ∉ defaultKeywords :=
  ⟨ok_of_toOption (by decide +kernel), by decide +kernel, by decide +kernel⟩

end Engine

end TableOps
