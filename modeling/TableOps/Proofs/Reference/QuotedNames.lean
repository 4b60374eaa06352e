import Mathlib.Data.List.Infix
import TableOps.Definition.Column
import TableOps.Proofs.Reference.PlainNames
import TableOps.Proofs.Text.Quotes

/-!
# Quoted names as a server reads them

A name is written between marks, with the marks inside it doubled, and a server reads no escapes in it.
Outside of quoted names it reads words and single characters, and skips the blanks between them.

* `Text.readName` — a quoted name as a server reads it, with what is left behind it.
* `Text.Lexeme`, `Text.lexemes` — a text as a server reads it.
* `Text.lexemes_parts`, `Dialect.lexemes_path` — a path is read part by part.

Main statement: `Dialect.quoted_names_read`, a quoted name is read as itself, and a column reference
that is a path is read as the parts of the path and the alias.
-/

namespace TableOps

namespace Text

/-- A quoted name at the front of a text: the name, and what stands behind it. -/
def readName (mark : Char) (cs : List Char) : Option (List Char × List Char) :=
  readQuoted mark false cs

variable {mark c : Char} {behind : List Char}

/-! ## Texts -/

/-- What a server reads in a text. -/
inductive Lexeme where
  /-- A quoted name. -/
  | name (text : String)
  /-- A word that stands bare. -/
  | word (text : String)
  /-- Any other character. -/
  | symbol (c : Char)
  deriving DecidableEq, Repr

/-- A text as a server reads it: quoted names, words, and characters that are part of neither; blanks
are skipped. There is no reading when a quoted name does not end. -/
def lexemes (mark : Char) (cs : List Char) : Option (List Lexeme) :=
  match cs with
  | [] => some []
  | c :: cs =>
    if c = mark then
      match _h : readOpen mark false cs with
      | some (name, behind) => (lexemes mark behind).map (.name (String.ofList name) :: ·)
      | none => none
    else if isBlank c then lexemes mark cs
    else if Reference.isNameChar c then
      (lexemes mark (cs.dropWhile Reference.isNameChar)).map
        (.word (String.ofList (c :: cs.takeWhile Reference.isNameChar)) :: ·)
    else (lexemes mark cs).map (.symbol c :: ·)
termination_by cs.length
decreasing_by
  · exact Nat.lt_succ_of_lt (length_lt_of_readOpen _h)
  · exact Nat.lt_succ_self _
  · exact Nat.lt_succ_of_le (List.length_dropWhile_le _ _)
  · exact Nat.lt_succ_self _

theorem lexemes_nil (mark : Char) : lexemes mark [] = some [] := by
  rw [lexemes]

/-- A quoted name is read up to its closing mark. -/
theorem lexemes_quoted (h : behind.head? ≠ some mark) (name : List Char) :
    lexemes mark (quotedChars mark name ++ behind) =
      (lexemes mark behind).map (.name (String.ofList name) :: ·) := by
  have hread := readOpen_doubled h name
  rw [quotedChars, List.append_assoc, List.cons_append, List.singleton_append, lexemes, if_pos rfl]
  split
  · rename_i name' behind' hread'
    cases hread.symm.trans hread'
    rfl
  · rename_i hread'
    cases hread.symm.trans hread'

theorem lexemes_blank (hmark : c ≠ mark) (h : isBlank c = true) (cs : List Char) :
    lexemes mark (c :: cs) = lexemes mark cs := by
  rw [lexemes, if_neg hmark, if_pos h]

theorem lexemes_symbol (hmark : c ≠ mark) (hblank : isBlank c = false)
    (hname : Reference.isNameChar c = false) (cs : List Char) :
    lexemes mark (c :: cs) = (lexemes mark cs).map (.symbol c :: ·) := by
  rw [lexemes, if_neg hmark, if_neg (by simp [hblank]), if_neg (by simp [hname])]

/-- A word is read up to the first character that is part of no word. -/
theorem lexemes_word (hmark : c ≠ mark) (h : ∀ d ∈ c :: cs, Reference.isNameChar d = true)
    (hbehind : behind.head?.all (!Reference.isNameChar ·) = true) :
    lexemes mark (c :: cs ++ behind) =
      (lexemes mark behind).map (.word (String.ofList (c :: cs)) :: ·) := by
  obtain ⟨hc, hcs⟩ := List.forall_mem_cons.mp h
  have hblank : ¬ isBlank c = true := by simp [Reference.isBlank_of_isNameChar hc]
  have hend : behind.takeWhile Reference.isNameChar = [] ∧
      behind.dropWhile Reference.isNameChar = behind := by
    cases behind with
    | nil => exact ⟨rfl, rfl⟩
    | cons d behind =>
      have hd : ¬ Reference.isNameChar d = true := by simpa using hbehind
      exact ⟨List.takeWhile_cons_of_neg hd, List.dropWhile_cons_of_neg hd⟩
  rw [List.cons_append, lexemes, if_neg hmark, if_neg hblank, if_pos hc,
    List.takeWhile_append_of_pos hcs, List.dropWhile_append_of_pos hcs, hend.1, hend.2,
    List.append_nil]

/-! ## Paths -/

/-- A part of a path as it is to be read: a star stands bare, any other part is a name. -/
def Lexeme.ofPart (part : String) : Lexeme :=
  if part = "*" then .symbol '*' else .name part

/-- A part of a path is read as what it is. -/
theorem lexemes_part (engine : Engine) (h : behind.head? ≠ some engine.quoteMark) (part : List Char) :
    lexemes engine.quoteMark (Dialect.partChars engine.quoteMark part ++ behind) =
      (lexemes engine.quoteMark behind).map (Lexeme.ofPart (String.ofList part) :: ·) := by
  unfold Dialect.partChars Lexeme.ofPart
  by_cases hstar : part = ['*']
  · have hmark : '*' ≠ engine.quoteMark := by cases engine <;> decide
    rw [if_pos hstar, hstar, if_pos (by rfl), List.singleton_append,
      lexemes_symbol hmark (by decide) (by decide)]
  · have hpart : String.ofList part ≠ "*" := fun heq =>
      hstar (by simpa using congrArg String.toList heq)
    rw [if_neg hstar, if_neg hpart, lexemes_quoted h]

/-- Parts that are quoted one by one are read one by one, whatever stands behind them but a mark. -/
theorem lexemes_parts (engine : Engine) (h : behind.head? ≠ some engine.quoteMark)
    {parts : List (List Char)} (hparts : parts ≠ []) :
    lexemes engine.quoteMark
        (List.intercalate ['.'] (parts.map (Dialect.partChars engine.quoteMark)) ++ behind) =
      (lexemes engine.quoteMark behind).map
        ((parts.map (Lexeme.ofPart ∘ String.ofList)).intersperse (.symbol '.') ++ ·) := by
  induction parts with
  | nil => exact absurd rfl hparts
  | cons part parts ih =>
    cases parts with
    | nil => simpa using lexemes_part engine h part
    | cons part' parts =>
      have hdot : '.' ≠ engine.quoteMark := by cases engine <;> decide
      have hrest := ih (List.cons_ne_nil _ _)
      rw [List.map_cons] at hrest
      -- a dot ends the part in front of it
      rw [List.map_cons, List.map_cons, List.intercalate_cons_cons, List.append_assoc,
        List.append_assoc, List.singleton_append, lexemes_part engine (by simpa using hdot),
        lexemes_symbol hdot (by decide) (by decide), hrest, Option.map_map, Option.map_map]
      rfl

end Text

/-! ## References -/

open Reference

/-- A column reference as it is to be read: the parts of its path with dots between them, and its alias
behind `AS`. -/
def Text.Lexeme.ofReference (ref : String) : List Lexeme :=
  ((pathParts (splitAlias ref).1).map ofPart).intersperse (.symbol '.') ++
    match (splitAlias ref).2 with
    | some aliasName => [.word "AS", .name aliasName]
    | none => []

namespace Reference

theorem star_not_mem_of_isPathParts {parts : List (List Char)} (h : isPathParts parts = true) :
    ['*'] ∉ parts.dropLast := by
  fun_induction isPathParts parts with
  | case1 => cases h
  | case2 part => simp
  | case3 part parts hne ih =>
    rw [Bool.and_eq_true] at h
    rw [List.dropLast_cons_of_ne_nil hne, List.mem_cons, not_or]
    refine ⟨?_, ih h.2⟩
    rintro rfl
    exact absurd h.1 (by decide)

/-- Only the last part of a path can be a star. -/
theorem star_not_mem_dropLast {path : String} (h : isIdentifierPath path = true) :
    "*" ∉ (pathParts path).dropLast := by
  rw [pathParts, ← List.map_dropLast]
  intro hstar
  obtain ⟨part, hpart, heq⟩ := List.mem_map.mp hstar
  have hchars : part = ['*'] := by simpa using congrArg String.toList heq
  exact star_not_mem_of_isPathParts h (hchars ▸ hpart)

end Reference

namespace Dialect

variable (d : Dialect)

/-- A path is read part by part. -/
theorem lexemes_path (path : String) {behind : List Char}
    (h : behind.head? ≠ some d.engine.quoteMark) :
    Text.lexemes d.engine.quoteMark ((d.path path).toList ++ behind) =
      (Text.lexemes d.engine.quoteMark behind).map
        (((pathParts path).map Text.Lexeme.ofPart).intersperse (.symbol '.') ++ ·) := by
  rw [toList_path, Text.lexemes_parts d.engine h (Text.splitOn_ne_nil '.' path.toList), pathParts,
    List.map_map]

/-- An alias is read behind its word. -/
theorem lexemes_alias (aliasName : String) :
    Text.lexemes d.engine.quoteMark (" AS " ++ d.identifier aliasName).toList =
      some [.word "AS", .name aliasName] := by
  have hspace : ' ' ≠ d.engine.quoteMark := by cases d.engine <;> decide
  have hA : 'A' ≠ d.engine.quoteMark := by cases d.engine <;> decide
  have hchars : (" AS " ++ d.identifier aliasName).toList =
      ' ' :: (['A', 'S'] ++ ' ' :: (Text.quotedChars d.engine.quoteMark aliasName.toList ++ [])) := by
    rw [String.toList_append, toList_identifier, List.append_nil]
    rfl
  have hword : ∀ c ∈ ['A', 'S'], isNameChar c = true := by
    rw [List.forall_mem_cons, List.forall_mem_singleton]
    exact ⟨by decide, by decide⟩
  have hend (cs : List Char) : (' ' :: cs).head?.all (!isNameChar ·) = true := by
    show (!isNameChar ' ') = true
    decide
  rw [hchars, Text.lexemes_blank hspace (by decide), Text.lexemes_word hA hword (hend _),
    Text.lexemes_blank hspace (by decide), Text.lexemes_quoted (by simp), Text.lexemes_nil,
    String.ofList_toList]
  rfl

/-- A quoted name is read as itself, up to what stands behind it, unless that begins with a mark; names
in definitions are quoted in the same way. So a column reference that is a path is read as the parts of
the path, of which only the last one can be a star, and the alias. -/
theorem quoted_names_read :
    (∀ (name : String) (behind : List Char),
      Text.readName d.engine.quoteMark ((d.identifier name).toList ++ behind) =
          some (name.toList, behind) ↔
        behind.head? ≠ some d.engine.quoteMark) ∧
      (∀ name : String, d.engine.identifier name = d.identifier name) ∧
      ∀ ref : String, isIdentifierPath (splitAlias ref).1 = true →
        "*" ∉ (pathParts (splitAlias ref).1).dropLast ∧
          Text.lexemes d.engine.quoteMark (d.columnText ref).toList =
            some (Text.Lexeme.ofReference ref) := by
  refine ⟨fun name behind => ?_, fun _ => rfl, fun ref hpath => ⟨star_not_mem_dropLast hpath, ?_⟩⟩
  · rw [toList_identifier, Text.readName, Text.readQuoted_eq_some_iff, and_iff_right rfl]
  · unfold columnText Text.Lexeme.ofReference
    cases halias : (splitAlias ref).2 with
    | none =>
      have hread := @lexemes_path d (splitAlias ref).1 [] (by simp)
      rw [List.append_nil, Text.lexemes_nil] at hread
      simpa [halias, columnExpression, hpath] using hread
    | some aliasName =>
      have hbehind : (" AS " ++ d.identifier aliasName).toList.head? ≠ some d.engine.quoteMark := by
        rw [String.toList_append]
        cases d.engine <;> simp [Engine.quoteMark]
      have hread := d.lexemes_path (splitAlias ref).1 hbehind
      rw [d.lexemes_alias, ← String.toList_append] at hread
      simpa [halias, columnExpression, hpath, String.append_assoc] using hread

theorem quoted_names_read_everyone :
    isIdentifierPath (splitAlias "mydb.psn.* everyone").1 = true ∧
      Text.lexemes '\x60' "`mydb`.`psn`.* AS `everyone`".toList =
        some [.name "mydb", .symbol '.', .name "psn", .symbol '.', .symbol '*', .word "AS",
          .name "everyone"] := by
  have hpath : isIdentifierPath (splitAlias "mydb.psn.* everyone").1 = true := by decide +kernel
  have htext : (standard .mysql).columnText "mydb.psn.* everyone" =
      "`mydb`.`psn`.* AS `everyone`" := by decide +kernel
  have hparts : Text.Lexeme.ofReference "mydb.psn.* everyone" =
      [.name "mydb", .symbol '.', .name "psn", .symbol '.', .symbol '*', .word "AS",
        .name "everyone"] := by decide +kernel
  have hread := ((standard .mysql).quoted_names_read.2.2 "mydb.psn.* everyone" hpath).2
  rw [htext, hparts] at hread
  exact ⟨hpath, hread⟩

end Dialect

end TableOps
