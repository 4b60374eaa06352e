import TableOps.Proofs.Statement.Composed
import TableOps.Proofs.Statement.Placeholders
import TableOps.Proofs.Text.QuotedPath

/-!
# Column references as they are written

A query value that names a column is not bound but written into the statement. What is written is a
quoted path exactly when the reference is plain: it has no alias, and it is a path of identifiers
without a star, or a quoted path already. Any other reference is written at least in part as it
stands.

* `Dialect.IsQuotedPath` — a text in which nothing stands outside of quote marks but dots.
* `Dialect.IsPlain` — the references that are written as such a text.

Main statements: `Dialect.isQuotedPath_columnText_iff`, the references that are written as a quoted
path; `Statement.isQuotedPath_operand_iff`, the same for every leaf of every statement.
-/

namespace TableOps

open Text Reference

namespace Dialect

/-- A text that consists of quoted names with dots between them. -/
def IsQuotedPath (d : Dialect) (text : String) : Prop :=
  QuotedPath d.engine.quoteMark text.toList

/-- A reference without an alias that is a path of identifiers without a star, or no path of
identifiers but a quoted path already. -/
def IsPlain (d : Dialect) (ref : String) : Prop :=
  (splitAlias ref).2 = none ∧
    if isIdentifierPath (splitAlias ref).1 then
      (pathParts (splitAlias ref).1).getLast? ≠ some "*"
    else d.IsQuotedPath (splitAlias ref).1

theorem isQuotedPath_iff_scan (d : Dialect) (text : String) :
    d.IsQuotedPath text ↔ scan d.engine.quoteMark .outside text.toList = some .closing := by
  unfold IsQuotedPath
  apply quotedPath_iff_scan
  cases d.engine <;> decide

/-! ## Paths -/

/-- The characters of a part of a path as it is written. -/
def partChars (mark : Char) (part : List Char) : List Char :=
  if part = ['*'] then part else quotedChars mark part

theorem toList_path (d : Dialect) (s : String) :
    (d.path s).toList =
      List.intercalate ['.'] ((splitOn '.' s.toList).map (partChars d.engine.quoteMark)) := by
  unfold path pathParts
  rw [String.toList_intercalate, List.map_map, List.map_map]
  congr 2
  funext part
  simp only [Function.comp_apply, partChars]
  by_cases h : part = ['*']
  · have hs : String.ofList part = "*" := by rw [h]
    rw [if_pos hs, if_pos h]
    simp
  · have hs : String.ofList part ≠ "*" := fun hs => h (by simpa using congrArg String.toList hs)
    rw [if_neg hs, if_neg h]
    simp [identifier, quoted]

/-- A path of identifiers is written as a quoted path unless its last part is a star. -/
theorem scan_path {mark : Char} (hdot : mark ≠ '.') (hstar : mark ≠ '*') (parts : List (List Char))
    (h : isPathParts parts = true) :
    scan mark .outside (List.intercalate ['.'] (parts.map (partChars mark))) = some .closing ↔
      parts.getLast? ≠ some ['*'] := by
  induction parts with
  | nil => cases h
  | cons part parts ih =>
    -- only the last part may be a star
    cases parts with
    | nil =>
      rw [List.map_singleton, List.intercalate_singleton, List.getLast?_singleton]
      by_cases hp : part = ['*']
      · rw [partChars, if_pos hp, hp, scan_cons, Place.step, if_neg (Ne.symm hstar)]
        simp
      · have hq := @scan_quoted mark part []
        rw [List.append_nil] at hq
        rw [partChars, if_neg hp, hq]
        simpa [scan] using hp
    | cons part' parts =>
      simp only [isPathParts, Bool.and_eq_true] at h
      have hp : part ≠ ['*'] := by
        rintro rfl
        exact absurd h.1 (by decide)
      rw [List.map_cons, List.map_cons, List.intercalate_cons_cons, ← List.map_cons]
      rw [partChars, if_neg hp, List.append_assoc, scan_quoted, List.singleton_append,
        scan_closing_dot hdot, ih h.2, List.getLast?_cons_cons]

theorem getLast?_pathParts (s : String) :
    (pathParts s).getLast? = some "*" ↔ (splitOn '.' s.toList).getLast? = some ['*'] := by
  unfold pathParts
  rw [List.getLast?_map]
  cases (splitOn '.' s.toList).getLast? with
  | none => simp
  | some part =>
    simp only [Option.map_some, Option.some.injEq]
    constructor
    · intro h
      simpa using congrArg String.toList h
    · intro h
      rw [h]

/-! ## Aliases -/

/-- An identifier begins with a letter or an underscore. -/
theorem head_of_isIdentifierChars {cs : List Char} (h : isIdentifierChars cs = true) :
    ∃ c rest, cs = c :: rest ∧ isNameStart c = true := by
  unfold isIdentifierChars dropFinalNewline at h
  cases cs with
  | nil => cases h
  | cons c rest =>
    refine ⟨c, rest, rfl, ?_⟩
    split at h
    · cases rest with
      | nil => cases h
      | cons d rest =>
        rw [List.dropLast_cons_cons, isName, Bool.and_eq_true] at h
        exact h.1
    · rw [isName, Bool.and_eq_true] at h
      exact h.1

/-- A letter that begins an identifier begins an alias as well. -/
theorem isCaselessLetter_of_isNameStart {c : Char} (h : isNameStart c = true) :
    (isCaselessLetter c || c == '_') = true := by
  unfold isNameStart at h
  unfold isCaselessLetter
  simp only [Bool.or_eq_true] at h ⊢
  rcases h with (h | h) | h
  · exact Or.inl (Or.inl (Or.inl (Or.inl (Or.inl (Or.inl h)))))
  · exact Or.inl (Or.inl (Or.inl (Or.inl (Or.inl (Or.inr h)))))
  · exact Or.inr h

theorem head_of_isAlias {cs : List Char} (h : isAlias cs = true) :
    ∃ c rest, cs = c :: rest ∧ (isCaselessLetter c || c == '_') = true := by
  cases cs with
  | nil => cases h
  | cons c rest =>
    rw [isAlias, Bool.and_eq_true] at h
    exact ⟨c, rest, rfl, h.1⟩

theorem isAlias_of_splitAsAlias? {cs expression word : List Char}
    (h : splitAsAlias? cs = some (expression, word)) : isAlias word = true := by
  unfold splitAsAlias? at h
  dsimp only at h
  split at h
  · rename_i hguard
    simp only [Bool.and_eq_true] at hguard
    rw [Option.some.injEq, Prod.mk.injEq] at h
    rw [← h.2]
    exact hguard.1.1
  · cases h

/-- An alias is a word that may follow `AS`, or an identifier. -/
theorem isAlias_or_isIdentifier {ref aliasName : String} (h : (splitAlias ref).2 = some aliasName) :
    isAlias aliasName.toList = true ∨ isIdentifier aliasName = true := by
  unfold splitAlias at h
  dsimp only at h
  split at h
  · rename_i expression word hsplit
    simp only [Option.some.injEq] at h
    rw [← h, String.toList_ofList]
    exact Or.inl (isAlias_of_splitAsAlias? hsplit)
  · split at h
    · split at h
      · rename_i hguard
        simp only [Option.some.injEq] at h
        simp only [Bool.and_eq_true] at hguard
        rw [← h]
        exact Or.inr hguard.2
      · cases h
    · cases h

/-- An alias begins with a letter or an underscore. -/
theorem head_of_alias {ref aliasName : String} (h : (splitAlias ref).2 = some aliasName) :
    ∃ c rest, aliasName.toList = c :: rest ∧ (isCaselessLetter c || c == '_') = true := by
  rcases isAlias_or_isIdentifier h with hword | hidentifier
  · exact head_of_isAlias hword
  · obtain ⟨c, rest, hc, hstart⟩ := head_of_isIdentifierChars hidentifier
    exact ⟨c, rest, hc, isCaselessLetter_of_isNameStart hstart⟩

/-- A letter or an underscore is neither a mark nor a dot. -/
theorem quoteMark_ne_of_isCaselessLetter (engine : Engine) {c : Char}
    (h : (isCaselessLetter c || c == '_') = true) : c ≠ engine.quoteMark ∧ c ≠ '.' := by
  constructor
  · rintro rfl
    cases engine <;> exact absurd h (by decide)
  · rintro rfl
    exact absurd h (by decide)

/-- What is written with an alias is no quoted path: a name that is open before the alias closes at
its first mark, and the alias follows without a dot. -/
theorem scan_withAlias (engine : Engine) (front : List Char) {c : Char} (rest : List Char)
    (hc : (isCaselessLetter c || c == '_') = true) :
    scan engine.quoteMark .outside
      (front ++ (" AS ".toList ++ quotedChars engine.quoteMark (c :: rest))) = none := by
  obtain ⟨hmark, hdot⟩ := quoteMark_ne_of_isCaselessLetter engine hc
  have hspace : ' ' ≠ engine.quoteMark := by cases engine <;> decide
  have hA : 'A' ≠ engine.quoteMark := by cases engine <;> decide
  have hS : 'S' ≠ engine.quoteMark := by cases engine <;> decide
  have hlead : " AS ".toList = [' ', 'A', 'S', ' '] := rfl
  have hquoted : quotedChars engine.quoteMark (c :: rest) =
      engine.quoteMark :: c :: (doubled engine.quoteMark rest ++ [engine.quoteMark]) := by
    simp [quotedChars, hmark]
  rw [scan_append, hlead, hquoted]
  -- wherever reading the front ends, the alias cannot be read from there
  cases scan engine.quoteMark .outside front with
  | none => rfl
  | some place =>
    cases place <;>
      simp [scan_cons, Place.step, hspace, hA, hS, hmark, hdot]

/-! ## What is written -/

/-- Text that does not begin with a mark is no quoted path. -/
theorem not_isQuotedPath_of_head {d : Dialect} {text : String} {c : Char} {rest : List Char}
    (h : text.toList = c :: rest) (hc : c ≠ d.engine.quoteMark) : ¬ d.IsQuotedPath text := by
  rw [isQuotedPath_iff_scan, h, scan_cons, Place.step, if_neg hc]
  simp

/-- Text behind a `DISTINCT` is no quoted path, and neither is the whole. -/
theorem not_isQuotedPath_of_afterDistinct? {d : Dialect} {expression column : String}
    (h : afterDistinct? expression = some column) : ¬ d.IsQuotedPath expression := by
  unfold afterDistinct? at h
  dsimp only at h
  split at h
  · rename_i hlead
    cases hchars : expression.toList with
    | nil =>
      rw [hchars] at hlead
      exact absurd hlead (by decide)
    | cons c rest =>
      apply not_isQuotedPath_of_head hchars
      rintro rfl
      have hd : distinctLead = 'd' :: "istinct ".toList := by decide
      -- the mark would have to be a letter
      have hfold : foldChar d.engine.quoteMark = 'd' := by
        rw [hchars, hd, List.map_cons, List.isPrefixOf_cons_cons, Bool.and_eq_true, beq_iff_eq] at hlead
        exact hlead.1.symm
      revert hfold
      cases d.engine <;> decide
  · cases h

/-- Raw text is written as a quoted path exactly when it is one. -/
theorem isQuotedPath_raw (d : Dialect) (text : String) :
    d.IsQuotedPath (d.raw text) ↔ d.IsQuotedPath text := by
  rw [isQuotedPath_iff_scan, isQuotedPath_iff_scan]
  have hmark : '%' ≠ d.engine.quoteMark := by cases d.engine <;> decide
  unfold raw
  split
  · rw [String.toList_ofList, scan_doubled hmark (by decide)]
  · exact Iff.rfl

/-- A column reference is written as a quoted path exactly when it is plain. -/
theorem isQuotedPath_columnText_iff (d : Dialect) (ref : String) :
    d.IsQuotedPath (d.columnText ref) ↔ d.IsPlain ref := by
  unfold columnText IsPlain
  cases halias : (splitAlias ref).2 with
  | some aliasName =>
    obtain ⟨c, rest, hname, hc⟩ := head_of_alias halias
    simp only [halias]
    constructor
    · intro h
      rw [isQuotedPath_iff_scan] at h
      simp only [String.toList_append, identifier, quoted, String.toList_ofList, hname,
        List.append_assoc, scan_withAlias d.engine _ rest hc] at h
      cases h
    · intro h
      cases h.1
  | none =>
    simp only [halias, true_and]
    generalize (splitAlias ref).1 = expression
    unfold columnExpression
    -- without an alias it is a path, a path behind a DISTINCT, or raw text
    by_cases hpath : isIdentifierPath expression
    · rw [if_pos hpath, if_pos hpath, isQuotedPath_iff_scan, toList_path, Ne, getLast?_pathParts]
      apply scan_path _ _ _ hpath
      · cases d.engine <;> decide
      · cases d.engine <;> decide
    · rw [if_neg hpath, if_neg hpath]
      cases hdistinct : (afterDistinct? expression).filter isIdentifierPath with
      | some column =>
        have hafter := (Option.filter_eq_some_iff.mp hdistinct).1
        have hwritten : ¬ d.IsQuotedPath ("DISTINCT " ++ d.path column) := by
          have hchars : ("DISTINCT " ++ d.path column).toList =
              'D' :: ("ISTINCT ".toList ++ (d.path column).toList) := by
            rw [String.toList_append]
            rfl
          apply not_isQuotedPath_of_head hchars
          cases d.engine <;> decide
        exact iff_of_false hwritten (not_isQuotedPath_of_afterDistinct? hafter)
      | none => exact d.isQuotedPath_raw expression

end Dialect

/-! ## Statements -/

namespace Statement

/-- A leaf that compares with a column reference stands in the clause with the resolved reference
to the right of its operator. -/
theorem reference_of_whereClause {filter : Option Filter} {query : Entries Value} {table : TableRef}
    {clause : Statement} (h : whereClause filter query table = .ok clause) {l : Leaf}
    (hl : l ∈ Filter.leavesOf? filter) (hop : Operator.ofWording l.op = .binary) {v : Value}
    (hv : query.get? l.column = some v) {ref : String} (href : v.columnRef? = some ref) :
    ∃ before behind,
      clause = before ++ (l.head ++ [.text " ", .column (l.resolve (some table) ref)]) ++ behind := by
  obtain ⟨parts, hparts, hmade⟩ := madeOf_whereClause h
  obtain ⟨p, hp, hpieces⟩ := Filter.LeafPieces.exists_of_mem hparts hl
  obtain ⟨before, behind, hclause⟩ := hmade.exists_append hp
  refine ⟨before, behind, ?_⟩
  -- of the ways in which a leaf is written only one fits the operator and the value
  rcases Leaf.pieces_eq_ok hpieces with ⟨hnone, -⟩ | ⟨v', hv', hwritten⟩
  · rw [hv] at hnone
    cases hnone
  · obtain rfl : v = v' := Option.some.inj (hv.symm.trans hv')
    cases hwritten with
    | unary hop' => cases hop.symm.trans hop'
    | membership hop' => cases hop.symm.trans hop'
    | reference hop' ref' href' =>
      obtain rfl : ref = ref' := Option.some.inj (href.symm.trans href')
      exact hclause
    | alone hop' hnone hn => cases href.symm.trans hnone
    | value hop' hnone hn => cases href.symm.trans hnone

/-- A leaf with a column reference is written as its column, its operator and the text of the
resolved reference. -/
theorem writeFrom_reference (d : Dialect) (n : Nat) (l : Leaf) (ref : String) :
    writeFrom d.writer n (l.head ++ [.text " ", .column ref]) =
      d.columnText l.name ++ " " ++ Operator.wording l.op ++ " " ++ d.columnText ref := by
  simp [writeFrom, Leaf.head, Dialect.writer, String.append_assoc]

/-- Whenever a leaf of a statement compares with a column reference, the text to the right of its
operator is the resolved reference, and it is a quoted path exactly when that reference is plain. -/
theorem isQuotedPath_operand_iff {d : Dialect} {kind : StatementKind} {withTotal : Bool}
    {r : Request} {s : Statement} (h : compose d kind withTotal r = .ok (some s)) {l : Leaf}
    (hl : l ∈ Filter.leavesOf? (r.effectiveFilter kind))
    (hop : Operator.ofWording l.op = .binary) {v : Value}
    (hv : (r.effectiveQuery kind).get? l.column = some v) {ref : String}
    (href : v.columnRef? = some ref) :
    ∃ before operand behind,
      s.write d.writer = before ++ (d.columnText l.name ++ " " ++ Operator.wording l.op ++ " ") ++
        operand ++ behind ∧
      operand = d.columnText (l.resolve (some (r.effectiveTable kind)) ref) ∧
      (d.IsQuotedPath operand ↔ d.IsPlain (l.resolve (some (r.effectiveTable kind)) ref)) := by
  obtain ⟨front, clause, rear, rfl, -, -, hclause⟩ := (composed_of_compose h).clause
  obtain ⟨before, behind, rfl⟩ := reference_of_whereClause hclause hl hop hv href
  have hwhole : ∀ p : Statement, front ++ (before ++ p ++ behind) ++ rear =
      (front ++ before) ++ p ++ (behind ++ rear) := by
    intro p
    simp only [List.append_assoc]
  obtain ⟨first, n, last, hwrite⟩ := exists_write_eq d.writer (front ++ before)
    (l.head ++ [.text " ", .column (l.resolve (some (r.effectiveTable kind)) ref)])
    (behind ++ rear)
  refine ⟨first, d.columnText (l.resolve (some (r.effectiveTable kind)) ref), last, ?_, rfl,
    d.isQuotedPath_columnText_iff _⟩
  rw [hwhole, hwrite, writeFrom_reference]
  simp only [String.append_assoc]

end Statement

/-- The rows of an aliased table whose name is that of another column of theirs. -/
def Request.namesakes : Request where
  expression :=
    { source := ⟨"Person AS psn", ⟨none, "Person", some "psn"⟩, by decide +kernel⟩
      joins := []
      columns := ["age"]
      transformers := []
      filter := some (.leaf (.equals "psn.name"))
      extra := .null }
  data := none
  query := [("name", .text "@nick")]
  fields := none
  page := none
  schema := none

/-- A plain reference is qualified like its leaf and quoted. -/
theorem Statement.isQuotedPath_operand_namesakes :
    ∃ s, compose (Dialect.standard .postgres) (.of .list) true Request.namesakes = .ok (some s) ∧
      Dialect.render (Dialect.standard .postgres) s =
        "SELECT \"age\" FROM \"Person\" AS \"psn\" WHERE \"psn\".\"name\" = \"psn\".\"nick\"" ∧
      ∃ before operand behind,
        s.write (Dialect.standard .postgres).writer =
          before ++ ((Dialect.standard .postgres).columnText "psn.name" ++ " " ++
            Operator.wording "=" ++ " ") ++ operand ++ behind ∧
        operand = (Dialect.standard .postgres).columnText
          ((Leaf.equals "psn.name").resolve
            (some (Request.namesakes.effectiveTable (.of .list))) "nick") ∧
        ((Dialect.standard .postgres).IsQuotedPath operand ↔
          (Dialect.standard .postgres).IsPlain ((Leaf.equals "psn.name").resolve
            (some (Request.namesakes.effectiveTable (.of .list))) "nick")) := by
  have htext : (compose (Dialect.standard .postgres) (.of .list) true
      Request.namesakes).toOption.join.map (Dialect.render (Dialect.standard .postgres)) =
      some "SELECT \"age\" FROM \"Person\" AS \"psn\" WHERE \"psn\".\"name\" = \"psn\".\"nick\"" := by
    decide +kernel
  obtain ⟨s, hs, hrender⟩ := Option.map_eq_some_iff.mp htext
  have hcompose : compose (Dialect.standard .postgres) (.of .list) true Request.namesakes =
      .ok (some s) := ok_of_toOption_join hs
  have hcolumn : (Leaf.equals "psn.name").column = "name" := by decide +kernel
  refine ⟨s, hcompose, hrender, Statement.isQuotedPath_operand_iff hcompose List.mem_cons_self
    (by decide +kernel) (v := .text "@nick") ?_ rfl⟩
  rw [hcolumn]
  rfl

/-- The deletion of the rows with a name, which is given as an expression behind the mark of a
column reference. -/
def Request.wideDeletion : Request where
  expression :=
    { source := ⟨"Person", .ofName "Person", by decide +kernel⟩
      joins := []
      columns := []
      transformers := []
      filter := some (.leaf (.equals "name"))
      extra := .null }
  data := none
  query := [("name", .text "@1=1 OR 1")]
  fields := none
  page := none
  schema := none

/-- A reference that is not plain is written as it stands: here a query value widens a deletion to
all rows. -/
theorem Statement.operand_not_isQuotedPath :
    (∃ s, compose (Dialect.standard .mysql) (.of .delete) true Request.wideDeletion = .ok (some s) ∧
      Dialect.render (Dialect.standard .mysql) s = "DELETE FROM `Person` WHERE `name` = 1=1 OR 1") ∧
      ¬ (Dialect.standard .mysql).IsQuotedPath "1=1 OR 1" := by
  have htext : (compose (Dialect.standard .mysql) (.of .delete) true
      Request.wideDeletion).toOption.join.map (Dialect.render (Dialect.standard .mysql)) =
      some "DELETE FROM `Person` WHERE `name` = 1=1 OR 1" := by decide +kernel
  obtain ⟨s, hs, hrender⟩ := Option.map_eq_some_iff.mp htext
  refine ⟨⟨s, ok_of_toOption_join hs, hrender⟩, ?_⟩
  rw [Dialect.isQuotedPath_iff_scan]
  decide +kernel

end TableOps
