import TableOps.Proofs.Statement.BoundValues
import TableOps.Proofs.Text.Doubled

/-!
# The total of a list

A page and the total of its list are two statements over the same tables with the same restriction,
text and values alike; the clause at the end of the page is left out of the total. What the total
counts is decided by the first column.

* `Dialect.stretch` — a part of a statement as it is sent; `Dialect.stretch_append`, parts in a row.
* `Statement.page_of_compose` — the shape of a page.
* `Statement.isDistinct` — a column that is selected for its distinct values;
  `Statement.countTarget_eq_column_iff`, `Statement.countTarget_eq_rows_iff`, what is counted.
* `Statement.head?_selected` — a selection that keeps the first column.

Main statement: `Statement.total_of_page`, what a total shares with each of its pages.
-/

namespace TableOps

/-! ## Parts of a text that is sent -/

namespace Statement

variable {w : Writer}

/-- A statement without values is written in the same way wherever it stands. -/
theorem writeFrom_of_values_eq_nil {s : Statement} (h : s.values = []) (m n : Nat) :
    writeFrom w m s = writeFrom w n s := by
  rw [writeFrom_eq_alternate, writeFrom_eq_alternate, h]
  rfl

/-- Two statements in a row of which one binds nothing. -/
theorem write_append {s t : Statement} (h : s.values = [] ∨ t.values = []) :
    write w (s ++ t) = write w s ++ write w t := by
  rw [write, writeFrom_append]
  rcases h with h | h
  · rw [h]
    rfl
  · rw [writeFrom_of_values_eq_nil h (1 + s.values.length) 1]
    rfl

end Statement

namespace Dialect

/-- A part of a statement as it is sent, when the whole statement binds `bound` and no value stands
before the part. -/
def stretch (d : Dialect) (bound : List Value) (s : Statement) : String :=
  let text := s.write d.writer
  if d.style = .format ∧ bound = [] then String.ofList (Text.halved '%' text.toList) else text

theorem render_eq_stretch (d : Dialect) (s : Statement) : d.render s = d.stretch s.values s :=
  rfl

/-- Two parts in a row, of which one binds nothing and the second begins with no percent sign. -/
theorem stretch_append (d : Dialect) (bound : List Value) {s t : Statement}
    (hvalues : s.values = [] ∨ t.values = [])
    (hhead : (t.write d.writer).toList.head? ≠ some '%') :
    d.stretch bound (s ++ t) = d.stretch bound s ++ d.stretch bound t := by
  unfold stretch
  rw [Statement.write_append hvalues]
  by_cases hplain : d.style = .format ∧ bound = []
  · simp only [if_pos hplain]
    rw [String.toList_append, Text.halved_append fun _ => hhead, String.ofList_append]
  · simp only [if_neg hplain]

end Dialect

namespace Statement

/-- The text of a statement that begins with wording begins as the wording does. -/
theorem head_write_text {wording : String} {c : Char} (hwording : wording.toList.head? = some c)
    (w : Writer) (s : Statement) : (write w (.text wording :: s)).toList.head? = some c := by
  have hwrite : write w (.text wording :: s) = wording ++ write w s :=
    write_append (s := [.text wording]) (Or.inl rfl)
  rw [hwrite, String.toList_append, List.head?_append, hwording, Option.some_or]

/-! ## Pages -/

/-- The select list of a page and the word before it, with the blank behind it. -/
def pageLead (engine : Engine) (columns : List String) (withTotal : Bool) : Statement :=
  [.text "SELECT "] ++ commaSeparated (items engine columns withTotal) ++ [.text " "]

/-- What a total is selected by, with the blank behind it. -/
def totalLead (target : Piece) : Statement :=
  [.text "SELECT COUNT(", target, .text ") AS ", .name "ct", .text " "]

/-- A list that is composed is a selection, cut to a page if there is one. A page carries the total
when it is asked to. -/
theorem page_of_compose {d : Dialect} {withTotal : Bool} {r : Request} {page : Statement}
    (h : compose d (.of .list) withTotal r = .ok (some page)) :
    ∃ source restriction extra cut,
      fromClause d r.expression.table r.expression.joins = .ok source ∧
      whereClause r.expression.filter r.query r.expression.table = .ok restriction ∧
      extraClause d r.expression = .ok extra ∧
      (cut = [] ∨ ∃ rest, cut = [.text (" LIMIT " ++ rest)]) ∧
      page = pageLead d.engine (selected r.expression r.fields) (r.page.isSome && withTotal) ++
        (source ++ restriction) ++ (extra ++ cut) := by
  unfold compose at h
  cases hpage : r.page with
  | none =>
    simp only [hpage] at h
    obtain ⟨-, source, restriction, extra, hsource, hwhere, hextra, rfl⟩ := selection_of_select? h
    refine ⟨source, restriction, extra, [], hsource, hwhere, hextra, Or.inl rfl, ?_⟩
    simp [selection, pageLead]
  | some p =>
    simp only [hpage] at h
    obtain ⟨s, hs, h⟩ := ok_of_bind h
    cases s with
    | none => cases h
    | some s =>
      obtain ⟨limitText, hlimit, h⟩ := ok_of_bind h
      cases h
      obtain ⟨rest, hrest⟩ := exists_eq_limit hlimit
      obtain ⟨-, source, restriction, extra, hsource, hwhere, hextra, rfl⟩ :=
        selection_of_select? hs
      refine ⟨source, restriction, extra, [.text (" LIMIT " ++ rest)], hsource, hwhere, hextra,
        Or.inr ⟨rest, rfl⟩, ?_⟩
      rw [hrest]
      simp [selection, pageLead]

/-- The total of a list, whose tables and restriction are known. -/
theorem compose_total {d : Dialect} {withTotal : Bool} {r : Request} {source restriction : Statement}
    (hsource : fromClause d r.expression.table r.expression.joins = .ok source)
    (hwhere : whereClause r.expression.filter r.query r.expression.table = .ok restriction) :
    compose d .total withTotal r = .ok (some (totalLead (countTarget r.expression.columns.head?) ++
      (source ++ restriction))) := by
  have hcount : count d r = .ok (counting (countTarget r.expression.columns.head?) source
      restriction) := by
    rw [count, hsource, hwhere]
    rfl
  rw [compose, hcount]
  simp [counting, totalLead]

/-- A statement that is empty or begins with a blank begins with no percent sign. -/
theorem head_ne_percent {s : Statement} (w : Writer)
    (h : s = [] ∨ ∃ wording rest, s = .text (" " ++ wording) :: rest) :
    (s.write w).toList.head? ≠ some '%' := by
  rcases h with rfl | ⟨wording, rest, rfl⟩
  · simp [write, writeFrom, String.join]
  · rw [head_write_text (c := ' ') (by simp) w rest]
    decide

theorem whereClause_begins {filter : Option Filter} {query : Entries Value} {table : TableRef}
    {s : Statement} (h : whereClause filter query table = .ok s) :
    s = [] ∨ ∃ wording rest, s = .text (" " ++ wording) :: rest := by
  obtain ⟨c, -, rfl⟩ := ok_of_map h
  split
  · exact Or.inl rfl
  · exact Or.inr ⟨"WHERE ", c, rfl⟩

theorem extraClause_begins {d : Dialect} {e : Expression} {s cut : Statement}
    (h : extraClause d e = .ok s) (hcut : cut = [] ∨ ∃ rest, cut = [.text (" LIMIT " ++ rest)]) :
    s ++ cut = [] ∨ ∃ wording rest, s ++ cut = .text (" " ++ wording) :: rest := by
  unfold extraClause at h
  split at h
  · cases h
    rcases hcut with rfl | ⟨rest, rfl⟩
    · exact Or.inl rfl
    · exact Or.inr ⟨"LIMIT " ++ rest, [], by rw [← String.append_assoc]; rfl⟩
  · cases h
    exact Or.inr ⟨"", _, rfl⟩
  · cases h
  · cases h

/-- Behind anything that binds nothing, tables and their restriction are sent as they are alone. -/
theorem stretch_source {d : Dialect} {e : Expression} {query : Entries Value}
    {source restriction : Statement} (hsource : fromClause d e.table e.joins = .ok source)
    (hwhere : whereClause e.filter query e.table = .ok restriction) (bound : List Value)
    {lead : Statement} (hlead : lead.values = []) :
    d.stretch bound (lead ++ (source ++ restriction)) =
      d.stretch bound lead ++ (d.stretch bound source ++ d.stretch bound restriction) := by
  have hnone := values_fromClause hsource
  have hhead : ((source ++ restriction).write d.writer).toList.head? ≠ some '%' := by
    obtain ⟨clauses, -, hsource⟩ := ok_of_bind hsource
    cases hsource
    have hfirst : ((write d.writer (.text "FROM " ::
        (.table e.table :: clauses.flatten ++ restriction))).toList.head?) = some 'F' :=
      head_write_text (by decide) d.writer _
    intro hpercent
    cases hfirst.symm.trans hpercent
  rw [d.stretch_append bound (Or.inl hlead) hhead, d.stretch_append bound (Or.inl hnone)
    (head_ne_percent d.writer (whereClause_begins hwhere))]

/-! ## A page and its total -/

/-- A column that is selected for its distinct values. -/
def isDistinct (column : String) : Bool :=
  (Reference.afterDistinct? (Reference.splitAlias column).1).isSome

theorem countTarget_some (first : String) :
    countTarget (some first) =
      if isDistinct first then .column (Reference.splitAlias first).1 else .text "*" :=
  rfl

/-- The distinct values of a column are counted exactly if that column is the first one. -/
theorem countTarget_eq_column_iff {first : Option String} {target : String} :
    countTarget first = .column target ↔
      ∃ column, first = some column ∧ isDistinct column ∧
        (Reference.splitAlias column).1 = target := by
  cases first with
  | none => simp [countTarget]
  | some column =>
    rw [countTarget_some]
    split
    · rename_i hdistinct
      simp [hdistinct]
    · rename_i hplain
      simp [hplain]

/-- The rows are counted exactly if the first column is not selected for its distinct values. -/
theorem countTarget_eq_rows_iff {first : Option String} :
    countTarget first = .text "*" ↔ ∀ column, first = some column → ¬ isDistinct column := by
  cases first with
  | none => simp [countTarget]
  | some column =>
    rw [countTarget_some]
    split
    · rename_i hdistinct
      simp [hdistinct]
    · rename_i hplain
      simp [hplain]

/-- A selection that keeps the first column begins with it. -/
theorem head?_selected {e : Expression} {fields : Option (List String)}
    (hkept : ∀ first, e.columns.head? = some first → first ∈ selected e fields) :
    (selected e fields).head? = e.columns.head? := by
  cases fields with
  | none => rfl
  | some fields =>
    cases hcolumns : e.columns with
    | nil => simp [selected, hcolumns]
    | cons first rest =>
      have hfirst := hkept first (by rw [hcolumns]; rfl)
      have hasked : isAskedFor fields first = true := (List.mem_filter.mp hfirst).2
      rw [selected, hcolumns, List.filter_cons_of_pos hasked]
      rfl

theorem values_pageLead (engine : Engine) (columns : List String) (withTotal : Bool) :
    (pageLead engine columns withTotal).values = [] := by
  rw [pageLead, values_append, values_append, values_items]
  rfl

theorem values_totalLead (first : Option String) : (totalLead (countTarget first)).values = [] := by
  have hcounting := values_counting first [] []
  rw [counting, List.append_nil, List.append_nil] at hcounting
  exact hcounting

/-- What the total of a list has to do with a page of it. -/
structure TotalOf (d : Dialect) (r : Request) (withTotal : Bool) (page total : Statement) : Prop where
  /-- The total does not depend on the page that is asked for. -/
  composed : ∀ (other : Option Page) carried,
    compose d .total carried { r with page := other } = .ok (some total)
  /-- Both bind the same values. -/
  values_eq : total.values = page.values
  /-- Both have the same tables and the same restriction. What else stands in the page is its select
  list and, behind the restriction, its trailing clause and what cuts it out. -/
  texts : ∃ source restriction behind,
    fromClause d r.expression.table r.expression.joins = .ok source ∧
    whereClause r.expression.filter r.query r.expression.table = .ok restriction ∧
    d.render page =
      d.stretch page.values (pageLead d.engine (selected r.expression r.fields)
        (r.page.isSome && withTotal)) ++
        (d.stretch page.values source ++ d.stretch page.values restriction) ++
        d.stretch page.values behind ∧
    d.render total =
      d.stretch page.values (totalLead (countTarget r.expression.columns.head?)) ++
        (d.stretch page.values source ++ d.stretch page.values restriction)
  /-- The distinct values of a column are counted exactly if the expression begins with that column,
  selected for them, whatever is kept of its columns. -/
  distinct : ∀ target, countTarget r.expression.columns.head? = .column target ↔
    ∃ first, r.expression.columns.head? = some first ∧ isDistinct first ∧
      (Reference.splitAlias first).1 = target
  /-- The rows are counted exactly if it begins otherwise. -/
  rows : countTarget r.expression.columns.head? = .text "*" ↔
    ∀ first, r.expression.columns.head? = some first → ¬ isDistinct first
  /-- Where the first column is kept, as it is if nothing is left out, the distinct values of a column
  are counted exactly if the select list of the page begins with that column. -/
  kept : (∀ first, r.expression.columns.head? = some first → first ∈ selected r.expression r.fields) →
    ∀ target, countTarget r.expression.columns.head? = .column target ↔
      ∃ first, (selected r.expression r.fields).head? = some first ∧ isDistinct first ∧
        (Reference.splitAlias first).1 = target
  /-- A select list without a column selected for its distinct values has its rows counted, unless
  such a column is the first one and is left out. -/
  plain : (∀ column ∈ selected r.expression r.fields, ¬ isDistinct column) →
    (countTarget r.expression.columns.head? = .text "*" ↔
      ∀ first, r.expression.columns.head? = some first → isDistinct first →
        first ∈ selected r.expression r.fields)
  /-- Where a page counts its rows in a column of its own, which is before distinct values are taken,
  the total counts the same rows exactly if the expression does not begin with a column selected for
  these. -/
  window : totalItem ∈ items d.engine (selected r.expression r.fields) (r.page.isSome && withTotal) →
    (countTarget r.expression.columns.head? = .text "*" ↔
      ∀ first, r.expression.columns.head? = some first → ¬ isDistinct first)

/-- Every page that is composed has a total, with the same tables, the same restriction and the same
values. -/
theorem total_of_page {d : Dialect} {withTotal : Bool} {r : Request} {page : Statement}
    (h : compose d (.of .list) withTotal r = .ok (some page)) :
    ∃ total, TotalOf d r withTotal page total := by
  obtain ⟨source, restriction, extra, cut, hsource, hwhere, hextra, hcut, hpage⟩ :=
    page_of_compose h
  have hbehind : (extra ++ cut).values = [] := by
    rw [values_append, values_extraClause hextra]
    rcases hcut with rfl | ⟨rest, rfl⟩ <;> rfl
  have hvalues : page.values = (source ++ restriction).values := by
    rw [hpage, values_append, values_append, values_pageLead, hbehind, List.nil_append,
      List.append_nil]
  have htotal : (totalLead (countTarget r.expression.columns.head?) ++
      (source ++ restriction)).values = page.values := by
    rw [hvalues, values_append, values_totalLead, List.nil_append]
  refine ⟨totalLead (countTarget r.expression.columns.head?) ++ (source ++ restriction),
    fun _ _ => compose_total hsource hwhere, htotal,
    ⟨source, restriction, extra ++ cut, hsource, hwhere, ?_, ?_⟩,
    fun _ => countTarget_eq_column_iff, countTarget_eq_rows_iff, ?_, ?_,
    fun _ => countTarget_eq_rows_iff⟩
  · rw [d.render_eq_stretch, ← stretch_source hsource hwhere page.values (values_pageLead _ _ _),
      ← d.stretch_append page.values (Or.inr hbehind)
        (head_ne_percent d.writer (extraClause_begins hextra hcut)), ← hpage]
  · rw [d.render_eq_stretch, htotal,
      ← stretch_source hsource hwhere page.values (values_totalLead _)]
  · intro hkept target
    rw [head?_selected hkept]
    exact countTarget_eq_column_iff
  · intro hplain
    rw [countTarget_eq_rows_iff]
    exact ⟨fun hrows first hfirst hdistinct => absurd hdistinct (hrows first hfirst),
      fun hkept first hfirst hdistinct => hplain first (hkept first hfirst hdistinct) hdistinct⟩

end Statement

/-- The second page of a list of some columns of a joined table, restricted by a comparison. -/
def Request.secondPage (columns : List String) : Request where
  expression :=
    { source := ⟨"Person as psn", ⟨none, "Person", some "psn"⟩, by decide +kernel⟩
      joins := [⟨"Dept", none, some "deptID", none⟩]
      columns := columns
      transformers := []
      filter := some (.leaf ⟨"psn.age", ">=", false⟩)
      extra := .text "ORDER BY psn.name" }
  data := none
  query := [("age", .int 21)]
  fields := none
  page := some ⟨2, Page.defaultSize, Nat.two_pos, Page.defaultSize_pos⟩
  schema := none

namespace Statement

/-- A page that carries the total, and the statement that counts the same rows. -/
theorem total_of_page_window :
    ∃ page total,
      compose ⟨.postgres, .numeric, by decide⟩ (.of .list) true (.secondPage ["psn.name"]) =
        .ok (some page) ∧
      Dialect.render ⟨.postgres, .numeric, by decide⟩ page =
        "SELECT \"psn\".\"name\", COUNT(*) OVER() AS \"_soar_total\" FROM \"Person\" AS \"psn\" " ++
          "JOIN \"Dept\" USING (\"deptID\") WHERE \"psn\".\"age\" >= $1 ORDER BY psn.name " ++
          "LIMIT 20 OFFSET 20" ∧
      TotalOf ⟨.postgres, .numeric, by decide⟩ (.secondPage ["psn.name"]) true page total := by
  have htext : (compose ⟨.postgres, .numeric, by decide⟩ (.of .list) true
      (.secondPage ["psn.name"])).toOption.join.map
        (Dialect.render ⟨.postgres, .numeric, by decide⟩) =
      some ("SELECT \"psn\".\"name\", COUNT(*) OVER() AS \"_soar_total\" FROM \"Person\" AS " ++
        "\"psn\" JOIN \"Dept\" USING (\"deptID\") WHERE \"psn\".\"age\" >= $1 ORDER BY psn.name " ++
        "LIMIT 20 OFFSET 20") := by decide +kernel
  obtain ⟨page, hpage, hrender⟩ := Option.map_eq_some_iff.mp htext
  obtain ⟨total, htotal⟩ := total_of_page (ok_of_toOption_join hpage)
  exact ⟨page, total, ok_of_toOption_join hpage, hrender, htotal⟩

/-- What is counted is decided by the first column of the expression alone. A page of pairs that
begins with a column selected for its distinct values has those of that column alone counted. So has
a page that leaves this column out, and one that selects the distinct values of a column behind the
first has its rows counted. A page that carries the number of rows before distinct values are taken
has the distinct values counted where it is empty. -/
theorem total_of_distinct_columns :
    let page (d : Dialect) (columns : List String) (fields : Option (List String)) :=
      (compose d (.of .list) true { Request.secondPage columns with fields }).toOption.join.map
        d.render
    let total (d : Dialect) (columns : List String) (fields : Option (List String)) :=
      (compose d .total true { Request.secondPage columns with fields }).toOption.join.map d.render
    let mysql := Dialect.standard .mysql
    let postgres := Dialect.standard .postgres
    (page mysql ["DISTINCT psn.name", "psn.age"] none =
        some ("SELECT DISTINCT `psn`.`name`, `psn`.`age` FROM `Person` AS `psn` " ++
          "JOIN `Dept` USING (`deptID`) WHERE `psn`.`age` >= %s ORDER BY psn.name LIMIT 20, 20") ∧
      total mysql ["DISTINCT psn.name", "psn.age"] none =
        some ("SELECT COUNT(DISTINCT `psn`.`name`) AS `ct` FROM `Person` AS `psn` " ++
          "JOIN `Dept` USING (`deptID`) WHERE `psn`.`age` >= %s")) ∧
    (page mysql ["DISTINCT psn.name", "psn.age"] (some ["age"]) =
        some ("SELECT `psn`.`age` FROM `Person` AS `psn` " ++
          "JOIN `Dept` USING (`deptID`) WHERE `psn`.`age` >= %s ORDER BY psn.name LIMIT 20, 20") ∧
      total mysql ["DISTINCT psn.name", "psn.age"] (some ["age"]) =
        some ("SELECT COUNT(DISTINCT `psn`.`name`) AS `ct` FROM `Person` AS `psn` " ++
          "JOIN `Dept` USING (`deptID`) WHERE `psn`.`age` >= %s")) ∧
    (page mysql ["psn.age", "DISTINCT psn.name"] (some ["DISTINCT psn.name"]) =
        some ("SELECT DISTINCT `psn`.`name` FROM `Person` AS `psn` " ++
          "JOIN `Dept` USING (`deptID`) WHERE `psn`.`age` >= %s ORDER BY psn.name LIMIT 20, 20") ∧
      total mysql ["psn.age", "DISTINCT psn.name"] (some ["DISTINCT psn.name"]) =
        some ("SELECT COUNT(*) AS `ct` FROM `Person` AS `psn` " ++
          "JOIN `Dept` USING (`deptID`) WHERE `psn`.`age` >= %s")) ∧
    (page postgres ["DISTINCT psn.name"] none =
        some ("SELECT DISTINCT \"psn\".\"name\", COUNT(*) OVER() AS \"_soar_total\" " ++
          "FROM \"Person\" AS \"psn\" JOIN \"Dept\" USING (\"deptID\") " ++
          "WHERE \"psn\".\"age\" >= %s ORDER BY psn.name LIMIT 20 OFFSET 20") ∧
      total postgres ["DISTINCT psn.name"] none =
        some ("SELECT COUNT(DISTINCT \"psn\".\"name\") AS \"ct\" FROM \"Person\" AS \"psn\" " ++
          "JOIN \"Dept\" USING (\"deptID\") WHERE \"psn\".\"age\" >= %s")) := by
  decide +kernel

end Statement

end TableOps
