import TableOps.Expression.Basic
import TableOps.Proofs.Command.Reading
import TableOps.Proofs.Text.Blanks

/-!
# Plain forms and what they read back as

An expression is written out as plain data, and such data is read back as an expression. Everything
comes back but three things: transformers are not written, a trailing clause that does not count as
present comes back as none, and an operator that is empty comes back as equality. Only a join that
says neither `USING` nor `ON` anything is not read back.

* `Filter.spelled`, `Expression.spelled` — what comes back.
* `Filter.ofValue_plain`, `Join.ofValue_plain` — filters and joins by themselves.
* `Expression.Built` — the expressions that callers build; `Expression.Built.tidy` is what all steps
  keep.
* `Expression.fill_eq` — the reading of a plain form, part by part.

Main statement: `Expression.reread_of_built`, the plain form of a built expression reads back as it,
or is refused for a join without a clause.
-/

namespace TableOps

/-! ## Sources -/

/-- The text of a source is read back as that source, when no blanks stand around it. -/
theorem Source.ofText_text {source : Source} (h : Text.trimmed source.text = source.text) :
    Source.ofText source.text = .ok source := by
  obtain ⟨text, ref, reads⟩ := source
  have hreads : TableRef.ofWords? (Text.wordsOf (Text.trimmed text)) = some ref := by
    rw [h]
    exact reads
  unfold Source.ofText
  split
  · rename_i ref' href
    cases hreads.symm.trans href
    simp [h]
  · rename_i hnone
    cases hreads.symm.trans hnone

/-- A text without characters refers to no table. -/
theorem Source.text_ne (source : Source) : source.text ≠ "" := by
  obtain ⟨text, ref, reads⟩ := source
  rintro rfl
  cases reads

theorem Source.trimmed_of_ofText {text : String} {source : Source}
    (h : Source.ofText text = .ok source) : Text.trimmed source.text = source.text := by
  unfold Source.ofText at h
  split at h
  · cases h
    exact Text.trimmed_trimmed text
  · cases h

/-! ## Filters -/

/-- The leaf with equality for an operator that is empty. -/
def Leaf.spelled (l : Leaf) : Leaf :=
  { l with op := if l.op.isEmpty then "=" else l.op }

/-- The connective of a name is read back. -/
theorem Connective.ofValue_name (c : Connective) : Connective.ofValue (.text c.name) = .ok c := by
  cases c <;> rfl

namespace Filter

mutual

/-- The filter with equality for every operator that is empty. -/
def spelled : Filter → Filter
  | .leaf l => .leaf l.spelled
  | .group connective members => .group connective (spelledAll members)

/-- Several filters with equality for every operator that is empty. -/
def spelledAll : List Filter → List Filter
  | [] => []
  | f :: fs => f.spelled :: spelledAll fs

end

mutual

/-- A filter without empty operators is spelled as it is. -/
theorem spelled_eq_self : (f : Filter) → (∀ l ∈ f.leaves, l.op ≠ "") → f.spelled = f
  | .leaf l, h => by
    have hop : l.op.isEmpty = false := by simpa using h l List.mem_cons_self
    simp [spelled, Leaf.spelled, hop]
  | .group connective members, h => by
    rw [spelled, spelledAll_eq_self members h]

theorem spelledAll_eq_self :
    (fs : List Filter) → (∀ l ∈ leavesOf fs, l.op ≠ "") → spelledAll fs = fs
  | [], _ => rfl
  | f :: fs, h => by
    rw [leavesOf, List.forall_mem_append] at h
    rw [spelledAll, spelled_eq_self f h.1, spelledAll_eq_self fs h.2]

end

/-- The members of a leaf's plain form are read back. -/
theorem ofMembers_leaf (l : Leaf) : Leaf.ofMembers (.text l.name)
    [("name", .text l.name), ("op", .text l.op), ("no_arg", .bool l.noArg)] = .ok l.spelled := by
  have hop : (some (Value.text l.op)).filter Value.truthy =
      if l.op.isEmpty then none else some (.text l.op) := by
    cases hempty : l.op.isEmpty <;> simp [Option.filter, Value.truthy, hempty]
  unfold Leaf.ofMembers Leaf.spelled
  simp only [Entries.get?, String.reduceEq, if_false, if_true, hop]
  cases l.op.isEmpty <;> rfl

mutual

/-- A filter is read back from its plain form. -/
theorem ofValue_plain : (f : Filter) → ofValue f.plain = .ok (some f.spelled)
  | .leaf l => by
    rw [plain, ofValue]
    · simp only [Entries.get?, if_true]
      rw [ofMembers_leaf]
      rfl
    · simp
  | .group connective members => by
    -- two members, none of them `name`, spell a group out
    rw [plain, ofValue]
    · simp only [Entries.get?, Entries.has, String.reduceEq, if_false, if_true,
        Option.isSome_some, Option.getD_some, ofFiltersMember, ofMembers]
      rw [Connective.ofValue_name, ofItems_plainAll members]
      rfl
    · simp

theorem ofItems_plainAll : (fs : List Filter) → ofItems (plainAll fs) = .ok (spelledAll fs)
  | [] => rfl
  | f :: fs => by
    rw [plainAll, ofItems, ofValue_plain f, ofItems_plainAll fs]
    rfl

end

end Filter

/-! ## Joins -/

namespace Join

/-- The join says something behind `USING` or `ON`. -/
def hasClause (j : Join) : Bool :=
  (filled? j.using?).isSome || (filled? j.on?).isSome

theorem ofMembers_plain (j : Join) {ms : Entries Value} (h : j.plain = .map ms) :
    ofMembers ms = .ok j := by
  obtain ⟨table, kind, using?, on?⟩ := j
  cases h
  -- which members the form has depends on the parts that are there, and not on their texts
  cases kind <;> cases using? <;> cases on? <;> rfl

theorem gives_plain (j : Join) {ms : Entries Value} (h : j.plain = .map ms) :
    gives ms "table" = !j.table.isEmpty ∧
      ["using", "use", "on", "onWhat"].all (!gives ms ·) = !j.hasClause := by
  obtain ⟨table, kind, using?, on?⟩ := j
  cases h
  constructor
  · rfl
  · cases kind <;> cases using? <;> cases on? <;>
      simp [gives, Value.truthy, hasClause, filled?, Option.isSome_filter]

/-- A join that names a table is read back from its plain form if it has a clause. -/
theorem ofValue_plain {j : Join} (h : j.table ≠ "") :
    ofValue j.plain =
      if j.hasClause then .ok j else .error (.malformed (.joinWithoutClause j.plain)) := by
  obtain ⟨ms, hms⟩ : ∃ ms, j.plain = .map ms := ⟨_, rfl⟩
  obtain ⟨htable, hclause⟩ := j.gives_plain hms
  have hnonempty : j.table.isEmpty = false := by simpa using h
  rw [hms, ofValue, htable, hclause, hnonempty, ofMembers_plain j hms]
  cases j.hasClause <;> rfl

/-- A join that was read names a table. -/
theorem table_ne_of_ofValue {v : Value} {j : Join} (h : ofValue v = .ok j) : j.table ≠ "" := by
  unfold ofValue at h
  split at h
  · rename_i members
    split at h
    · cases h
    · rename_i hgives
      split at h
      · cases h
      · obtain ⟨f2, on?, hf2, -, rfl⟩ := Check.passes_of_seq (Check.passes_of_toExcept h)
        obtain ⟨f1, using?, hf1, -, rfl⟩ := Check.passes_of_seq hf2
        obtain ⟨f0, kind, hf0, -, rfl⟩ := Check.passes_of_seq hf1
        obtain ⟨table, htable, rfl⟩ := Check.passes_of_map hf0
        -- an empty text would not have counted as present
        rintro rfl
        refine hgives ?_
        cases hget : Entries.get? members "table" with
        | none => simp [gives, hget]
        | some v =>
          have hpick : Check.pick? ["table"] members = some ("table", v) := by
            simp [Check.pick?, hget]
          rw [Check.required, hpick] at htable
          cases v with
          | text s =>
            obtain rfl : s = "" := by
              cases htable
              rfl
            simp [gives, hget, Value.truthy]
          | _ => cases htable
  · cases h

end Join

namespace Expression

/-! ## Built expressions -/

/-- The steps that callers take. A filter may also be given as such. -/
inductive IsStep : Step Unit → Prop where
  | join (spec : Value) : IsStep (join spec)
  | column (v : Value) : IsStep (column v)
  | filterBy (v : Value) : IsStep (filterBy v)
  | setFilter (f : Option Filter) : IsStep (setFilter f)
  | setExtra (clause : Value) : IsStep (setExtra clause)

/-- An expression as callers build it: begun on a table, or read from plain data, and changed by
steps, each of which may fail. -/
inductive Built : Expression → Prop where
  | on {table : Value} {e : Expression} (h : on table = .ok e) : Built e
  | read {v : Value} {e : Expression} (h : ofValue v = .ok e) : Built e
  | step {e : Expression} (h : Built e) {x : Step Unit} (hx : IsStep x) : Built (x.run.run e).2

/-- No blanks stand around the table, and every join names a table. -/
structure Tidy (e : Expression) : Prop where
  trimmed : Text.trimmed e.source.text = e.source.text
  tables : ∀ j ∈ e.joins, j.table ≠ ""

/-- A step leaves tidy expressions tidy, whether it fails or not. -/
def Tidies {α : Type} (x : Step α) : Prop :=
  ∀ e : Expression, e.Tidy → ((x.run.run e).2).Tidy

namespace Tidies

variable {α β : Type}

theorem pure (a : α) : Tidies (Pure.pure a : Step α) :=
  fun _ h => h

theorem throw (f : Failure) : Tidies (throw f : Step α) :=
  fun _ h => h

theorem liftM (x : Except Failure α) : Tidies (liftM x : Step α) := by
  intro e h
  rw [run_liftM]
  exact h

theorem bind {x : Step α} {f : α → Step β} (hx : Tidies x) (hf : ∀ a, Tidies (f a)) :
    Tidies (x >>= f) := by
  intro e h
  have hmid := hx e h
  rw [run_bind]
  cases hrun : x.run.run e with
  | mk r e' =>
    rw [hrun] at hmid
    cases r with
    | ok a => exact hf a e' hmid
    | error f => exact hmid

/-- A change of other parts than the table and the joins. -/
theorem modify {f : Expression → Expression} (hsource : ∀ e, (f e).source = e.source)
    (hjoins : ∀ e, (f e).joins = e.joins) : Tidies (modify f : Step Unit) :=
  fun e h => ⟨by
    show Text.trimmed (f e).source.text = (f e).source.text
    rw [hsource]
    exact h.trimmed, by
    show ∀ j ∈ (f e).joins, j.table ≠ ""
    rw [hjoins]
    exact h.tables⟩

theorem forM {f : α → Step PUnit} (hf : ∀ a, Tidies (f a)) (items : List α) :
    Tidies (items.forM f) := by
  induction items with
  | nil => exact pure _
  | cons a items ih => exact bind (hf a) fun _ => ih

theorem mapM {f : α → Step β} (hf : ∀ a, Tidies (f a)) (items : List α) :
    Tidies (items.mapM f) := by
  induction items with
  | nil => exact pure _
  | cons a items ih =>
    rw [List.mapM_cons]
    exact bind (hf a) fun _ => bind ih fun _ => pure _

end Tidies

theorem tidies_join (spec : Value) : Tidies (join spec) := by
  intro e h
  unfold join
  rw [run_bind, run_liftM]
  cases hread : readJoin spec with
  | error f => exact h
  | ok j =>
    refine ⟨h.trimmed, fun j' hj' => ?_⟩
    rcases List.mem_append.mp hj' with hj' | hj'
    · exact h.tables j' hj'
    · rw [List.mem_singleton.mp hj']
      exact Join.table_ne_of_ofValue hread

theorem tidies_columnEntry (v : Value) : Tidies (columnEntry v) := by
  unfold columnEntry
  split
  · exact .pure _
  · exact .bind (.modify (fun _ => rfl) fun _ => rfl) fun _ => .pure _
  · exact .throw _
  · exact .throw _

theorem tidies_column (v : Value) : Tidies (column v) := by
  unfold column
  split
  · exact .modify (fun _ => rfl) fun _ => rfl
  · exact .bind (.mapM tidies_columnEntry _) fun _ => .modify (fun _ => rfl) fun _ => rfl
  · exact .throw _

theorem tidies_setFilter (f : Option Filter) : Tidies (setFilter f) :=
  .modify (fun _ => rfl) fun _ => rfl

theorem tidies_filterBy (v : Value) : Tidies (filterBy v) :=
  .bind (.liftM _) fun f => tidies_setFilter f

theorem tidies_setExtra (clause : Value) : Tidies (setExtra clause) :=
  .modify (fun _ => rfl) fun _ => rfl

theorem IsStep.tidies {x : Step Unit} (h : IsStep x) : Tidies x := by
  cases h with
  | join spec => exact tidies_join spec
  | column v => exact tidies_column v
  | filterBy v => exact tidies_filterBy v
  | setFilter f => exact tidies_setFilter f
  | setExtra clause => exact tidies_setExtra clause

/-! ## Reading a plain form part by part -/

/-- The columns that a plain form lists. -/
def fillColumns (members : Entries Value) : Step Unit :=
  match present? members "columns" with
  | some columns => do column (.list (← (columns.itemsOf : Except Failure (List Value))))
  | none => pure ()

/-- The transformers that a plain form lists. -/
def fillTransformers (members : Entries Value) : Step Unit := do
  let transformers ← (listedTransformers members : Except Failure (Entries Value))
  modify fun e => { e with transformers := Entries.update e.transformers transformers }

/-- The filter of a plain form. -/
def fillFilter (members : Entries Value) : Step Unit :=
  match (Entries.get? members "filters").filter (!·.isNull) with
  | some f => filterBy f
  | none => pure ()

/-- The trailing clause of a plain form. -/
def fillExtra (members : Entries Value) : Step Unit :=
  match listedExtra? members with
  | some clause => setExtra clause
  | none => pure ()

/-- A plain form is read part by part. -/
theorem fill_eq (members : Entries Value) (joins : Option Value) : fill members joins = (do
    let joins ← ((joins.getD (.list [])).itemsOf : Except Failure (List Value))
    joins.forM join
    fillColumns members
    fillTransformers members
    fillFilter members
    fillExtra members) := by
  unfold fill fillColumns fillTransformers fillFilter fillExtra
  refine congrArg _ (funext fun joins => congrArg _ (funext fun _ => ?_))
  -- each part is there or not, and what follows it is the same either way
  cases present? members "columns" <;>
    cases (Entries.get? members "filters").filter (!·.isNull) <;>
    cases listedExtra? members <;>
    simp only [bind_assoc, pure_bind]

/-! ## Built expressions are tidy -/

/-- An expression begins with the source that a text gives, and nothing else. -/
theorem source_of_on {table : Value} {e : Expression} (h : on table = .ok e) :
    ∃ text source, Source.ofText text = .ok source ∧ e = ofSource source := by
  cases table with
  | text text =>
    refine ⟨text, ?_⟩
    unfold on checkTable Check.text Check.andThen Check.ofExcept at h
    dsimp only at h
    cases hsource : Source.ofText text with
    | ok source =>
      rw [hsource] at h
      cases h
      exact ⟨source, rfl, rfl⟩
    | error f =>
      rw [hsource] at h
      dsimp only at h
      split at h <;> cases h
  | _ => cases h

theorem tidy_of_on {table : Value} {e : Expression} (h : on table = .ok e) : e.Tidy := by
  obtain ⟨text, source, hsource, rfl⟩ := source_of_on h
  exact ⟨Source.trimmed_of_ofText hsource, fun j hj => by cases hj⟩

theorem tidies_fill (members : Entries Value) (joins : Option Value) :
    Tidies (fill members joins) := by
  rw [fill_eq]
  refine .bind (.liftM _) fun joins => .bind (.forM tidies_join _) fun _ => ?_
  refine .bind ?_ fun _ => .bind ?_ fun _ => .bind ?_ fun _ => ?_
  · unfold fillColumns
    split
    · exact .bind (.liftM _) fun _ => tidies_column _
    · exact .pure _
  · exact .bind (.liftM _) fun _ => .modify (fun _ => rfl) fun _ => rfl
  · unfold fillFilter
    split
    · exact tidies_filterBy _
    · exact .pure _
  · unfold fillExtra
    split
    · exact tidies_setExtra _
    · exact .pure _

theorem tidy_of_ofValue {v : Value} {e : Expression} (h : ofValue v = .ok e) : e.Tidy := by
  unfold ofValue at h
  split at h
  · unfold ofMembers at h
    dsimp only at h
    split at h
    · cases h
    · rename_i members _ table _
      obtain ⟨start, hstart, h⟩ := ok_of_bind h
      split at h
      · rename_i e' hrun
        cases h
        have hfilled := tidies_fill members (tableAndJoins members).2 start (tidy_of_on hstart)
        rw [hrun] at hfilled
        exact hfilled
      · cases h
  · cases h

/-- However an expression is built, it is tidy. -/
theorem Built.tidy {e : Expression} (h : e.Built) : e.Tidy := by
  induction h with
  | on h => exact tidy_of_on h
  | read h => exact tidy_of_ofValue h
  | step h hx ih => exact hx.tidies _ ih

/-! ## What is found in a plain form -/

theorem get?_plainJoins (js : List Join) (name : String) :
    Entries.get? (plainJoins js) name =
      if name = "joins" ∧ js ≠ [] then some (.list (js.map Join.plain)) else none := by
  cases js with
  | nil => simp [plainJoins]
  | cons j js => simp [plainJoins, eq_comm]

theorem get?_plainColumns (e : Expression) (name : String) :
    Entries.get? e.plainColumns name =
      if name = "columns" ∧ e.columns ≠ [] then some (.ofTexts e.columns) else none := by
  unfold plainColumns
  cases e.columns with
  | nil => simp
  | cons c cs => simp [eq_comm]

theorem get?_plainFilter (f : Option Filter) (name : String) :
    Entries.get? (plainFilter f) name = if name = "filters" then f.map Filter.plain else none := by
  cases f with
  | none => simp [plainFilter]
  | some f => simp [plainFilter, eq_comm]

theorem get?_plainExtra (e : Expression) (name : String) :
    Entries.get? e.plainExtra name = if name = "extra" then e.extra? else none := by
  unfold plainExtra
  cases e.extra? with
  | none => simp
  | some v => simp [eq_comm]

/-- The members of a plain form. -/
theorem get?_plain {e : Expression} {ms : Entries Value} (h : e.plain = .map ms) (name : String) :
    Entries.get? ms name =
      if name = "table" then some (.text e.source.text)
      else if name = "joins" ∧ e.joins ≠ [] then some (.list (e.joins.map Join.plain))
      else if name = "columns" ∧ e.columns ≠ [] then some (.ofTexts e.columns)
      else if name = "filters" then e.filter.map Filter.plain
      else if name = "extra" then e.extra?
      else none := by
  cases h
  rw [Entries.get?_append, Entries.get?_append, Entries.get?_append, Entries.get?_append,
    get?_plainJoins, get?_plainColumns, get?_plainFilter, get?_plainExtra]
  simp only [Entries.get?, @eq_comm _ "table" name]
  split_ifs <;> simp_all

/-! ## Plain forms that are read back -/

/-- What comes back of an expression. -/
def spelled (e : Expression) : Expression :=
  { e with
    transformers := []
    filter := e.filter.map Filter.spelled
    extra := e.extra?.getD .null }

theorem plainExtra_spelled (e : Expression) : e.spelled.plainExtra = e.plainExtra := by
  have hextra : e.spelled.extra? = e.extra? := by
    show (some (e.extra?.getD .null)).filter Value.truthy = e.extra?
    cases htruthy : e.extra.truthy with
    | false =>
      have hnone : e.extra? = none := by rw [extra?, Option.filter_some, htruthy]; rfl
      rw [hnone]
      rfl
    | true =>
      have hsome : e.extra? = some e.extra := by rw [extra?, Option.filter_some, htruthy]; rfl
      rw [hsome, Option.getD_some, Option.filter_some, htruthy]
      rfl
  rw [plainExtra, plainExtra, hextra]

theorem run_join (spec : Value) (e : Expression) : (join spec).run.run e =
    match readJoin spec with
    | .ok j => (.ok (), { e with joins := e.joins ++ [j] })
    | .error f => (.error f, e) := by
  unfold join
  rw [run_bind, run_liftM]
  cases readJoin spec <;> rfl

/-- Joins that name tables and have clauses are read back. -/
theorem run_joins {js : List Join} (htables : ∀ j ∈ js, j.table ≠ "")
    (hclauses : ∀ j ∈ js, j.hasClause = true) (e : Expression) :
    ((js.map Join.plain).forM join).run.run e = (.ok (), { e with joins := e.joins ++ js }) := by
  induction js generalizing e with
  | nil =>
    rw [List.append_nil]
    rfl
  | cons j js ih =>
    obtain ⟨htable, htables⟩ := List.forall_mem_cons.mp htables
    obtain ⟨hclause, hclauses⟩ := List.forall_mem_cons.mp hclauses
    have hread : readJoin j.plain = .ok j := (Join.ofValue_plain htable).trans (if_pos hclause)
    show (join j.plain >>= fun _ => (js.map Join.plain).forM join).run.run e = _
    rw [run_bind, run_join, hread]
    dsimp only
    rw [ih htables hclauses, List.append_assoc]
    rfl

/-- The first join without a clause is refused. -/
theorem run_joins_error {js : List Join} (htables : ∀ j ∈ js, j.table ≠ "")
    (hnone : ∃ j ∈ js, j.hasClause = false) (e : Expression) :
    ∃ j ∈ js, ∃ e', ((js.map Join.plain).forM join).run.run e =
      (.error (.malformed (.joinWithoutClause j.plain)), e') := by
  induction js generalizing e with
  | nil => simp at hnone
  | cons j js ih =>
    obtain ⟨htable, htables⟩ := List.forall_mem_cons.mp htables
    have hread : readJoin j.plain =
        if j.hasClause then .ok j else .error (.malformed (.joinWithoutClause j.plain)) :=
      Join.ofValue_plain htable
    have hrun : ((List.map Join.plain (j :: js)).forM join).run.run e =
        (join j.plain >>= fun _ => (js.map Join.plain).forM join).run.run e := rfl
    rw [run_bind, run_join, hread] at hrun
    cases hclause : j.hasClause with
    | false =>
      rw [hclause] at hrun
      exact ⟨j, List.mem_cons_self, e, hrun⟩
    | true =>
      rw [hclause] at hrun
      have hrest : ∃ j' ∈ js, j'.hasClause = false := by
        obtain ⟨j', hj', hnone⟩ := hnone
        rcases List.mem_cons.mp hj' with rfl | hj'
        · cases hclause.symm.trans hnone
        · exact ⟨j', hj', hnone⟩
      obtain ⟨j', hj', e', hrest⟩ := ih htables hrest { e with joins := e.joins ++ [j] }
      exact ⟨j', List.mem_cons_of_mem _ hj', e', hrun.trans hrest⟩

/-- A list of columns replaces the columns. -/
theorem run_columns (cs : List String) (e : Expression) :
    (column (.list (cs.map .text))).run.run e = (.ok (), { e with columns := cs }) := by
  have hnames : ((cs.map Value.text).mapM columnEntry).run.run e = (.ok cs, e) := by
    induction cs with
    | nil => rfl
    | cons c cs ih =>
      rw [List.map_cons, List.mapM_cons, run_bind]
      show ((cs.map Value.text).mapM columnEntry >>= _).run.run e = _
      rw [run_bind, ih]
      rfl
  unfold column
  rw [run_bind, hnames]
  rfl

theorem run_filterBy_plain (f : Filter) (e : Expression) :
    (filterBy f.plain).run.run e = (.ok (), { e with filter := some f.spelled }) := by
  unfold filterBy
  rw [run_bind, run_liftM, Filter.ofValue_plain]
  rfl

section

variable {e : Expression} {ms : Entries Value}

theorem run_fillColumns (h : e.plain = .map ms) {start : Expression} (hstart : start.columns = []) :
    (fillColumns ms).run.run start = (.ok (), { start with columns := e.columns }) := by
  have hfound : present? ms "columns" =
      if e.columns = [] then none else some (.ofTexts e.columns) := by
    rw [present?, get?_plain h]
    by_cases hcolumns : e.columns = [] <;>
      simp [hcolumns, Option.filter, Value.ofTexts, Value.truthy]
  unfold fillColumns
  rw [hfound]
  split
  · rename_i columns hsome
    split at hsome
    · cases hsome
    · cases hsome
      exact run_columns e.columns start
  · rename_i hnone
    split at hnone
    · rename_i hcolumns
      rw [hcolumns, ← hstart]
      rfl
    · cases hnone

theorem run_fillTransformers (h : e.plain = .map ms) (start : Expression) :
    (fillTransformers ms).run.run start = (.ok (), start) := by
  unfold fillTransformers listedTransformers present?
  rw [get?_plain h, get?_plain h]
  rfl

theorem run_fillFilter (h : e.plain = .map ms) {start : Expression} (hstart : start.filter = none) :
    (fillFilter ms).run.run start =
      (.ok (), { start with filter := e.filter.map Filter.spelled }) := by
  have hfound : (Entries.get? ms "filters").filter (!·.isNull) = e.filter.map Filter.plain := by
    rw [get?_plain h]
    cases hfilter : e.filter with
    | none => simp
    | some f => cases f <;> simp [Option.filter, Filter.plain, Value.isNull]
  unfold fillFilter
  rw [hfound]
  cases hfilter : e.filter with
  | none =>
    rw [Option.map_none, Option.map_none, ← hstart]
    rfl
  | some f => exact run_filterBy_plain f start

theorem run_fillExtra (h : e.plain = .map ms) {start : Expression} (hstart : start.extra = .null) :
    (fillExtra ms).run.run start = (.ok (), { start with extra := e.extra?.getD .null }) := by
  have hfound : listedExtra? ms = e.extra? := by
    rw [listedExtra?, present?, present?, get?_plain h, get?_plain h]
    simp [extra?, Option.filter_filter]
  unfold fillExtra
  rw [hfound]
  cases hextra : e.extra? with
  | none =>
    rw [Option.getD_none, ← hstart]
    rfl
  | some clause => rfl

/-- The joins that a plain form lists. -/
theorem itemsOf_plainJoins (h : e.plain = .map ms) :
    ((present? ms "joins").getD (.list [])).itemsOf = .ok (e.joins.map Join.plain) := by
  have hfound : present? ms "joins" =
      if e.joins = [] then none else some (.list (e.joins.map Join.plain)) := by
    rw [present?, get?_plain h]
    by_cases hjoins : e.joins = [] <;> simp [hjoins, Option.filter, Value.truthy]
  rw [hfound]
  split
  · rename_i hjoins
    rw [hjoins]
    rfl
  · rfl

/-- A plain form is read by the steps that it asks for, on its table. -/
theorem ofValue_plain_eq (h : e.plain = .map ms) (htidy : e.Tidy) :
    ofValue e.plain = match (fill ms (present? ms "joins")).run.run (ofSource e.source) with
      | (.ok (), e') => .ok e'
      | (.error f, _) => .error f := by
  have hget : Entries.get? ms "table" = some (.text e.source.text) := get?_plain h "table"
  have htable : tableAndJoins ms = (some (.text e.source.text), present? ms "joins") := by
    unfold tableAndJoins
    rw [hget]
    simp [present?, hget, Value.truthy, e.source.text_ne, Option.filter]
  have hon : on (.text e.source.text) = .ok (ofSource e.source) := by
    simp only [on, checkTable, Check.text, Check.andThen, Source.ofText_text htidy.trimmed]
    rfl
  rw [h, ofValue, ofMembers, htable]
  dsimp only
  rw [hon]
  rfl

/-- A plain form whose joins have clauses is read back. -/
theorem ofValue_plain (h : e.Tidy) (hclauses : ∀ j ∈ e.joins, j.hasClause = true) :
    ofValue e.plain = .ok e.spelled := by
  obtain ⟨ms, hms⟩ : ∃ ms, e.plain = .map ms := ⟨_, rfl⟩
  rw [ofValue_plain_eq hms h, fill_eq, itemsOf_plainJoins hms, run_bind, run_liftM]
  dsimp only
  rw [run_bind, run_joins h.tables hclauses]
  dsimp only
  rw [run_bind, run_fillColumns hms rfl]
  dsimp only
  rw [run_bind, run_fillTransformers hms]
  dsimp only
  rw [run_bind, run_fillFilter hms rfl]
  dsimp only
  rw [run_fillExtra hms rfl]
  rfl

/-- A plain form with a join that has no clause is refused for such a join. -/
theorem ofValue_plain_error (h : e.Tidy) (hnone : ∃ j ∈ e.joins, j.hasClause = false) :
    ∃ j ∈ e.joins, ofValue e.plain = .error (.malformed (.joinWithoutClause j.plain)) := by
  obtain ⟨ms, hms⟩ : ∃ ms, e.plain = .map ms := ⟨_, rfl⟩
  obtain ⟨j, hj, e', hrun⟩ := run_joins_error h.tables hnone (ofSource e.source)
  refine ⟨j, hj, ?_⟩
  rw [ofValue_plain_eq hms h, fill_eq, itemsOf_plainJoins hms, run_bind, run_liftM]
  dsimp only
  rw [run_bind, hrun]

end

/-! ## Reading the plain forms of built expressions -/

/-- The plain form of a built expression is refused exactly when a join has no clause. Otherwise it
is read back as the expression with equality for every empty operator, and that has the plain form
of the same change. A filter without empty operators is read back as it is. -/
theorem reread_of_built {e : Expression} (h : e.Built) :
    ((∃ m, ofValue e.plain = .error (.malformed m)) ↔ ∃ j ∈ e.joins, j.hasClause = false) ∧
      ((∀ j ∈ e.joins, j.hasClause = true) → ∃ e', ofValue e.plain = .ok e' ∧
        e'.source = e.source ∧ e'.joins = e.joins ∧ e'.columns = e.columns ∧
        e'.extra = e.extra?.getD .null ∧ e'.filter = e.filter.map Filter.spelled ∧
        e'.plain = plain { e with filter := e.filter.map Filter.spelled }) ∧
      ∀ f : Filter, Filter.ofValue f.plain = .ok (some f.spelled) ∧
        ((∀ l ∈ f.leaves, l.op ≠ "") → f.spelled = f) := by
  refine ⟨⟨?_, ?_⟩, fun hclauses => ?_, fun f => ⟨f.ofValue_plain, f.spelled_eq_self⟩⟩
  · rintro ⟨m, hm⟩
    by_contra hnone
    -- with a clause in every join the form would have been read back
    have hclauses : ∀ j ∈ e.joins, j.hasClause = true := by simpa using hnone
    cases hm.symm.trans (ofValue_plain h.tidy hclauses)
  · intro hnone
    obtain ⟨j, -, hj⟩ := ofValue_plain_error h.tidy hnone
    exact ⟨_, hj⟩
  · refine ⟨e.spelled, ofValue_plain h.tidy hclauses, rfl, rfl, rfl, rfl, rfl, ?_⟩
    unfold plain
    rw [plainExtra_spelled]
    rfl

theorem reread_of_built_orders : ∃ e e' : Expression, e.Built ∧
    e.joins = [⟨"Person p", none, none, some "o.person"⟩] ∧
    e.filter = some (.group .or [.leaf ⟨"o.id", "", false⟩, .group .and []]) ∧
    ofValue e.plain = .ok e' ∧ e'.joins = e.joins ∧
    e'.filter = some (.group .or [.leaf (.equals "o.id"), .group .and []]) := by
  have hstart :
      on (.text "Orders o") = .ok (ofSource ⟨"Orders o", ⟨none, "Orders", some "o"⟩, rfl⟩) := rfl
  have hbuilt := ((Built.on hstart).step
    (.join (.map [("table", .text "Person p"), ("on", .text "o.person")]))).step
    (.setFilter (some (.group .or [.leaf ⟨"o.id", "", false⟩, .group .and []])))
  obtain ⟨e', hread, -, hjoins, -, -, hfilter, -⟩ :=
    (reread_of_built hbuilt).2.1 fun j hj => by
      obtain rfl : j = ⟨"Person p", none, none, some "o.person"⟩ := List.mem_singleton.mp hj
      rfl
  exact ⟨_, e', hbuilt, rfl, rfl, hread, hjoins, hfilter⟩

end Expression

end TableOps
