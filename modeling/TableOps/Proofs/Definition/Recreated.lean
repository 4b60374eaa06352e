import TableOps.Definition.Table
import TableOps.Proofs.Definition.Described
import TableOps.Proofs.Definition.Written
import TableOps.Proofs.NativeType.Respelling

/-!
# Tables that are created again

A table is described and then created from its description. Every column is declared again, under the
type that it was reported with and with the clauses that the row calls for, but one engine has no clause
for generated values: there only the type of a column can say that its values are generated.

* `Declared` — a column as a table declares it, with its text.
* `Declared.IsNotNull`, `Declared.IsGenerated` — what is declared by a clause or by the type.
* `Declared.Repeats` — the clauses of a declaration are those that a row calls for.
* `Declared.Keeps` — the declaration means what the row says; `Declared.Fits`, its type does not stand
  in the way of that.
* `Declared.Repeats.not_keeps_of_sequence` — columns that no longer are numbered.

Main statement: `recreated_keeps_iff`, which columns keep what was reported about them.
-/

namespace TableOps

/-! ## Declarations -/

/-- A column as a table declares it: its type and the clauses behind it. -/
structure Declared where
  name : String
  type : String
  notNull : Bool
  default : Option Value
  autoIncrement : Bool

namespace Declared

/-- The clause of a default, if there is one. -/
def defaultText : Option Value → Except Failure String
  | some v => (defaultLiteral v).map (" DEFAULT " ++ ·)
  | none => .ok ""

/-- The text of a declaration. -/
def text (engine : Engine) (d : Declared) : Except Failure String :=
  (defaultText d.default).map fun default =>
    engine.identifier d.name ++ " " ++ d.type ++ (if d.notNull then " NOT NULL" else "") ++ default ++
      (if d.autoIncrement then " AUTO_INCREMENT" else "")

/-- The types whose columns are numbered, and so may not be null. -/
def numberingTypes : Engine → List String
  | .mysql => ["serial", "bigint unsigned not null auto_increment unique"]
  | .postgres => ["smallserial", "serial2", "serial", "serial4", "bigserial", "serial8"]

/-- The type alone says that the column is numbered. -/
def IsNumbered (engine : Engine) (d : Declared) : Prop :=
  Text.fold d.type ∈ numberingTypes engine

/-- The column is declared as one that may not be null. -/
def IsNotNull (engine : Engine) (d : Declared) : Prop :=
  d.notNull = true ∨ d.IsNumbered engine

/-- The column is declared as one whose values are generated. -/
def IsGenerated (engine : Engine) (d : Declared) : Prop :=
  d.autoIncrement = true ∨ d.IsNumbered engine

/-- A declaration has the name and the type that a row reports, and the clauses that the row calls
for. -/
structure Repeats (engine : Engine) (row : Row) (d : Declared) : Prop where
  named : row.get? engine.nameMember = some (.text d.name)
  typed : ∃ native c, engine.reportedType row = .ok native ∧ engine.ofNative native = .ok c ∧
    engine.toNative c = .ok d.type
  notNull : d.notNull = true ↔ engine.ReportsNotNull row
  default : ∀ v, d.default = some v ↔ engine.ReportsDefault row v ∧ ¬ engine.ReportsGenerated row
  autoIncrement : d.autoIncrement = true ↔ engine = .mysql ∧ engine.ReportsGenerated row

/-- A declaration says what a row says about the column. -/
structure Keeps (engine : Engine) (row : Row) (d : Declared) : Prop where
  notNull : d.IsNotNull engine ↔ engine.ReportsNotNull row
  generated : d.IsGenerated engine ↔ engine.ReportsGenerated row
  default : ∀ v, d.default = some v ↔ engine.ReportsDefault row v ∧ ¬ engine.ReportsGenerated row

/-- The type of a declaration numbers the column only if it is one that may not be null and whose
values are generated, and it does so if nothing else can say this. -/
structure Fits (engine : Engine) (row : Row) (d : Declared) : Prop where
  only : d.IsNumbered engine → engine.ReportsNotNull row ∧ engine.ReportsGenerated row
  needed : engine = .postgres → engine.ReportsGenerated row → d.IsNumbered engine

variable {engine : Engine} {row : Row} {d : Declared}

/-- A declaration with the clauses that a row calls for says what the row says exactly when its type
fits. -/
theorem Repeats.keeps_iff (h : Repeats engine row d) : Keeps engine row d ↔ Fits engine row d := by
  constructor
  · intro hkeeps
    refine ⟨fun hnumbered => ⟨hkeeps.notNull.mp (.inr hnumbered), hkeeps.generated.mp (.inr hnumbered)⟩,
      fun hengine hgenerated => ?_⟩
    rcases hkeeps.generated.mpr hgenerated with hclause | hnumbered
    · -- there is no such clause
      have hmysql := (h.autoIncrement.mp hclause).1
      rw [hengine] at hmysql
      cases hmysql
    · exact hnumbered
  · intro hfits
    refine ⟨⟨?_, fun hnotNull => .inl (h.notNull.mpr hnotNull)⟩, ⟨?_, fun hgenerated => ?_⟩, h.default⟩
    · rintro (hclause | hnumbered)
      · exact h.notNull.mp hclause
      · exact (hfits.only hnumbered).1
    · rintro (hclause | hnumbered)
      · exact (h.autoIncrement.mp hclause).2
      · exact (hfits.only hnumbered).2
    · cases engine with
      | mysql => exact .inl (h.autoIncrement.mpr ⟨rfl, hgenerated⟩)
      | postgres => exact .inr (hfits.needed rfl hgenerated)

/-- The columns of a sequence are reported with types that do not number them, so that the numbering of
these columns is always lost on PostgreSQL. -/
theorem Repeats.not_keeps_of_sequence (h : Repeats .postgres row d) {native : String}
    (hnative : Engine.postgres.reportedType row = .ok native)
    (htype : native ∈ ["smallint", "integer", "bigint"])
    (hgenerated : Engine.postgres.ReportsGenerated row) : ¬ Keeps .postgres row d := by
  rw [h.keeps_iff]
  intro hfits
  have hwritten : d.type = native := by
    obtain ⟨native', c, hnative', hc, hwritten⟩ := h.typed
    cases hnative'.symm.trans hnative
    simp only [List.mem_cons, List.not_mem_nil, or_false] at htype
    rcases htype with rfl | rfl | rfl <;> cases hc <;> exact (Except.ok.inj hwritten).symm
  have hall : ∀ native ∈ ["smallint", "integer", "bigint"],
      Text.fold native ∉ numberingTypes .postgres := by
    decide +kernel
  have hnumbered := hfits.needed rfl hgenerated
  rw [IsNumbered, hwritten] at hnumbered
  exact hall native htype hnumbered

/-! ## Columns of a schema -/

/-- The declaration of a column whose type can be written. -/
def ofColumn (engine : Engine) (name : String) (c : ColumnType) : Declared where
  name := name
  type := (engine.toNative c).toOption.getD ""
  notNull := c.options.notNull == some true
  default := if c.options.default.isNull then none else some c.options.default
  autoIncrement := engine == .mysql && c.options.autoIncrement == some true

theorem isNull_iff {v : Value} : v.isNull = true ↔ v = .null := by
  cases v <;> simp [Value.isNull]

/-- The type of a column that was read from a row can be written. -/
theorem toNative_of_readAs {name : String} {c : ColumnType} (h : engine.ReadAs row name c) :
    engine.toNative c = .ok (ofColumn engine name c).type := by
  obtain ⟨native, c', -, hc', htype⟩ := h.typed
  obtain ⟨spelling, hspelling⟩ := Engine.exists_toNative_of_ofNative hc'
  have hwritten : engine.toNative c = .ok spelling := htype.trans hspelling
  rw [ofColumn, hwritten]
  rfl

/-- A column that was read from a row is declared by its type and its clauses. -/
theorem columnDefinition_eq {name : String} {c : ColumnType} (h : engine.ReadAs row name c) :
    engine.columnDefinition name c = (ofColumn engine name c).text engine := by
  have hnotNull : (if c.options.notNull = some true then " NOT NULL" else "") =
      if (ofColumn engine name c).notNull then " NOT NULL" else "" := by
    simp [ofColumn]
  have hdefault : Engine.defaultClause c.options.default =
      defaultText (ofColumn engine name c).default := by
    rw [Engine.defaultClause, ofColumn]
    split <;> rfl
  have hoptions : engine.columnOptions c.options =
      (defaultText (ofColumn engine name c).default).map fun default =>
        (if (ofColumn engine name c).notNull then " NOT NULL" else "") ++ default ++
          if (ofColumn engine name c).autoIncrement then " AUTO_INCREMENT" else "" := by
    rw [← hdefault, ← hnotNull]
    cases engine with
    | mysql =>
      rw [Engine.columnOptions, Engine.commonOptions, h.comment]
      cases Engine.defaultClause c.options.default <;> simp [Except.map, ofColumn]
    | postgres =>
      rw [Engine.columnOptions, Engine.commonOptions]
      cases Engine.defaultClause c.options.default <;> simp [Except.map, ofColumn]
  rw [Engine.columnDefinition, Engine.typeWithOptions, toNative_of_readAs h, hoptions, text]
  cases defaultText (ofColumn engine name c).default with
  | error f => rfl
  | ok default => exact congrArg Except.ok (by simp only [String.append_assoc]; rfl)

/-- A column that was read from a row is declared with the clauses that the row calls for. -/
theorem repeats_ofColumn {name : String} {c : ColumnType} (h : engine.ReadAs row name c) :
    Repeats engine row (ofColumn engine name c) := by
  obtain ⟨native, c', hnative, hc', htype⟩ := h.typed
  refine ⟨h.named, ⟨native, c', hnative, hc', htype.symm.trans (toNative_of_readAs h)⟩, ?_,
    fun v => ?_, ?_⟩
  · rw [ofColumn, beq_iff_eq, h.notNull]
  · by_cases hv : v = .null
    · subst hv
      refine iff_of_false (fun hdefault => ?_) fun hreported => hreported.1.2.1 rfl
      simp only [ofColumn, Option.ite_none_left_eq_some, Option.some_inj] at hdefault
      exact hdefault.1 (isNull_iff.mpr hdefault.2)
    · rw [← h.default v hv]
      simp only [ofColumn, Option.ite_none_left_eq_some, Option.some_inj]
      refine and_iff_right_of_imp fun hdefault hnull => hv ?_
      rw [← hdefault, isNull_iff.mp hnull]
  · rw [ofColumn, Bool.and_eq_true, beq_iff_eq, beq_iff_eq, h.generated]

end Declared

/-! ## Tables that are created again -/

/-- The text that creates a table. -/
def Engine.tableText (engine : Engine) (title : String) (ds : List Declared) (key : List String)
    (options : Entries Value) : Except Failure String := do
  let lines ← ds.mapM (Declared.text engine)
  let clauses ← engine.tableOptions options
  return "CREATE TABLE " ++ engine.identifier title ++ " (\n  " ++
    String.intercalate ",\n  " (lines ++ ["PRIMARY KEY (" ++ engine.identifiers key ++ ")"]) ++
      "\n)" ++ clauses

/-- A declaration is written when its default can be. -/
theorem Declared.writtenIf_text (engine : Engine) (d : Declared) :
    WrittenIf (∀ v, d.default = some v → v.writable) (d.text engine) := by
  refine WrittenIf.map ?_ _
  cases d.default with
  | none => exact .ok _
  | some v => exact ((writtenIf_defaultLiteral v).map _).of_imp fun h => h v rfl

/-- The text that creates a table is written when every default and every option can be. -/
theorem Engine.writtenIf_tableText (engine : Engine) (title : String) (ds : List Declared)
    (key : List String) (options : Entries Value) :
    WrittenIf ((∀ d ∈ ds, ∀ v, d.default = some v → v.writable) ∧
        ∀ name v, options.get? name = some v → v.writable)
      (engine.tableText title ds key options) := by
  refine WrittenIf.bind (.mapM fun d hd => ?_) fun _ => WrittenIf.bind ?_ fun _ => .ok _
  · exact (d.writtenIf_text engine).of_imp fun h => h.1 d hd
  · exact (engine.writtenIf_tableOptions options).of_imp fun h => h.2

/-- A table that was described can be created under a name and with a primary key. -/
theorem Described.createTable_eq {engine : Engine} {table : String} {rows : List Row}
    {schema : TableSchema} {key : List String} (h : Described table engine rows schema)
    (hkey : key ≠ []) :
    engine.createTable { schema with primaryKey := key } =
      if table = "" then .error (.schema .noTitle)
      else engine.tableText table
        (schema.columns.map fun column => .ofColumn engine column.1 column.2) key
        schema.options := by
  have hcolumns : schema.columns ≠ [] := by
    obtain ⟨names, hnames, hkeys⟩ := h.keys_columns
    intro hnil
    rw [hnil] at hkeys
    cases names with
    | nil => exact h.rows_ne_nil (List.map_eq_nil_iff.mp hnames)
    | cons name names => simp [List.eraseDups_cons] at hkeys
  have hlines : schema.columns.mapM (fun column => engine.columnDefinition column.1 column.2) =
      (schema.columns.map fun column => Declared.ofColumn engine column.1 column.2).mapM
        (Declared.text engine) := by
    rw [List.mapM_map]
    refine mapM_congr fun column hc => ?_
    obtain ⟨front, row, back, -, hread, -⟩ := h.exists_row hc
    exact Declared.columnDefinition_eq hread
  have hcreatable : TableSchema.requireCreatable { schema with primaryKey := key } =
      if table = "" then .error (.schema .noTitle) else .ok () := by
    simp only [TableSchema.requireCreatable, h.title_eq, List.isEmpty_iff, hcolumns, hkey,
      String.isEmpty_iff, if_false]
  rw [Engine.createTable, hcreatable]
  split
  · rfl
  · rw [Engine.tableText, ← hlines, ← h.title_eq]
    rfl

/-- A table that was described is created with one declaration for each name that was reported, in the
order of the rows; its text can be written unless a whole number in a default or an option has too many
digits. A declaration repeats what the last row with its name says, and it keeps all of it exactly when
its type fits: on PostgreSQL a column whose values are generated has to have a type that numbers it, and
on either engine such a type has to stand for a column of this kind. -/
theorem recreated_keeps_iff {engine : Engine} {table : String} {rows : List Row}
    {schema : TableSchema} {key : List String} (h : Described table engine rows schema)
    (hkey : key ≠ []) :
    ∃ ds : List Declared,
      engine.createTable { schema with primaryKey := key } =
        (if table = "" then .error (.schema .noTitle)
          else engine.tableText table ds key schema.options) ∧
      ((∀ row ∈ rows, ∀ v, engine.ReportsDefault row v → v.writable) →
        (∀ name v, schema.options.get? name = some v → v.writable) →
        ∃ text, engine.tableText table ds key schema.options = .ok text) ∧
      (∃ names : List String,
        rows.map (Entries.get? · engine.nameMember) = names.map (some <| .text ·) ∧
          ds.map Declared.name = names.eraseDups) ∧
      ∀ d ∈ ds, ∃ front row back, rows = front ++ row :: back ∧
        (∀ later ∈ back, later.get? engine.nameMember ≠ some (.text d.name)) ∧
        Declared.Repeats engine row d ∧
        (Declared.Keeps engine row d ↔ Declared.Fits engine row d) := by
  obtain ⟨names, hnames, hkeys⟩ := h.keys_columns
  have hrow : ∀ d ∈ schema.columns.map fun column => Declared.ofColumn engine column.1 column.2,
      ∃ front row back, rows = front ++ row :: back ∧
        (∀ later ∈ back, later.get? engine.nameMember ≠ some (.text d.name)) ∧
        Declared.Repeats engine row d := by
    intro d hd
    obtain ⟨⟨name, c⟩, hc, rfl⟩ := List.mem_map.mp hd
    obtain ⟨front, row, back, hrows, hread, hback⟩ := h.exists_row hc
    exact ⟨front, row, back, hrows, hback, Declared.repeats_ofColumn hread⟩
  refine ⟨_, h.createTable_eq hkey, fun hdefaults hoptions =>
    (engine.writtenIf_tableText table _ key _).exists_ok ⟨fun d hd v hv => ?_, hoptions⟩,
    ⟨names, hnames, ?_⟩, ?_⟩
  · obtain ⟨front, row, back, rfl, -, hrepeats⟩ := hrow d hd
    exact hdefaults row (by simp) v ((hrepeats.default v).mp hv).1
  · rw [← hkeys, List.map_map]
    rfl
  · intro d hd
    obtain ⟨front, row, back, hrows, hback, hrepeats⟩ := hrow d hd
    exact ⟨front, row, back, hrows, hback, hrepeats, hrepeats.keeps_iff⟩

/-- The rows of a table with a generated column and a column that was reported twice. -/
def personRows : List Row :=
  [[("Field", .text "id"), ("Type", .text "int(11)"), ("Null", .text "NO"), ("Default", .null),
      ("Extra", .text "auto_increment")],
    [("Field", .text "name"), ("Type", .text "text"), ("Null", .text "YES"), ("Default", .null),
      ("Extra", .text "")],
    [("Field", .text "name"), ("Type", .text "varchar(32)"), ("Null", .text "NO"),
      ("Default", .text "x"), ("Extra", .text "")]]

/-- Their schema. -/
def personSchema : TableSchema where
  title := "Person"
  columns := [("id", { ColumnType.ofKind "integer" with
      options := ⟨none, some true, .null, some true, none⟩ }),
    ("name", { NativeType.sized "string" (some 32) with
      options := ⟨none, some true, .text "x", none, none⟩ })]
  primaryKey := ["id"]
  options := []

theorem recreated_keeps_iff_person :
    Described "Person" .mysql personRows personSchema ∧ ["id"] ≠ [] ∧
      ∃ (ds : List Declared) (text : String),
      Engine.mysql.createTable { personSchema with primaryKey := ["id"] } = .ok text ∧
      Engine.mysql.tableText "Person" ds ["id"] [] = .ok text ∧
      ∀ d ∈ ds, ∃ row ∈ personRows, Declared.Repeats .mysql row d := by
  have hread : Mysql.schemaOf (.text "Person") personRows [[("Column_name", .text "id")]] [] =
      .ok personSchema := rfl
  have hdescribed : Described "Person" .mysql personRows personSchema := .mysql (by decide) hread
  have hkey : ["id"] ≠ [] := by decide
  have hdefaults : ∀ row ∈ personRows, ∀ v, Engine.mysql.ReportsDefault row v → v.writable := by
    have hall : personRows.all fun row => (row.get? "Default").all Value.writable := by decide
    intro row hrow v hv
    have hvalue := List.all_eq_true.mp hall row hrow
    have hdefault : row.get? "Default" = some v := hv.1
    rwa [hdefault] at hvalue
  obtain ⟨ds, htable, htext, -, hds⟩ := recreated_keeps_iff hdescribed hkey
  obtain ⟨text, htext⟩ := htext hdefaults fun name v hv => by cases hv
  refine ⟨hdescribed, hkey, ds, text, htable.trans htext, htext, fun d hd => ?_⟩
  obtain ⟨front, row, back, hrows, -, hrepeats, -⟩ := hds d hd
  have hrow : row ∈ personRows := by
    rw [hrows]
    exact List.mem_append_right front List.mem_cons_self
  exact ⟨row, hrow, hrepeats⟩

/-- The row of a column whose default takes the next value of a sequence. -/
def sequenceRow : Row :=
  [("column_name", .text "id"), ("data_type", .text "integer"), ("is_nullable", .text "NO"),
    ("column_default", .text "nextval('t_id_seq'::regclass)")]

/-- The schema of a table with this column. -/
def sequenceSchema : TableSchema where
  title := "T"
  columns := [("id", { ColumnType.ofKind "integer" with
    options := ⟨none, some true, .null, some true, none⟩ })]
  primaryKey := ["id"]
  options := [("engine", .text "PostgreSQL")]

/-- A column whose default takes the next value of a sequence is created again as one that has neither a
default nor a type that numbers it. -/
theorem numbering_lost :
    Described "T" .postgres [sequenceRow] sequenceSchema ∧
      Engine.postgres.ReportsGenerated sequenceRow ∧
      Engine.postgres.createTable sequenceSchema = Engine.postgres.tableText "T"
        [⟨"id", "integer", true, none, false⟩] ["id"] sequenceSchema.options ∧
      Engine.postgres.createTable sequenceSchema =
        .ok "CREATE TABLE \"T\" (\n  \"id\" integer NOT NULL,\n  PRIMARY KEY (\"id\")\n)" ∧
      Declared.text .postgres ⟨"id", "integer", true, none, false⟩ =
        .ok "\"id\" integer NOT NULL" ∧
      ¬ Declared.IsGenerated .postgres ⟨"id", "integer", true, none, false⟩ := by
  have hread : Postgres.schemaOf (.text "T") [sequenceRow] [[("column_name", .text "id")]] =
      .ok sequenceSchema := rfl
  refine ⟨.postgres (by decide) hread, ⟨_, rfl, by decide, by decide +kernel⟩, rfl,
    ok_of_toOption (by decide +kernel), ok_of_toOption (by decide +kernel), ?_⟩
  · rintro (hclause | hnumbered)
    · cases hclause
    · revert hnumbered
      rw [Declared.IsNumbered]
      decide +kernel

end TableOps
