import TableOps.Proofs.NativeType.Mysql
import TableOps.Proofs.NativeType.Postgres
import TableOps.Proofs.Result.Reported
import TableOps.Proofs.Session.SchemaCoherence

/-!
# Described columns

What a row of an engine's answer says about a column, and what is kept of it in the schema of the table.
The engines name the members differently, and one of them marks a generated column in a member of its
own where the other one takes the next value of a sequence as its default.

* `Engine.ReportsNotNull`, `Engine.ReportsGenerated`, `Engine.ReportsDefault` — what a row says.
* `Engine.ReadAs` — the column of a schema says the same; `Engine.readAs_of_readRow`.
* `Described` — a schema that was read from rows; `described_of_describe`, a schema that is asked for.
* `Described.exists_pairs` — its columns are what the rows write, from the first one to the last.

Main statement: `Described.exists_row`, a column is read from the last row with its name.
-/

namespace TableOps

/-! ## Rows -/

namespace Engine

variable (engine : Engine) (row : Row)

/-- The member with the name of the column. -/
def nameMember : Engine → String
  | .mysql => "Field"
  | .postgres => "column_name"

/-- The member that says whether the column may be null. -/
def nullMember : Engine → String
  | .mysql => "Null"
  | .postgres => "is_nullable"

/-- The member with the default of the column. -/
def defaultMember : Engine → String
  | .mysql => "Default"
  | .postgres => "column_default"

/-- The spelling of the type of the column. -/
def reportedType : Except Failure String :=
  match engine with
  | .mysql => Introspection.member row "Type" >>= Value.toText
  | .postgres => Postgres.nativeType row >>= Value.toText

/-- The column may not be null. -/
def ReportsNotNull : Prop :=
  row.get? engine.nullMember = some (.text "NO")

/-- The values of the column are generated: one engine says so, with the other one the default takes
the next value of a sequence. -/
def ReportsGenerated : Prop :=
  match engine with
  | .mysql => row.get? "Extra" = some (.text "auto_increment")
  | .postgres => ∃ v, row.get? "column_default" = some v ∧ v.truthy = true ∧
      Text.startsWith "nextval" v.plainText = true

/-- The column has a default, which is neither null nor empty. -/
def ReportsDefault (v : Value) : Prop :=
  row.get? engine.defaultMember = some v ∧ v ≠ .null ∧ v ≠ .text ""

/-- The column that a row reports. -/
def readRow : Except Failure (Value × ColumnType) :=
  match engine with
  | .mysql => Introspection.readColumn .mysql row
  | .postgres => Postgres.commonRow row >>= Introspection.readColumn .postgres

/-- A column says what the row says, apart from a default that is generated. -/
structure ReadAs (name : String) (c : ColumnType) : Prop where
  named : row.get? engine.nameMember = some (.text name)
  typed : ∃ native c', engine.reportedType row = .ok native ∧ engine.ofNative native = .ok c' ∧
    engine.toNative c = engine.toNative c'
  notNull : c.options.notNull = some true ↔ engine.ReportsNotNull row
  generated : c.options.autoIncrement = some true ↔ engine.ReportsGenerated row
  default : ∀ v, v ≠ .null →
    (c.options.default = v ↔ engine.ReportsDefault row v ∧ ¬ engine.ReportsGenerated row)
  comment : c.options.comment = none

end Engine

/-! ## Native types -/

/-- Nothing is said but whether numbers have a sign. -/
structure ColumnOptions.IsBare (o : ColumnOptions) : Prop where
  notNull : o.notNull = .none
  default : o.default = .null
  autoIncrement : o.autoIncrement = .none
  comment : o.comment = .none

theorem ColumnOptions.isBare_none : ColumnOptions.none.IsBare :=
  ⟨rfl, rfl, rfl, rfl⟩

/-- A table of columns without options says nothing of any of them. -/
theorem ColumnOptions.isBare_of_mem {columns : Entries ColumnType}
    (hall : columns.map (·.2.options) = List.replicate columns.length .none)
    {entry : String × ColumnType} (h : entry ∈ columns) : entry.2.options.IsBare := by
  have hmem : entry.2.options ∈ columns.map (·.2.options) := List.mem_map_of_mem h
  rw [hall] at hmem
  rw [List.eq_of_mem_replicate hmem]
  exact isBare_none

namespace NativeType.Mysql

theorem isBare_exact {entry : String × ColumnType} (h : entry ∈ exact) : entry.2.options.IsBare :=
  ColumnOptions.isBare_of_mem rfl h

theorem isBare_integerOf? {spelling : String} {c : ColumnType}
    (h : integerOf? spelling = some c) : c.options.IsBare := by
  obtain ⟨entry, -, rfl⟩ := Option.map_eq_some_iff.mp h
  dsimp only
  split
  · exact ⟨rfl, rfl, rfl, rfl⟩
  · exact ColumnOptions.isBare_none

theorem isBare_fixed {c : ColumnType} (h : c ∈ fixedTypes) : c.options.IsBare := by
  have hall : ∀ c ∈ fixedTypes, c.options = .none := by simp [fixedTypes, refined, ColumnType.ofKind]
  rw [hall c h]
  exact ColumnOptions.isBare_none

theorem isBare_ofSpelling {native spelling : String} {c : ColumnType}
    (h : ofSpelling native spelling = .ok c) : c.options.IsBare := by
  cases ofSpelling_cases h with
  | integer hinteger => exact isBare_integerOf? hinteger
  | fixed hfixed => exact isBare_fixed hfixed
  | _ => exact ColumnOptions.isBare_none

theorem isBare_ofNative {native : String} {c : ColumnType} (h : ofNative native = .ok c) :
    c.options.IsBare := by
  unfold ofNative at h
  dsimp only at h
  split at h
  · rename_i column hexact
    cases h
    exact isBare_exact (Entries.mem_of_get? hexact)
  · exact isBare_ofSpelling h

end NativeType.Mysql

namespace NativeType.Postgres

theorem isBare_exact {entry : String × ColumnType} (h : entry ∈ exact) : entry.2.options.IsBare :=
  ColumnOptions.isBare_of_mem rfl h

theorem isBare_itemOfNative {native : String} {c : ColumnType} (h : itemOfNative native = .ok c) :
    c.options.IsBare := by
  unfold itemOfNative at h
  dsimp only at h
  split at h
  · rename_i column hexact
    cases h
    exact isBare_exact (Entries.mem_of_get? hexact)
  · cases ofSpelling_cases h <;> exact ColumnOptions.isBare_none

theorem isBare_ofNative {native : String} {c : ColumnType} (h : ofNative native = .ok c) :
    c.options.IsBare := by
  obtain ⟨⟨n, base⟩, hpeel⟩ : ∃ layers, peel native.toList.reverse = layers := ⟨_, rfl⟩
  simp only [ofNative, hpeel] at h
  obtain ⟨item, hitem, rfl⟩ := ok_of_map h
  cases n with
  | zero => exact isBare_itemOfNative hitem
  | succ n => exact ColumnOptions.isBare_none

end NativeType.Postgres

theorem Engine.isBare_ofNative {engine : Engine} {native : String} {c : ColumnType}
    (h : engine.ofNative native = .ok c) : c.options.IsBare := by
  cases engine with
  | mysql =>
    rw [ofNative] at h
    exact NativeType.Mysql.isBare_ofNative h
  | postgres =>
    rw [ofNative] at h
    exact NativeType.Postgres.isBare_ofNative h

/-- Of the options only the sign has a part in the spelling. -/
theorem Engine.toNative_withOptions {engine : Engine} (c : ColumnType) {o : ColumnOptions}
    (h : o.unsigned = c.options.unsigned) :
    engine.toNative { c with options := o } = engine.toNative c := by
  cases engine with
  | mysql => simp only [toNative, NativeType.Mysql.toNative, h]
  | postgres =>
    obtain ⟨kind, format, maxLength, precision, withTimeZone, arrayOf, options⟩ := c
    simp only [toNative]
    rw [NativeType.Postgres.toNative.eq_def, NativeType.Postgres.toNative.eq_def
      ⟨kind, format, maxLength, precision, withTimeZone, arrayOf, options⟩]

/-! ## Reading a row -/

namespace Introspection

variable {row : Row} {name : String}

theorem get?_of_member {v : Value} (h : member row name = .ok v) : row.get? name = some v := by
  unfold member at h
  split at h
  · cases h
    assumption
  · cases h

theorem states_iff {s : String} : states row name s = true ↔ row.get? name = some (.text s) := by
  rw [states, beq_iff_eq, Option.bind_eq_some_iff]
  constructor
  · rintro ⟨v, hv, htext⟩
    cases v <;> first | cases htext; exact hv | cases htext
  · intro h
    exact ⟨.text s, h, rfl⟩

/-- The default that is given, when it is not null. -/
theorem givenDefault_eq_iff {v : Value} (hv : v ≠ .null) :
    givenDefault row = v ↔ row.get? "Default" = some v ∧ v ≠ .text "" := by
  unfold givenDefault
  split
  · rename_i s hs
    rw [hs, Option.some_inj]
    by_cases hempty : s.isEmpty = true
    · rw [if_pos hempty, String.isEmpty_iff.mp hempty]
      exact iff_of_false (Ne.symm hv) fun h => h.2 h.1.symm
    · rw [if_neg hempty]
      refine ⟨fun h => ⟨h, fun hv' => ?_⟩, And.left⟩
      rw [hv', Value.text.injEq] at h
      exact hempty (String.isEmpty_iff.mpr h)
  · rename_i w hw hs
    rw [hs, Option.some_inj]
    refine ⟨fun h => ⟨h, fun hv' => ?_⟩, And.left⟩
    exact hw "" (h.trans hv')
  · rename_i hnone
    rw [hnone]
    exact iff_of_false (Ne.symm hv) fun h => nomatch h.1

/-- What a row in the common form adds to the options of a native type. -/
theorem optionsOf_eq {o : ColumnOptions} (ho : o.IsBare) :
    optionsOf row o =
      { unsigned := o.unsigned
        notNull := if states row "Null" "NO" then some true else none
        default := if states row "Extra" "auto_increment" then .null else givenDefault row
        autoIncrement := if states row "Extra" "auto_increment" then some true else none
        comment := none } := by
  obtain ⟨hnotNull, hdefault, hautoIncrement, hcomment⟩ := ho
  obtain ⟨unsigned, notNull, default, autoIncrement, comment⟩ := o
  subst hnotNull hdefault hautoIncrement hcomment
  unfold optionsOf
  dsimp only
  split <;> split <;> rfl

/-- The column of a row in the common form. -/
theorem of_readColumn {engine : Engine} {key : Value} {c : ColumnType}
    (h : readColumn engine row = .ok (key, c)) :
    row.get? "Field" = some key ∧ ∃ v native c', row.get? "Type" = some v ∧
      v.toText = .ok native ∧ engine.ofNative native = .ok c' ∧
      c = { c' with options := optionsOf row c'.options } := by
  unfold readColumn at h
  obtain ⟨v, hv, h⟩ := ok_of_bind h
  obtain ⟨native, hnative, h⟩ := ok_of_bind h
  obtain ⟨c', hc', h⟩ := ok_of_bind h
  obtain ⟨field, hfield, h⟩ := ok_of_bind h
  cases h
  exact ⟨get?_of_member hfield, v, native, c', get?_of_member hv, hnative, hc', rfl⟩

end Introspection

namespace Engine

variable {engine : Engine} {row : Row}

/-- A row in the common form that says the same. -/
structure HasCommon (engine : Engine) (row common : Row) : Prop where
  name : common.get? "Field" = row.get? engine.nameMember
  type : ∀ v native, common.get? "Type" = some v → v.toText = .ok native →
    engine.reportedType row = .ok native
  null : common.get? "Null" = row.get? engine.nullMember
  default : common.get? "Default" = row.get? engine.defaultMember
  extra : common.get? "Extra" = some (.text "auto_increment") ↔ engine.ReportsGenerated row

theorem hasCommon_self (row : Row) : HasCommon .mysql row row where
  name := rfl
  type v native hv hnative := by
    simp only [reportedType, Introspection.member, hv]
    exact hnative
  null := rfl
  default := rfl
  extra := Iff.rfl

theorem hasCommon_commonRow {row common : Row} (h : Postgres.commonRow row = .ok common) :
    HasCommon .postgres row common := by
  have hmember : ∀ {name : String} {v : Value}, Introspection.member row name = .ok v →
      row.get? name = some v := Introspection.get?_of_member
  unfold Postgres.commonRow at h
  obtain ⟨name, hname, h⟩ := ok_of_bind h
  obtain ⟨native, hnative, h⟩ := ok_of_bind h
  obtain ⟨nullable, hnullable, h⟩ := ok_of_bind h
  obtain ⟨default, hdefault, h⟩ := ok_of_bind h
  cases h
  refine ⟨(hmember hname).symm, fun v text hv htext => ?_, (hmember hnullable).symm,
    (hmember hdefault).symm, ?_⟩
  · cases hv
    simp only [reportedType, hnative]
    exact htext
  · have hgenerated : ReportsGenerated .postgres row ↔ Postgres.isGenerated default = true := by
      rw [Postgres.isGenerated, Bool.and_eq_true]
      refine ⟨?_, fun h => ⟨default, hmember hdefault, h⟩⟩
      rintro ⟨v, hv, hnext⟩
      cases hv.symm.trans (hmember hdefault)
      exact hnext
    have hextra : Entries.get? [("Field", name), ("Type", native), ("Null", nullable),
        ("Default", default), ("Extra", Value.text
          (if Postgres.isGenerated default then "auto_increment" else ""))] "Extra" =
        some (.text (if Postgres.isGenerated default then "auto_increment" else "")) := rfl
    rw [hextra, hgenerated, Option.some_inj, Value.text.injEq]
    cases Postgres.isGenerated default <;> simp

/-- A column is read from a row in the common form. -/
theorem exists_common {r : Value × ColumnType} (h : engine.readRow row = .ok r) :
    ∃ common, HasCommon engine row common ∧ Introspection.readColumn engine common = .ok r := by
  cases engine with
  | mysql => exact ⟨row, hasCommon_self row, h⟩
  | postgres =>
    obtain ⟨common, hcommon, hread⟩ := ok_of_bind h
    exact ⟨common, hasCommon_commonRow hcommon, hread⟩

/-- A column that is read from a row says what the row says. -/
theorem readAs_of_readRow {name : String} {c : ColumnType}
    (h : engine.readRow row = .ok (.text name, c)) : engine.ReadAs row name c := by
  obtain ⟨common, hcommon, hread⟩ := exists_common h
  obtain ⟨hname, v, native, c', hv, hnative, hc', rfl⟩ := Introspection.of_readColumn hread
  have hbare := isBare_ofNative hc'
  have hoptions := @Introspection.optionsOf_eq common _ hbare
  have hnull : Introspection.states common "Null" "NO" = true ↔ engine.ReportsNotNull row := by
    rw [Introspection.states_iff, hcommon.null, ReportsNotNull]
  have hextra : Introspection.states common "Extra" "auto_increment" = true ↔
      engine.ReportsGenerated row := by
    rw [Introspection.states_iff, hcommon.extra]
  refine ⟨hcommon.name.symm.trans hname, ⟨native, c', hcommon.type v native hv hnative, hc', ?_⟩, ?_,
    ?_, ?_, ?_⟩
  · exact toNative_withOptions c' (by rw [hoptions])
  · rw [← hnull]
    simp [hoptions]
  · rw [← hextra]
    simp [hoptions]
  · intro v hv
    have hdefault : Introspection.givenDefault common = v ↔ engine.ReportsDefault row v := by
      rw [Introspection.givenDefault_eq_iff hv, hcommon.default, ReportsDefault]
      simp [hv]
    rw [← hdefault, ← hextra]
    simp only [hoptions]
    split
    · rename_i hstates
      exact iff_of_false (Ne.symm hv) fun h => h.2 hstates
    · rename_i hstates
      rw [and_iff_left hstates]
  · simp [hoptions]

end Engine

/-! ## Reading the rows of a table -/

/-- The columns that rows in the common form report are those that they write, from the first row to
the last. -/
theorem Introspection.forall₂_of_readColumns {engine : Engine} {rows : List Row}
    {columns : Entries ColumnType} (h : readColumns engine rows = .ok (Keyed.ofEntries columns)) :
    ∃ pairs : Entries ColumnType, columns = Entries.ofPairs pairs ∧
      List.Forall₂ (fun row pair => readColumn engine row = .ok (.text pair.1, pair.2)) rows pairs := by
  have hfold : ∀ (rows : List Row) (keyed : Keyed ColumnType) (columns : Entries ColumnType),
      rows.foldlM (fun columns row => do
        let column ← readColumn engine row
        columns.insert? column.1 column.2) keyed = .ok (Keyed.ofEntries columns) →
      ∃ entries pairs : Entries ColumnType, keyed = Keyed.ofEntries entries ∧
        columns = entries.update pairs ∧
        List.Forall₂ (fun row pair => readColumn engine row = .ok (.text pair.1, pair.2)) rows
          pairs := by
    intro rows
    induction rows with
    | nil =>
      intro keyed columns h
      cases h
      exact ⟨columns, [], rfl, rfl, .nil⟩
    | cons row rows ih =>
      intro keyed columns h
      rw [List.foldlM_cons] at h
      obtain ⟨keyed', hstep, h⟩ := ok_of_bind h
      obtain ⟨⟨key, c⟩, hread, hinsert⟩ := ok_of_bind hstep
      obtain ⟨entries, pairs, rfl, rfl, hrows⟩ := ih keyed' columns h
      have hput : keyed.put key c = Keyed.ofEntries entries := by
        dsimp only at hinsert
        unfold Keyed.insert? at hinsert
        split at hinsert
        · injection hinsert
        · cases hinsert
      obtain ⟨name, entries', rfl, rfl, rfl⟩ := Keyed.of_put_eq_ofEntries hput
      exact ⟨entries', (name, c) :: pairs, rfl, rfl, .cons hread hrows⟩
  obtain ⟨entries, pairs, hnil, hcolumns, hrows⟩ := hfold rows [] columns h
  cases entries with
  | nil => exact ⟨pairs, hcolumns, hrows⟩
  | cons => cases hnil

/-- Rows are read through their common forms. -/
theorem Engine.forall₂_readRow {rows commons : List Row} {pairs : Entries ColumnType}
    (hcommon : List.Forall₂ (fun row common => Postgres.commonRow row = .ok common) rows commons)
    (hread : List.Forall₂ (fun row pair =>
      Introspection.readColumn .postgres row = .ok (.text pair.1, pair.2)) commons pairs) :
    List.Forall₂ (fun row pair => postgres.readRow row = .ok (.text pair.1, pair.2)) rows pairs := by
  induction hcommon generalizing pairs with
  | nil =>
    cases hread
    exact .nil
  | cons hrow hrows ih =>
    cases hread with
    | cons hpair hpairs =>
      refine .cons ?_ (ih hpairs)
      rw [readRow, hrow]
      exact hpair

/-- Rows are named as the columns that are read from them. -/
theorem Engine.map_get?_nameMember {engine : Engine} {rows : List Row} {pairs : Entries ColumnType}
    (hread : List.Forall₂ (fun row pair => engine.readRow row = .ok (.text pair.1, pair.2)) rows
      pairs) :
    rows.map (Entries.get? · engine.nameMember) = pairs.keys.map (some <| .text ·) := by
  rw [← List.forall₂_eq_eq_eq, Entries.keys, List.map_map, List.forall₂_map_left_iff,
    List.forall₂_map_right_iff]
  exact hread.imp fun row pair hrow => (readAs_of_readRow hrow).named

theorem Introspection.columns_of_schemaOf {table : Value} {columns : Keyed ColumnType}
    {keys : List Value} {options : Entries Value} {schema : TableSchema}
    (h : schemaOf table columns keys options = .ok schema) :
    columns = Keyed.ofEntries schema.columns := by
  obtain ⟨named, names, hnamed, -, rfl⟩ := Check.passes_of_seq (Check.passes_of_toExcept h)
  obtain ⟨titled, members, htitled, hmembers, rfl⟩ := Check.passes_of_seq hnamed
  obtain ⟨title, -, rfl⟩ := Check.passes_of_map htitled
  exact Check.eq_ofEntries (Check.passes_of_within hmembers)

/-- A schema that was read from the rows that an engine reports about the columns of a table. -/
inductive Described (table : String) : Engine → List Row → TableSchema → Prop where
  | mysql {rows keys status : List Row} {schema : TableSchema} (hrows : rows ≠ [])
      (h : Mysql.schemaOf (.text table) rows keys status = .ok schema) :
      Described table .mysql rows schema
  | postgres {rows keys : List Row} {schema : TableSchema} (hrows : rows ≠ [])
      (h : Postgres.schemaOf (.text table) rows keys = .ok schema) :
      Described table .postgres rows schema

/-- A schema that is asked for is read from the rows that the engine answers with. -/
theorem described_of_describe {d : Dialect} {c : ConnectionId} {table : String} {s s' : Session}
    {schema : TableSchema} (h : (d.describe c (.text table)).run.run s = (.ok schema, s')) :
    ∃ statement params columns u, (c.query statement params).run.run s = (.ok columns, u) ∧
      Described table d.engine columns.rows schema := by
  have hthrow : ∀ {α : Type} {f : Failure} {g : α → SessionM TableSchema} {s : Session},
      ((throw f : SessionM α) >>= g).run.run s ≠ (.ok schema, s') := fun hrun => nomatch hrun
  unfold Dialect.describe at h
  dsimp only at h
  split at h
  · rename_i hengine
    rw [hengine]
    obtain ⟨name, u₀, hname, h⟩ := ok_of_run_bind h
    cases hname
    obtain ⟨columns, u, hcolumns, h⟩ := ok_of_run_bind h
    split at h
    · exact absurd h hthrow
    · rename_i hrows
      obtain ⟨keys, u', -, h⟩ := ok_of_run_bind h
      obtain ⟨status, u'', -, h⟩ := ok_of_run_bind h
      refine ⟨_, _, columns, u, hcolumns, .mysql ?_ (congrArg Prod.fst h)⟩
      simpa using hrows
  · rename_i hengine
    rw [hengine]
    obtain ⟨columns, u, hcolumns, h⟩ := ok_of_run_bind h
    split at h
    · exact absurd h hthrow
    · rename_i hrows
      obtain ⟨keys, u', -, h⟩ := ok_of_run_bind h
      refine ⟨_, _, columns, u, hcolumns, .postgres ?_ (congrArg Prod.fst h)⟩
      simpa using hrows

namespace Described

variable {table : String} {engine : Engine} {rows : List Row} {schema : TableSchema}

theorem rows_ne_nil (h : Described table engine rows schema) : rows ≠ [] := by
  cases h <;> assumption

theorem title_eq (h : Described table engine rows schema) : schema.title = table := by
  cases h with
  | mysql _ h =>
    obtain ⟨keys, -, h⟩ := ok_of_bind h
    obtain ⟨columns, -, h⟩ := ok_of_bind h
    obtain ⟨names, -, h⟩ := ok_of_bind h
    exact Introspection.title_of_schemaOf h
  | postgres _ h =>
    obtain ⟨commons, -, h⟩ := ok_of_bind h
    obtain ⟨columns, -, h⟩ := ok_of_bind h
    obtain ⟨names, -, h⟩ := ok_of_bind h
    exact Introspection.title_of_schemaOf h

/-- The columns are those that the rows write, from the first one to the last. -/
theorem exists_pairs (h : Described table engine rows schema) :
    ∃ pairs : Entries ColumnType, schema.columns = Entries.ofPairs pairs ∧
      List.Forall₂ (fun row pair => engine.readRow row = .ok (.text pair.1, pair.2)) rows pairs := by
  cases h with
  | mysql _ h =>
    obtain ⟨keys, -, h⟩ := ok_of_bind h
    obtain ⟨columns, hcolumns, h⟩ := ok_of_bind h
    obtain ⟨names, -, h⟩ := ok_of_bind h
    rw [Introspection.columns_of_schemaOf h] at hcolumns
    exact Introspection.forall₂_of_readColumns hcolumns
  | postgres _ h =>
    obtain ⟨commons, hcommons, h⟩ := ok_of_bind h
    obtain ⟨columns, hcolumns, h⟩ := ok_of_bind h
    obtain ⟨names, -, h⟩ := ok_of_bind h
    rw [Introspection.columns_of_schemaOf h] at hcolumns
    obtain ⟨pairs, hpairs, hread⟩ := Introspection.forall₂_of_readColumns hcolumns
    exact ⟨pairs, hpairs, Engine.forall₂_readRow (forall₂_of_mapM hcommons) hread⟩

/-- The columns are named as the rows are, each name in its first place. -/
theorem keys_columns (h : Described table engine rows schema) :
    ∃ names : List String, rows.map (Entries.get? · engine.nameMember) = names.map (some <| .text ·) ∧
      schema.columns.keys = names.eraseDups := by
  obtain ⟨pairs, hpairs, hread⟩ := h.exists_pairs
  exact ⟨pairs.keys, Engine.map_get?_nameMember hread, by rw [hpairs, Entries.keys_ofPairs]⟩

/-- A column says what the last row with its name says. -/
theorem exists_row (h : Described table engine rows schema) {name : String} {c : ColumnType}
    (hc : (name, c) ∈ schema.columns) :
    ∃ front row back, rows = front ++ row :: back ∧ engine.ReadAs row name c ∧
      ∀ later ∈ back, later.get? engine.nameMember ≠ some (.text name) := by
  obtain ⟨pairs, hpairs, hread⟩ := h.exists_pairs
  have hnil : (Entries.keys ([] : Entries ColumnType)).Nodup := List.nodup_nil
  have hnodup : schema.columns.keys.Nodup := by
    rw [hpairs]
    exact Entries.nodup_keys_update hnil pairs
  have hfound := Entries.get?_of_mem hnodup hc
  rw [hpairs] at hfound
  obtain ⟨front, back, rfl, hback⟩ := Entries.exists_of_get?_ofPairs hfound
  -- the rows are cut where the pairs are
  have hcut := List.forall₂_drop_append rows front _ hread
  obtain ⟨row, later, hrow, hlater, hdrop⟩ := List.forall₂_cons_right_iff.mp hcut
  refine ⟨rows.take front.length, row, later, ?_, Engine.readAs_of_readRow hrow, ?_⟩
  · rw [← hdrop, List.take_append_drop]
  · intro r hr hname
    have hmem : some (.text name) ∈ later.map (Entries.get? · engine.nameMember) :=
      List.mem_map.mpr ⟨r, hr, hname⟩
    rw [Engine.map_get?_nameMember hlater, List.mem_map] at hmem
    obtain ⟨name', hname', hsame⟩ := hmem
    cases hsame
    exact hback hname'

end Described

end TableOps
