import TableOps.Definition.Table
import TableOps.Proofs.Except
import TableOps.Proofs.Number.Decimal

/-!
# Definitions that can be written

A whole number with too many digits has no text. The numbers in a definition are the length and the
precision of a type, or of the items of an array, and those in a default. Where all of them can be
written, so can the definition, and nothing else is wrong where it cannot.

* `WrittenIf` — something that is written under a condition and otherwise fails for its numbers.
* `Integer.Writable`, `ColumnType.Writable` — the condition for a number and for a column.
* `Engine.writtenIf_toNative`, `writtenIf_defaultLiteral` — types and literals.
* `Engine.writtenIf_typeWithOptions`, `Engine.writtenIf_columnDefinition`,
  `Engine.writtenIf_tableOptions` — columns, and the options of a table.
-/

namespace TableOps

/-- Something is written when `P` holds; where it is not, a whole number has too many digits. -/
def WrittenIf {α : Type} (P : Prop) (x : Except Failure α) : Prop :=
  (∃ a, x = .ok a) ∨ x = .error (.input .unwritableInteger) ∧ ¬ P

namespace WrittenIf

variable {α β : Type} {P Q : Prop} {x : Except Failure α}

theorem ok (a : α) : WrittenIf P (.ok a) :=
  .inl ⟨a, rfl⟩

theorem of_imp (h : WrittenIf Q x) (himp : P → Q) : WrittenIf P x :=
  h.imp_right fun hfails => ⟨hfails.1, fun hP => hfails.2 (himp hP)⟩

theorem map (h : WrittenIf P x) (f : α → β) : WrittenIf P (x.map f) := by
  rcases h with ⟨a, rfl⟩ | ⟨rfl, hP⟩
  · exact .ok (f a)
  · exact .inr ⟨rfl, hP⟩

theorem bind (h : WrittenIf P x) {f : α → Except Failure β} (hf : ∀ a, WrittenIf P (f a)) :
    WrittenIf P (x >>= f) := by
  rcases h with ⟨a, rfl⟩ | ⟨rfl, hP⟩
  · exact hf a
  · exact .inr ⟨rfl, hP⟩

theorem mapM {f : α → Except Failure β} {items : List α} (h : ∀ a ∈ items, WrittenIf P (f a)) :
    WrittenIf P (items.mapM f) := by
  cases hall : items.mapM f with
  | ok results => exact .ok results
  | error e =>
    obtain ⟨a, ha, herror⟩ := error_of_mapM hall
    rcases h a ha with ⟨b, hb⟩ | ⟨hfails, hP⟩
    · cases herror.symm.trans hb
    · cases herror.symm.trans hfails
      exact .inr ⟨rfl, hP⟩

theorem exists_ok (h : WrittenIf P x) (hP : P) : ∃ a, x = .ok a :=
  h.resolve_right fun hfails => hfails.2 hP

theorem of_error (h : WrittenIf P x) {f : Failure} (hf : x = .error f) :
    f = .input .unwritableInteger ∧ ¬ P := by
  rcases h with ⟨a, ha⟩ | ⟨hfails, hP⟩
  · cases ha.symm.trans hf
  · cases hfails.symm.trans hf
    exact ⟨rfl, hP⟩

end WrittenIf

/-! ## Numbers -/

/-- A whole number has few enough digits to be written. -/
def Integer.Writable (n : Int) : Prop :=
  n.natAbs < 10 ^ digitLimit

/-- A number that may be missing can be written. -/
def Integer.AllWritable (n : Option Int) : Prop :=
  ∀ m, n = some m → Writable m

theorem Integer.writtenIf_digits (n : Int) : WrittenIf (Writable n) (digits n) :=
  (digits_cases n).imp_left fun ⟨s, hs, _⟩ => ⟨s, hs⟩

/-! ## Types -/

namespace ColumnType

/-- The length and the precision of a type can be written, also those of the items of an array. -/
inductive NumbersWritable : ColumnType → Prop where
  | intro {c : ColumnType} (maxLength : Integer.AllWritable c.maxLength)
      (precision : Integer.AllWritable c.precision)
      (items : ∀ items, c.arrayOf = some items → NumbersWritable items) : NumbersWritable c

theorem NumbersWritable.maxLength {c : ColumnType} :
    c.NumbersWritable → Integer.AllWritable c.maxLength
  | intro h _ _ => h

theorem NumbersWritable.precision {c : ColumnType} :
    c.NumbersWritable → Integer.AllWritable c.precision
  | intro _ h _ => h

theorem NumbersWritable.items {c items : ColumnType} (hitems : c.arrayOf = some items) :
    c.NumbersWritable → items.NumbersWritable
  | intro _ _ h => h items hitems

/-- Every number of a column can be written, those in its default included. -/
def Writable (c : ColumnType) : Prop :=
  c.NumbersWritable ∧ c.options.default.writable

end ColumnType

namespace NativeType

theorem nonZero?_eq_some {n : Option Int} {m : Int} (h : nonZero? n = some m) : n = some m :=
  (Option.filter_eq_some_iff.mp h).1

theorem writtenIf_withNumber (word : String) (n : Int) :
    WrittenIf (Integer.Writable n) (withNumber word n) :=
  (Integer.writtenIf_digits n).map _

theorem writtenIf_withPrecision (word : String) (precision : Option Int) :
    WrittenIf (Integer.AllWritable precision) (withPrecision word precision) := by
  unfold withPrecision
  split
  · rename_i n hn
    exact (writtenIf_withNumber word n).of_imp fun h => h n (nonZero?_eq_some hn)
  · exact .ok _

namespace Mysql

theorem writtenIf_sizedNative (word : String) (length : Option Int) (tiers : List (Int × String))
    (largest unsized : String) :
    WrittenIf (Integer.AllWritable length) (sizedNative word length tiers largest unsized) := by
  unfold sizedNative
  split
  · rename_i n hn
    split
    · exact (writtenIf_withNumber word n).of_imp fun h => h n (nonZero?_eq_some hn)
    · exact .ok _
  · exact .ok _

theorem writtenIf_textNative (format : Option String) (length : Option Int) :
    WrittenIf (Integer.AllWritable length) (textNative format length) := by
  unfold textNative
  split
  · exact .ok _
  · exact writtenIf_sizedNative ..

theorem writtenIf_binaryNative (format : Option String) (length : Option Int) :
    WrittenIf (Integer.AllWritable length) (binaryNative format length) := by
  unfold binaryNative
  split
  · exact .ok _
  · exact writtenIf_sizedNative ..

theorem writtenIf_varbinary (length : Option Int) : WrittenIf (Integer.AllWritable length)
    (withNumber "varbinary" ((nonZero? length).getD lengthLimit)) := by
  cases hlength : nonZero? length with
  | none => exact .ok "varbinary(255)"
  | some n =>
    exact (writtenIf_withNumber "varbinary" n).of_imp fun h => h n (nonZero?_eq_some hlength)

theorem writtenIf_toNative (c : ColumnType) : WrittenIf c.NumbersWritable (toNative c) := by
  unfold toNative
  split
  case h_3 => exact (writtenIf_textNative _ _).of_imp fun h => h.maxLength
  case h_6 | h_7 | h_8 => exact (writtenIf_withPrecision _ _).of_imp fun h => h.precision
  case h_11 => exact (writtenIf_binaryNative _ _).of_imp fun h => h.maxLength
  case h_12 => exact (writtenIf_varbinary _).of_imp fun h => h.maxLength
  all_goals exact .ok _

end Mysql

namespace Postgres

theorem writtenIf_textNative (format : Option String) (length : Option Int) :
    WrittenIf (Integer.AllWritable length) (textNative format length) := by
  unfold textNative
  split
  · exact .ok _
  · split
    · rename_i n hn
      exact (writtenIf_withNumber "varchar" n).of_imp fun h =>
        h n (nonZero?_eq_some (Option.filter_eq_some_iff.mp hn).1)
    · exact .ok _

theorem writtenIf_timeNative (word : String) (precision : Option Int) (withTimeZone : Option Bool) :
    WrittenIf (Integer.AllWritable precision) (timeNative word precision withTimeZone) :=
  (writtenIf_withPrecision word precision).map _

/-- An array is written as its items are. -/
theorem writtenIf_toNative : ∀ c : ColumnType, WrittenIf c.NumbersWritable (toNative c)
  | ⟨kind, format, maxLength, precision, withTimeZone, arrayOf, options⟩ => by
    unfold toNative
    split
    case h_3 => exact (writtenIf_textNative _ _).of_imp fun h => h.maxLength
    case h_5 | h_6 | h_7 => exact (writtenIf_timeNative _ _ _).of_imp fun h => h.precision
    case h_11 =>
      cases arrayOf with
      | none => exact .ok _
      | some items => exact ((writtenIf_toNative items).map _).of_imp fun h => h.items rfl
    case h_1 | h_4 => split <;> exact .ok _
    all_goals exact .ok _

end Postgres

end NativeType

theorem Engine.writtenIf_toNative (engine : Engine) (c : ColumnType) :
    WrittenIf c.NumbersWritable (engine.toNative c) := by
  cases engine with
  | mysql => exact NativeType.Mysql.writtenIf_toNative c
  | postgres => exact NativeType.Postgres.writtenIf_toNative c

/-! ## Literals -/

theorem Value.writtenIf_asText (v : Value) : WrittenIf v.writable v.asText := by
  unfold asText
  split
  · exact .ok _
  · rename_i hwritable
    exact .inr ⟨rfl, hwritable⟩

theorem writtenIf_defaultLiteral (v : Value) : WrittenIf v.writable (defaultLiteral v) := by
  cases v with
  | bool b => exact .ok _
  | int n =>
    refine (Integer.writtenIf_digits n).of_imp fun h => ?_
    rwa [Value.writable, Integer.isSome_text?_iff] at h
  | float x => exact .ok _
  | _ => exact (Value.writtenIf_asText _).map _

/-! ## Columns -/

namespace Engine

theorem writtenIf_commonOptions (o : ColumnOptions) :
    WrittenIf o.default.writable (commonOptions o) := by
  refine WrittenIf.map ?_ _
  unfold defaultClause
  split
  · exact .ok _
  · exact (writtenIf_defaultLiteral o.default).map _

theorem writtenIf_columnOptions (engine : Engine) (o : ColumnOptions) :
    WrittenIf o.default.writable (engine.columnOptions o) := by
  cases engine with
  | mysql => exact (writtenIf_commonOptions o).map _
  | postgres => exact writtenIf_commonOptions o

theorem writtenIf_typeWithOptions (engine : Engine) (c : ColumnType) :
    WrittenIf c.Writable (engine.typeWithOptions c) :=
  ((engine.writtenIf_toNative c).of_imp fun h => h.1).bind fun _ =>
    ((engine.writtenIf_columnOptions c.options).of_imp fun h => h.2).bind fun _ => .ok _

theorem writtenIf_columnDefinition (engine : Engine) (name : String) (c : ColumnType) :
    WrittenIf c.Writable (engine.columnDefinition name c) :=
  (engine.writtenIf_typeWithOptions c).map _

/-! ## Tables -/

theorem writtenIf_tableOption {P : Prop} {options : Entries Value} {name : String}
    {write : Value → Except Failure String} (label : String)
    (h : ∀ v, options.get? name = some v → WrittenIf P (write v)) :
    WrittenIf P (tableOption options name label write) := by
  unfold tableOption
  split
  · rename_i v hv
    exact (h v (Option.filter_eq_some_iff.mp hv).1).map _
  · exact .ok _

theorem writtenIf_tableOptions (engine : Engine) (options : Entries Value) :
    WrittenIf (∀ name v, options.get? name = some v → v.writable) (engine.tableOptions options) := by
  have hplain {label name : String} :
      WrittenIf (∀ name v, options.get? name = some v → v.writable)
        (tableOption options name label Value.asText) :=
    writtenIf_tableOption label fun v hv => v.writtenIf_asText.of_imp fun h => h name v hv
  have hliteral {label name : String} :
      WrittenIf (∀ name v, options.get? name = some v → v.writable)
        (tableOption options name label defaultLiteral) :=
    writtenIf_tableOption label fun v hv => (writtenIf_defaultLiteral v).of_imp fun h => h name v hv
  cases engine with
  | postgres => exact .ok _
  | mysql =>
    exact hplain.bind fun _ => hplain.bind fun _ => hplain.bind fun _ => hliteral.bind fun _ => .ok _

end Engine

end TableOps
