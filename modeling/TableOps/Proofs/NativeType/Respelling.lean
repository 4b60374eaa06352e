import TableOps.NativeType
import TableOps.Proofs.NativeType.Mysql
import TableOps.Proofs.NativeType.Postgres

/-!
# Types that are read and written again

A column type is read from the spelling of an engine and written in the spelling of that engine. What
is written in this way does not change when it is read and written once more.

* `Engine.respell` — a spelling as it is written after it was read.
* `Engine.exists_toNative_of_ofNative` — what was read can be written.

Main statement: `Engine.respell_idempotent`.
-/

namespace TableOps.Engine

/-- A spelling of a type as the engine writes it after it was read. -/
def respell (engine : Engine) (native : String) : Except Failure String :=
  engine.ofNative native >>= engine.toNative

/-- What was read can be written: its numbers have few enough digits. -/
theorem exists_toNative_of_ofNative {engine : Engine} {native : String} {c : ColumnType}
    (h : engine.ofNative native = .ok c) : ∃ spelling, engine.toNative c = .ok spelling := by
  cases engine with
  | mysql =>
    by_cases hneutral : native = "serial" ∨ native = "uuid"
    · have hwritten : ∃ spelling, mysql.respell native = .ok spelling := by
        rcases hneutral with rfl | rfl <;> exact exists_ok_of_isSome (by decide +kernel)
      rwa [respell, h] at hwritten
    · rw [not_or] at hneutral
      obtain ⟨spelling, hspelling, -⟩ :=
        NativeType.Mysql.settles_of_ofNative hneutral.1 hneutral.2 h
      exact ⟨spelling, hspelling⟩
  | postgres =>
    have hpostgres : postgres.ofNative native = NativeType.Postgres.ofNative native := rfl
    rw [hpostgres] at h
    exact NativeType.Postgres.exists_toNative_of_ofNative h

/-- Reading and writing a spelling of a type once is enough: on PostgreSQL for every spelling, and on
MySQL for every one but the names of two neutral kinds that it does not have. On PostgreSQL an array
type is written as its items are, with its suffix; blanks in front of the items are not kept. -/
theorem respell_idempotent (native : String) :
    (∀ written, postgres.respell native = .ok written → postgres.respell written = .ok written) ∧
      (native ≠ "serial" → native ≠ "uuid" → ∀ written, mysql.respell native = .ok written →
        mysql.respell written = .ok written) ∧
      postgres.respell (native ++ "[]") =
        (postgres.respell (String.ofList (Text.trimFront native.toList))).map (· ++ "[]") := by
  have hpostgres : ∀ spelling, postgres.respell spelling =
      (NativeType.Postgres.ofNative spelling >>= NativeType.Postgres.toNative) := fun _ => rfl
  have hmysql : ∀ spelling, mysql.respell spelling =
      (NativeType.Mysql.ofNative spelling >>= NativeType.Mysql.toNative) := fun _ => rfl
  simp only [hpostgres, hmysql]
  refine ⟨fun written h => NativeType.Postgres.written_again h, fun hserial huuid written h => ?_,
    NativeType.Postgres.written_array native⟩
  obtain ⟨c, hc, hnative⟩ := ok_of_bind h
  obtain ⟨spelling, heq, hsettled⟩ := NativeType.Mysql.settles_of_ofNative hserial huuid hc
  obtain rfl := Except.ok.inj (heq.symm.trans hnative)
  exact hsettled

theorem respell_idempotent_numeric :
    postgres.respell " Numeric( 10 , 2 ) []" = .ok "numeric(10,2)[]" ∧
      postgres.respell "numeric(10,2)[]" = .ok "numeric(10,2)[]" ∧
      mysql.respell " Numeric( 10 , 2 ) []" = .ok "decimal(10,2)" ∧
      mysql.respell "decimal(10,2)" = .ok "decimal(10,2)" := by
  have hpostgres : postgres.respell " Numeric( 10 , 2 ) []" = .ok "numeric(10,2)[]" :=
    ok_of_toOption (by decide +kernel)
  have hmysql : mysql.respell " Numeric( 10 , 2 ) []" = .ok "decimal(10,2)" :=
    ok_of_toOption (by decide +kernel)
  obtain ⟨hagain, hagain', -⟩ := respell_idempotent " Numeric( 10 , 2 ) []"
  exact ⟨hpostgres, hagain _ hpostgres, hmysql, hagain' (by decide) (by decide) _ hmysql⟩

-- the two kinds that are left out on MySQL: each of its spellings is read as another kind
example : ((mysql.respell "uuid").toOption = some "char(36)" ∧
    (mysql.respell "char(36)").toOption = some "varchar(36)") := by
  decide +kernel

end TableOps.Engine
