import TableOps.Dialect
import TableOps.NativeType.Mysql
import TableOps.NativeType.Postgres

/-!
# Native types

The types of an engine in its own spelling, read and written through its dialect.
-/

namespace TableOps

/-- The type that the engine's spelling stands for. -/
def Engine.ofNative : Engine → String → Except Failure ColumnType
  | .mysql => NativeType.Mysql.ofNative
  | .postgres => NativeType.Postgres.ofNative

/-- The engine's spelling of a type. -/
def Engine.toNative : Engine → ColumnType → Except Failure String
  | .mysql => NativeType.Mysql.toNative
  | .postgres => NativeType.Postgres.toNative

end TableOps
