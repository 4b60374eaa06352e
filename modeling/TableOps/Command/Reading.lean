import TableOps.Command.Basic

/-!
# Reading commands

A command is written as a mapping. Its members have short names, and the operation may be the name
of the member that holds the expression: `list` for a list of it.

`Command.ofValue` gives the command that a value and some overriding members stand for.
-/

namespace TableOps

namespace Command

/-- The full name of a member. -/
def fullName : String → String
  | "op" => "operation"
  | "expr" => "expression"
  | "refresh" => "refresh_cache"
  | "refreshCache" => "refresh_cache"
  | "conn" => "connection"
  | "tableSchema" => "table_schema"
  | name => name

/-- The value may be the expression of a command. -/
def isTarget : Value → Bool
  | .expression _ => true
  | .text _ => true
  | .map members => Entries.has members "table"
  | _ => false

/-- The members under their full names; the later of two with one name wins. -/
def renamed (members : List (String × Value)) : Entries Value :=
  Entries.ofPairs (members.map fun (name, v) => (fullName name, v))

/-- A member of a command whose operation is not named on its own: a member named like an operation
that holds an expression gives both. -/
def shortMember (name : String) (v : Value) : List (String × Value) :=
  if (Operation.ofName? name).isSome && isTarget v then
    [("operation", .text name), ("expression", v)]
  else [(fullName name, v)]

/-- The members of a command under their full names. -/
def fullMembers (written : Entries Value) : Entries Value :=
  if written.has "op" || written.has "operation" then renamed written
  else Entries.ofPairs (written.flatMap fun (name, v) => shortMember name v)

/-! ## Checking -/

/-- The expression of a command. A mapping is read as an expression. -/
def checkTarget : Value → Check Target
  | .expression id => .ok (.shared id)
  | .text path => .ok (.stored path)
  | .map written => (Check.ofExcept (Expression.ofMembers written)).map .given
  | _ =>
    .problems [⟨[.member "QueryExpression"], .notInstance⟩, ⟨[.member "str"], .notText⟩]

/-- The query values; null is none. -/
def checkQuery (v : Value) : Check (Entries Value) :=
  (Check.orNull (Check.mapping Check.any) v).map (·.getD [])

/-- The members of a command checked, given its operation. -/
def check (operation : Operation) (ms : Entries Value) : Check Command :=
  Command.mk operation
    <$> Check.required ["expression"] checkTarget ms
    <*> Check.optional ["data"] (Check.mapping Check.any) ms
    <*> Check.withDefault ["query"] [] checkQuery ms
    <*> Check.optional ["range"] Page.ofValue ms
    <*> Check.optional ["fields"] (Check.list Check.text) ms
    <*> Check.withDefault ["connection"] .null Check.any ms
    <*> Check.withDefault ["refresh_cache"] false Check.bool ms
    <*> Check.optional ["table_schema"] TableSchema.ofValue ms
    <*> Check.withDefault ["debug"] false Check.bool ms

/-- The operation a value names. -/
def operationOf (v : Value) : Except Failure Operation :=
  match v.text?.bind Operation.ofName? with
  | some op => .ok op
  | none => .error (.malformed (.unknownOperation v))

/-- The overriding members under their full names. None of them can be named `value`. -/
def overridesOf (written : Entries Value) : Except Failure (Entries Value) :=
  if written.has "value" then .error .wrongKind else .ok (renamed written)

/-- The command that a value stands for, with some members overridden. -/
def ofValue (v : Value) (written : Entries Value) : Except Failure Command := do
  let overrides ← overridesOf written
  match v with
  | .map written => do
    let ms := (fullMembers written).update overrides
    match (ms.get? "operation").filter Value.truthy, (ms.get? "expression").filter (!·.isNull) with
    | some op, some _ =>
      let op ← operationOf op
      (check op ms).toExcept
    | _, _ => .error (.malformed (.incompleteCommand v))
  | _ => .error (.malformed (.commandNotMapping v))

end Command

end TableOps
