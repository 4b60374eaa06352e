import TableOps.Statement.Read
import TableOps.Statement.Write

/-!
# Composing the statement of a request

* `StatementKind` — the statements a request may ask for.
* `Statement.compose` — the statement of a request, if there is one.
-/

namespace TableOps

/-- The statements a request may ask for: those of the operations, and the total of a list. -/
inductive StatementKind where
  | of (op : Operation)
  | total
  deriving DecidableEq, Repr

/-- The kind of statement a name stands for. -/
def StatementKind.ofName? (name : String) : Option StatementKind :=
  if name = "list_count" then some .total else (Operation.ofName? name).map .of

namespace Statement

/-- The statement of a request. A page carries the total in a column, where the engine does that,
unless `withTotal` is off. -/
def compose (d : Dialect) (kind : StatementKind) (withTotal : Bool) (r : Request) :
    Except Failure (Option Statement) :=
  match kind with
  | .of .query => do return (← select? d r false).map (· ++ [.text " LIMIT 1"])
  | .of .list =>
    match r.page with
    | none => select? d r false
    | some p => do
      match ← select? d r withTotal with
      | some s => return some (s ++ [.text (" " ++ (← limit d.engine p))])
      | none => return none
  | .total => some <$> count d r
  | .of .insert => some <$> insert d r
  | .of .update => some <$> update r
  | .of .delete => some <$> delete r

end Statement

end TableOps
