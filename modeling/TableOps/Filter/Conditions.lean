import TableOps.Filter.Reading

/-!
# Plain conditions

Conditions map columns to values, or to an operator with its value; members named `and` and `or`
hold nested conditions. Reading them yields a filter and, beside it, the query that holds the
values.

* `Filter.ofConditions` — the filter of some conditions; the query grows on the way and keeps what
  was written when the reading fails.
-/

namespace TableOps

/-- Reading with a query that grows on the way, also when the reading fails. -/
abbrev QueryM := ExceptT Failure (StateM (Entries Value))

/-- Writes a value into the query. -/
def QueryM.put (column : String) (v : Value) : QueryM Unit :=
  modify fun query => query.put column v

namespace Filter

/-- A condition with an operator of its own. An operator without a value gets the value true, so
that its leaf applies. -/
def ofOperator (column : String) (op : Value) (members : Entries Value) : QueryM Filter :=
  match op with
  | .text op => do
    match Operator.ofWording op, Entries.get? members "value" with
    | .unary, _ => QueryM.put column (.bool true)
    | _, some v => QueryM.put column v
    | _, none => throw (.malformed (.conditionWithoutValue column op (.map members)))
    return .leaf ⟨column, op, false⟩
  | _ => throw .unsupportedValue

/-- Conditions are joined by the connective that `name` stands for; one alone needs none. -/
def joinNamed? (name : Value) (filters : List Filter) : QueryM (Option Filter) :=
  match filters with
  | [] => return none
  | [f] => return some f
  | fs => do
    let connective ← (Check.within (.member "op") (Connective.checked name)).toExcept
    return some (.group connective fs)

mutual

/-- The filter of conditions that are joined by the connective `name`. -/
def ofConditions (name : Value) : Value → QueryM (Option Filter)
  | .map members => do joinNamed? name (← ofMembersOf members)
  | v => if v.truthy then throw .unsupportedValue else return none

/-- The filters of the members of conditions, in order. -/
def ofMembersOf : List (String × Value) → QueryM (List Filter)
  | [] => return []
  | (key, v) :: rest => do
    let f ← ofCondition key v
    let fs ← ofMembersOf rest
    return f.toList ++ fs

/-- The filter of one member: nested conditions under a connective, else a comparison. -/
def ofCondition (key : String) : Value → QueryM (Option Filter)
  | .map members =>
    if Text.fold key == "and" || Text.fold key == "or" then do
      joinNamed? (.text key) (← ofMembersOf members)
    else
      match Entries.get? members "op" with
      | some op => some <$> ofOperator key op members
      | none => do
        QueryM.put key (.map members)
        return some (.leaf (.equals key))
  | v =>
    if Text.fold key == "and" || Text.fold key == "or" then
      if v.truthy then throw .unsupportedValue else return none
    else do
      QueryM.put key v
      return some (.leaf (.equals key))

end

end Filter

end TableOps
