import TableOps.Check
import TableOps.Filter.Basic

/-!
# Reading filters from plain data

The short forms in which a filter may be written:

* a text is the comparison of that column for equality, null is no filter;
* a list is the conjunction of its items;
* a mapping with one member pairs a column with an operator, or a connective with a list;
* a mapping with `name` spells a leaf out, one with `filters` a group.

`Filter.ofValue` reads them; `Filter.chain` joins a list under a given connective.
-/

namespace TableOps

/-- A leaf whose members are checked like those of a model. -/
def Leaf.checked : Value → Check Leaf :=
  Check.instanceOf fun members =>
    Leaf.mk
      <$> Check.required ["name"] Check.text members
      <*> Check.withDefault ["op"] "=" Check.text members
      <*> Check.withDefault ["no_arg"] false Check.bool members

/-- The connective that a text names. -/
def Connective.checked (v : Value) : Check Connective :=
  (Check.text v).andThen fun name =>
    match Connective.ofName? name with
    | some connective => .ok connective
    | none => Check.refuse (.unknownConnective name)

/-- The text of a leaf's member, or the problem with it. -/
def Leaf.checkText (member : String) (v : Value) : Except (List Problem) String :=
  match v with
  | .text s => .ok s
  | _ => .error [⟨[.member member], .notText⟩]

/-- A leaf with the given name and operator; both have to be texts. -/
def Leaf.ofParts (name op : Value) (noArg : Bool) : Except Failure Leaf :=
  match Leaf.checkText "name" name, Leaf.checkText "op" op with
  | .ok name, .ok op => .ok ⟨name, op, noArg⟩
  | .error ps, .error qs => .error (.invalid (ps ++ qs))
  | .error ps, _ => .error (.invalid ps)
  | _, .error qs => .error (.invalid qs)

/-- A leaf spelt out member by member: the operator is equality unless one is given, and the
operator stands alone when `no_arg` or else `noArg` says so. -/
def Leaf.ofMembers (name : Value) (members : Entries Value) : Except Failure Leaf :=
  let op := ((Entries.get? members "op").filter Value.truthy).getD (.text "=")
  let noArg := (Entries.get? members "no_arg").or (Entries.get? members "noArg")
  Leaf.ofParts name op (noArg.any Value.truthy)

/-- The connective a value names. -/
def Connective.ofValue (v : Value) : Except Failure Connective :=
  match v.text?.bind Connective.ofName? with
  | some connective => .ok connective
  | none => .error (.malformed (.unknownConnective v))

namespace Filter

mutual

/-- The filter a value stands for; null stands for none. -/
def ofValue : Value → Except Failure (Option Filter)
  | .null => .ok none
  | .text name => .ok (some (.leaf (.equals name)))
  | .list items => do return some (.group .and (← ofItems items))
  | .map [(key, spec)] => ofPair key spec
  | .map members =>
    match Entries.get? members "name" with
    | some name => do return some (.leaf (← Leaf.ofMembers name members))
    | none =>
      if Entries.has members "filters" then do
        let connective ← Connective.ofValue ((Entries.get? members "op").getD (.text "AND"))
        return some (.group connective (← ofFiltersMember members))
      else .error (.malformed (.unreadableFilter (.map members)))
  | v => .error (.malformed (.unreadableFilter v))

/-- The filter of a mapping with one member. -/
def ofPair (key : String) : Value → Except Failure (Option Filter)
  | .list items => do
    let connective ← Connective.ofValue (.text key)
    return some (.group connective (← ofItems items))
  | .text op => .ok (some (.leaf ⟨key, op, false⟩))
  | spec => .error (.malformed (.unreadableFilter (.map [(key, spec)])))

/-- The filters of the items of a list, without the nulls. -/
def ofItems : List Value → Except Failure (List Filter)
  | [] => .ok []
  | v :: vs => do
    let f ← ofValue v
    let fs ← ofItems vs
    return f.toList ++ fs

/-- The members of a group: they have to be a list. -/
def ofMembers : Value → Except Failure (List Filter)
  | .list items => ofItems items
  | v => .error (.malformed (.membersNotList v))

/-- The members of the group spelt out by a mapping. -/
def ofFiltersMember : List (String × Value) → Except Failure (List Filter)
  | [] => .ok []
  | (key, v) :: rest => if key = "filters" then ofMembers v else ofFiltersMember rest

end

/-- A group whose members are checked like those of a model. -/
def checkedGroup : Value → Check Filter :=
  Check.instanceOf fun members =>
    Filter.group
      <$> Check.required ["op"] Connective.checked members
      <*> Check.required ["filters"] (fun v =>
          match v with
          | .list items => Check.ofExcept (ofItems items)
          | _ => Check.refuse .membersNotList) members

/-- The group of `members` under the connective that `name` stands for. -/
def chain (name members : Value) : Except Failure Filter := do
  let connective ← Connective.ofValue name
  return .group connective (← ofMembers members)

mutual

/-- The plain form of a filter, which reads back as the filter. -/
def plain : Filter → Value
  | .leaf l => .map [("name", .text l.name), ("op", .text l.op), ("no_arg", .bool l.noArg)]
  | .group connective members =>
    .map [("op", .text connective.name), ("filters", .list (plainAll members))]

/-- The plain forms of several filters. -/
def plainAll : List Filter → List Value
  | [] => []
  | f :: fs => f.plain :: plainAll fs

end

end Filter

end TableOps
