import TableOps.Check
import TableOps.Reference.Column
import TableOps.Reference.Table

/-!
# Joins

A join names a table and says how its rows match: `USING` a column they share, or `ON` a
condition. A condition without any comparison is short for equality with the column of the same
name in the joined table.

* `Join` — a join; `Join.ofValue` reads one.
* `Join.equality?` — the two columns of a shorthand condition.
-/

namespace TableOps

/-- A joined table with the way its rows match. -/
structure Join where
  table : String
  kind : Option String
  using? : Option String
  on? : Option String
  deriving DecidableEq, Repr

namespace Join

/-- A join from its members: `using` may be written `use`, and `on` may be written `onWhat`. -/
def ofMembers (members : Entries Value) : Check Join :=
  Join.mk
    <$> Check.required ["table"] Check.text members
    <*> Check.optional ["type"] Check.text members
    <*> Check.optional ["using", "use"] Check.text members
    <*> Check.optional ["on", "onWhat"] Check.text members

/-- Every member of a join, null for what it lacks. -/
def members (j : Join) : Entries Value :=
  [("table", .text j.table), ("type", .ofText? j.kind), ("using", .ofText? j.using?),
    ("on", .ofText? j.on?)]

/-- The member is there and counts as present. -/
def gives (members : Entries Value) (name : String) : Bool :=
  (members.get? name).any Value.truthy

/-- A join from plain data: it has to give a table and one of the ways of matching. -/
def ofValue : Value → Except Failure Join
  | .map members =>
    if !gives members "table" then .error (.malformed (.joinWithoutTable (.map members)))
    else if ["using", "use", "on", "onWhat"].all (!gives members ·) then
      .error (.malformed (.joinWithoutClause (.map members)))
    else (ofMembers members).toExcept
  | v => .error (.malformed (.joinWithoutTable v))

/-- The plain form of a join, without what it does not say. -/
def plain (j : Join) : Value :=
  let member (name : String) (s : Option String) : List (String × Value) :=
    (s.map fun s => (name, Value.text s)).toList
  .map (("table", .text j.table) :: member "type" j.kind ++ member "using" j.using? ++
    member "on" j.on?)

/-- The joined table. -/
def tableRef (j : Join) : Except Failure TableRef :=
  TableRef.parse j.table

/-- A letter as it counts when case is ignored: the relatives of i, s and k stand for these. -/
def caseless (c : Char) : Char :=
  if c = 'ı' ∨ c = 'İ' then 'i'
  else if c = 'ſ' then 's'
  else if c = '\u212A' then 'k'
  else Text.foldChar c

/-- One of the comparing words between two blanks at the start of a text. -/
def startsWithComparingWord (cs : List Char) : Bool :=
  match cs with
  | [] => false
  | c :: rest =>
    Text.isBlank c && ["like", "is", "in", "between"].any fun word =>
      match Text.dropLead? word.toList (rest.map caseless), rest.drop word.length with
      | some _, d :: _ => Text.isBlank d
      | _, _ => false

/-- The text holds a comparison: one of the signs `=`, `<` and `>`, or a comparing word. -/
def hasComparison : List Char → Bool
  | [] => false
  | c :: cs =>
    c == '=' || c == '<' || c == '>' || startsWithComparingWord (c :: cs) || hasComparison cs

/-- The clause of a join that gives text, if it has any. -/
def filled? (s : Option String) : Option String :=
  s.filter (!·.isEmpty)

/-- The two columns that a shorthand condition compares, for joining to `primary`: none when the
join uses a shared column or spells its condition out. -/
def equality? (j : Join) (primary : TableRef) : Except Failure (Option (String × String)) :=
  match filled? j.using?, filled? j.on? with
  | none, some on =>
    if hasComparison on.toList then .ok none
    else do
      let (qualifier, column) := Reference.splitQualifier on
      let left :=
        if (filled? qualifier).isSome then Text.trimmed on else primary.qualifier ++ "." ++ column
      return some (left, (← j.tableRef).qualifier ++ "." ++ column)
  | _, _ => .ok none

end Join

end TableOps
