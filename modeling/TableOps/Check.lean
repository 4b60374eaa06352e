import TableOps.Failure
import TableOps.Number.Integer
import TableOps.Text.Case
import TableOps.Value.Items

/-!
# Checking plain data

A check reads one piece of plain data and finds either a result, or all problems with it, or a
failure that ends everything. Checks of several members are combined so that the problems of all of
them are kept in order; a failure ends the check at once.

* `Check` — the outcome of a check, an applicative functor.
* `Check.text`, `Check.bool`, `Check.int`, … — the checks of single values.
* `Check.required`, `Check.withDefault`, `Check.optional` — members of a mapping, which may be
  given under several names.
-/

namespace TableOps

/-- The outcome of checking a piece of plain data. -/
inductive Check (α : Type) where
  | ok (a : α)
  | problems (ps : List Problem)
  | failed (f : Failure)

namespace Check

variable {ι α β : Type}

/-- The outcome with its result changed. -/
def map (f : α → β) : Check α → Check β
  | .ok a => .ok (f a)
  | .problems ps => .problems ps
  | .failed e => .failed e

/-- Two checks, one after the other: the problems of both are kept. -/
def seq (f : Check (α → β)) (x : Unit → Check α) : Check β :=
  match f with
  | .ok f => map f (x ())
  | .failed e => .failed e
  | .problems ps =>
    match x () with
    | .ok _ => .problems ps
    | .problems qs => .problems (ps ++ qs)
    | .failed e => .failed e

instance : Applicative Check where
  pure := .ok
  map := map
  seq := seq

/-- A further step on a checked result. -/
def andThen (x : Check α) (f : α → Check β) : Check β :=
  match x with
  | .ok a => f a
  | .problems ps => .problems ps
  | .failed e => .failed e

/-- A single problem with the data itself. -/
def problem (d : Defect) : Check α :=
  .problems [⟨[], d⟩]

/-- The data is refused for the reason of an input fault. -/
def refuse (fault : InputFault) : Check α :=
  problem (.refused fault.message)

/-- The outcome seen from one step further out. -/
def within (place : Place) : Check α → Check α
  | .problems ps => .problems (ps.map (·.within place))
  | x => x

/-- The outcome of a step that may fail: failures about the data are problems with it. -/
def ofExcept : Except Failure α → Check α
  | .ok a => .ok a
  | .error f =>
    match f.asProblems? with
    | some ps => .problems ps
    | none => .failed f

/-- The result, or the failure that lists the problems. -/
def toExcept : Check α → Except Failure α
  | .ok a => .ok a
  | .problems ps => .error (.invalid ps)
  | .failed f => .error f

/-! ## Single values -/

/-- A text. -/
def text : Value → Check String
  | .text s => .ok s
  | _ => problem .notText

/-- The truth value a word stands for, in any case. -/
def truthOfWord? (s : String) : Option Bool :=
  match Text.fold s with
  | "true" | "t" | "yes" | "y" | "on" | "1" => some true
  | "false" | "f" | "no" | "n" | "off" | "0" => some false
  | _ => none

/-- A whole number strictly between the powers of two that bound 64 bits with a sign. -/
def fitsWord (n : Int) : Bool :=
  -9223372036854775808 < n && n < 9223372036854775808

/-- A whole number that 64 bits with a sign can hold. -/
def isWord (n : Int) : Bool :=
  -9223372036854775808 ≤ n && n < 9223372036854775808

/-- The truth value of one of the numbers 0 and 1. -/
def boolOfInt (n : Int) : Check Bool :=
  if n = 0 then .ok false else if n = 1 then .ok true else problem .unreadableBool

/-- A truth value: itself, one of the numbers 0 and 1, or a word for one. A number of more than 64
bits or with a fraction is of the wrong kind altogether. -/
def bool : Value → Check Bool
  | .bool b => .ok b
  | .int n => if isWord n then boolOfInt n else problem .notBool
  | .float x =>
    match x.toInteger?.filter fitsWord with
    | some n => boolOfInt n
    | none => problem .notBool
  | .text s =>
    match truthOfWord? s with
    | some b => .ok b
    | none => problem .unreadableBool
  | _ => problem .notBool

/-- A whole number: an integer, a truth value as 0 or 1, a float without fraction, or a text. -/
def int : Value → Check Int
  | .bool b => .ok (if b then 1 else 0)
  | .int n => .ok n
  | .float x =>
    match x with
    | .finite .. =>
      match x.toInteger? with
      | some n => if fitsWord n then .ok n else problem .oversizedInt
      | none => problem .fractionalInt
    | _ => problem .notFinite
  | .text s =>
    match Integer.ofField s with
    | .ok n => .ok n
    | .error .notANumber => problem .unreadableInt
    | .error (.tooLong _) => problem .oversizedInt
  | _ => problem .notInt

/-- A whole number of at least 1. -/
def positive (v : Value) : Check { n : Nat // 0 < n } :=
  (int v).andThen fun n =>
    if h : 0 < n.toNat then .ok ⟨n.toNat, h⟩ else problem .tooSmall

/-- Any value as it stands. -/
def any (v : Value) : Check Value :=
  .ok v

/-- Null for nothing, else what the inner check finds. -/
def orNull (check : Value → Check α) : Value → Check (Option α)
  | .null => .ok none
  | v => map some (check v)

/-- The outcomes of checking items from position `i` on. -/
def itemsFrom (check : ι → Check α) (i : Nat) : List ι → Check (List α)
  | [] => .ok []
  | v :: vs =>
    seq (map List.cons (within (.item i) (check v))) fun _ => itemsFrom check (i + 1) vs

/-- A list of which every item passes; an instance is the list of its parts. -/
def list (check : Value → Check α) : Value → Check (List α)
  | .list items => itemsFrom check 0 items
  | v =>
    match v.parts? with
    | some parts => itemsFrom check 0 parts
    | none => problem .notList

/-- The outcomes of checking the members of a mapping in order. -/
def membersOf (check : Value → Check α) : List (String × Value) → Check (Entries α)
  | [] => .ok []
  | (k, v) :: rest =>
    seq (map (fun a es => (k, a) :: es) (within (.member k) (check v))) fun _ =>
      membersOf check rest

/-- The member with a name that need not be a text: numbers of 64 bits stand for themselves,
anything else is written out. -/
def memberPlace : Value → Place
  | .text name => .member name
  | .bool b => .numbered (if b then 1 else 0)
  | .int n => if isWord n then .numbered n else .member (Value.int n).written
  | v => .member v.written

/-- Entries whose names have to be texts. -/
def namedEntries : List (Value × α) → Check (Entries α)
  | [] => .ok []
  | (key, a) :: rest =>
    seq (map (fun name es => (name, a) :: es) (within (memberPlace key) (within .name (text key))))
      fun _ => namedEntries rest

/-- A mapping of which every member passes. -/
def mapping (check : Value → Check α) : Value → Check (Entries α)
  | .map members => membersOf check members
  | _ => problem .notMapping

/-! ## Members of a mapping -/

/-- The first of the names that is a member, with its value. -/
def pick? (names : List String) (members : Entries Value) : Option (String × Value) :=
  names.findSome? fun name => (Entries.get? members name).map (name, ·)

/-- A member that has to be given, under one of `names`. -/
def required (names : List String) (check : Value → Check α) (members : Entries Value) : Check α :=
  match pick? names members with
  | some (name, v) => within (.member name) (check v)
  | none => within (.member (names.headD "")) (problem .missing)

/-- A member with a value to take when it is not given. -/
def withDefault (names : List String) (default : α) (check : Value → Check α)
    (members : Entries Value) : Check α :=
  match pick? names members with
  | some (name, v) => within (.member name) (check v)
  | none => .ok default

/-- A member that may be null or absent. -/
def optional (names : List String) (check : Value → Check α) (members : Entries Value) :
    Check (Option α) :=
  withDefault names none (orNull check) members

/-- The members of the mapping that a model is read from. -/
def instanceOf (check : Entries Value → Check α) : Value → Check α
  | .map members => check members
  | _ => problem .notInstance

end Check

end TableOps
