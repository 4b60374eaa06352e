import TableOps.Dialect
import TableOps.Url.Split

/-!
# Where a database is found

The parts of a database URL that a driver connects with.

* `Location` — host, credentials, database and port; `Location.ofUrl` reads them from a URL.
* `Engine.connectArguments` — what the driver of an engine is given.
-/

namespace TableOps

/-- What a database URL says about the place of the database. -/
structure Location where
  host : Option String
  user : Option String
  password : Option String
  database : Option String
  port : Option Nat
  deriving DecidableEq, Repr

namespace Location

/-- The location that a split URL names. -/
def ofParts (u : Url) : Except Failure Location := do
  let port ← u.port
  return ⟨u.hostname, u.username.map Percent.decode, u.password.map Percent.decode, u.pathName,
    port⟩

/-- The location that a URL names. -/
def ofUrl (text : String) : Except Failure Location := do
  ofParts (← Url.split text)

/-- Every member of a location, null for what it lacks. -/
def members (l : Location) : Entries Value :=
  [("host", .ofText? l.host), ("user", .ofText? l.user), ("password", .ofText? l.password),
    ("database", .ofText? l.database), ("port", .ofInt? (l.port.map Int.ofNat))]

end Location

/-- What the driver of an engine is given to connect with. -/
def Engine.connectArguments (engine : Engine) (l : Location) : Entries Value :=
  let common : Entries Value := [("host", .ofText? l.host), ("user", .ofText? l.user)]
  match engine with
  | .mysql =>
    common ++ [("password", .text (l.password.getD "")), ("database", .ofText? l.database),
      ("port", .int ((l.port.filter (· ≠ 0)).getD 3306))]
  | .postgres =>
    common ++ [("password", .ofText? l.password), ("database", .ofText? l.database),
      ("port", .ofInt? (l.port.map Int.ofNat))]

end TableOps
