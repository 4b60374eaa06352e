import TableOps.Check
import TableOps.Url.Percent

/-!
# Database settings

One entry of a configuration: a URL, or the parts it is put together from.

* `Settings` — the entry; `Settings.ofValue` reads one, `Settings.listOfValue` a configuration.
* `Settings.toUrl` — the URL of the database.
-/

namespace TableOps

/-- The settings of one database; a URL wins over the single parts. -/
structure Settings where
  url : Option String
  scheme : String
  host : String
  port : Option Int
  user : Option String
  password : Option String
  database : Option String
  aliasName : Option String
  poolSize : { n : Nat // 0 < n }
  /-- The directory of the stored expressions. -/
  stored : Option String
  style : Option String
  deriving Repr

namespace Settings

/-- The number of idle connections that are kept unless another is asked for. -/
def defaultPoolSize : Nat := 10

/-- Settings may be nested under `dbConfig`, whose members win over those beside it. -/
def flatten (members : Entries Value) : Entries Value :=
  match members.get? "dbConfig" with
  | some (.map inner) =>
    members.foldl
      (fun flat (name, v) =>
        if name = "dbConfig" || Entries.has flat name then flat else Entries.put flat name v)
      inner
  | _ => members

/-- A text that is given and not empty. -/
def given? (s : Option String) : Option String :=
  s.filter (!·.isEmpty)

/-- The settings say where the database is. -/
def requireLocation (s : Settings) : Check Settings :=
  if (given? s.url).isNone && (given? s.database).isNone then Check.refuse .noLocation else .ok s

/-- Settings from flat members. -/
def ofMembers (members : Entries Value) : Check Settings :=
  Settings.mk
    <$> Check.optional ["url"] Check.text members
    <*> Check.withDefault ["type"] "mysql" Check.text members
    <*> Check.withDefault ["host"] "localhost" Check.text members
    <*> Check.optional ["port"] Check.int members
    <*> Check.optional ["user"] Check.text members
    <*> Check.optional ["password"] Check.text members
    <*> Check.optional ["database"] Check.text members
    <*> Check.optional ["alias"] Check.text members
    <*> Check.withDefault ["connectionLimit", "pool_size"] ⟨defaultPoolSize, by decide⟩
      Check.positive members
    <*> Check.optional ["storedExpr", "stored_expressions"] Check.text members
    <*> Check.optional ["paramstyle"] Check.text members

/-- Every member of settings, null for what is not set. -/
def members (s : Settings) : Entries Value :=
  [("url", .ofText? s.url), ("type", .text s.scheme), ("host", .text s.host),
    ("port", .ofInt? s.port), ("user", .ofText? s.user), ("password", .ofText? s.password),
    ("database", .ofText? s.database), ("alias", .ofText? s.aliasName),
    ("pool_size", .int s.poolSize.val), ("stored_expressions", .ofText? s.stored),
    ("paramstyle", .ofText? s.style)]

/-- Settings from plain data. -/
def ofValue : Value → Check Settings :=
  Check.instanceOf fun members => (ofMembers (flatten members)).andThen requireLocation

/-- The entries of a configuration: those of a list, or a single one. -/
def entries : Value → List Value
  | .list vs => vs
  | v => [v]

/-- The settings of a configuration; the first entry with problems refuses it. -/
def listOfValue (v : Value) : Except Failure (List Settings) :=
  (entries v).mapM fun entry =>
    match ofValue entry with
    | .ok s => .ok s
    | .problems ps => .error (.configuration (.invalidSettings ps))
    | .failed f => .error f

/-- The credentials of a URL with the sign behind them; a password needs a user. -/
def credentials (s : Settings) : String :=
  match given? s.user with
  | none => ""
  | some user =>
    Percent.encode user ++
      (match given? s.password with
        | some password => ":" ++ Percent.encode password
        | none => "") ++ "@"

/-- The port of a URL with the colon before it. -/
def portText (s : Settings) : String :=
  match s.port.filter (· ≠ 0) with
  | some n => ":" ++ toString n
  | none => ""

/-- The URL of the database. -/
def toUrl (s : Settings) : String :=
  match given? s.url with
  | some url => url
  | none =>
    s.scheme ++ "://" ++ s.credentials ++ s.host ++ s.portText ++ "/" ++
      (Value.ofText? s.database).plainText

end Settings

end TableOps
