import TableOps.Failure
import TableOps.Text.Case
import TableOps.Url.Address
import TableOps.Url.Percent

/-!
# URLs

A URL is split at its delimiters into scheme, location and path; the location holds the
credentials, the host and the port.

* `Url` — the parts of a URL that are used; `Url.split` finds them.
* `Url.username`, `Url.password`, `Url.hostname`, `Url.port` — the parts of the location.
-/

namespace TableOps

/-- The scheme, the location and the path of a URL. -/
structure Url where
  scheme : String
  location : List Char
  path : List Char

namespace Url

/-- A control character or the blank. -/
def isLeading (c : Char) : Bool :=
  c.toNat ≤ 32

/-- A character that is dropped wherever it stands. -/
def isDropped (c : Char) : Bool :=
  c == '\t' || c == '\r' || c == '\n'

/-- A letter of ASCII. -/
def isLetter (c : Char) : Bool :=
  ('a' ≤ c && c ≤ 'z') || ('A' ≤ c && c ≤ 'Z')

/-- A character of a scheme. -/
def isSchemeChar (c : Char) : Bool :=
  isLetter c || isDecimal c || c == '+' || c == '-' || c == '.'

/-- The scheme in front of the first colon, in lower case, and what follows the colon; without a
scheme everything follows. -/
def cutScheme (cs : List Char) : String × List Char :=
  match Text.cutFirst? ':' cs with
  | some (c :: scheme, rest) =>
    if isLetter c && scheme.all isSchemeChar then
      (String.ofList ((c :: scheme).map Text.foldChar), rest)
    else ("", cs)
  | _ => ("", cs)

/-- The location behind two slashes, up to the next delimiter, and what follows it. -/
def cutLocation (cs : List Char) : List Char × List Char :=
  match cs with
  | '/' :: '/' :: rest =>
    let inside (c : Char) : Bool := c != '/' && c != '?' && c != '#'
    (rest.takeWhile inside, rest.dropWhile inside)
  | _ => ([], cs)

/-- A location without the credentials in front of the last at-sign. -/
def withoutCredentials (location : List Char) : List Char :=
  match Text.cutLast? '@' location with
  | some (_, host) => host
  | none => location

/-- A later address form: the letter v, hexadecimal digits, a dot and something more. -/
def isFutureAddress (cs : List Char) : Bool :=
  match cs with
  | 'v' :: rest =>
    let version := rest.takeWhile isHexadecimal
    let more := rest.dropWhile isHexadecimal
    !version.isEmpty && more.head? == some '.' && 1 < more.length
  | _ => false

/-- A host in brackets has to be an address. -/
def checkBracketed (host : List Char) : Except Failure Unit :=
  if host.head? = some 'v' then
    if isFutureAddress host then .ok ()
    else .error (.input (.badUrl "IPvFuture address is invalid"))
  else if isFourPart host then
    .error (.input (.badUrl "An IPv4 address cannot be in brackets"))
  else if isEightPart host then .ok ()
  else
    .error (.input (.badUrl (Text.written (String.ofList host) ++
      " does not appear to be an IPv4 or IPv6 address")))

/-- Brackets that do not enclose the host. -/
def misplacedBrackets : Failure :=
  .input (.badUrl "Invalid IPv6 URL")

/-- The host in brackets stands alone, but for a port behind a colon, and is an address. Brackets
in the credentials ask for an address as well. -/
def checkHost (host : List Char) : Except Failure Unit :=
  match Text.cutFirst? '[' host with
  | some (before, rest) =>
    let after := (rest.dropWhile (· != ']')).drop 1
    if !before.isEmpty || after.head?.any (· != ':') then .error misplacedBrackets
    else checkBracketed (rest.takeWhile (· != ']'))
  | none => checkBracketed (host.takeWhile (· != ':'))

/-- Brackets of a location come in pairs. -/
def checkBrackets (location : List Char) : Except Failure Unit :=
  match location.contains '[', location.contains ']' with
  | false, false => .ok ()
  | true, true => checkHost (withoutCredentials location)
  | _, _ => .error misplacedBrackets

/-- The characters that are compatible with a delimiter or with a text that holds one. -/
def delimiterLike : List Char :=
  "℀℁℅℆⁇⁈⁉⩴︓︖﹕﹖﹟﹫＃／：？＠".toList

/-- A location holds no character that could be taken for a delimiter. -/
def checkCharacters (location : List Char) : Except Failure Unit :=
  if location.any delimiterLike.contains then
    .error (.input (.badUrl ("netloc '" ++ String.ofList location ++
      "' contains invalid characters under NFKC normalization")))
  else .ok ()

/-- The schemes whose last path segment may carry parameters behind a semicolon. -/
def schemesWithParameters : List String :=
  ["", "ftp", "hdl", "prospero", "http", "imap", "https", "shttp", "rtsp", "rtspu", "sip",
    "sips", "mms", "sftp", "tel"]

/-- The path without the parameters of its last segment. -/
def dropParameters (path : List Char) : List Char :=
  match Text.cutLast? '/' path with
  | some (before, last) => before ++ '/' :: last.takeWhile (· != ';')
  | none => path.takeWhile (· != ';')

/-- The parts of a URL. -/
def split (text : String) : Except Failure Url := do
  let cs := (text.toList.dropWhile isLeading).filter (!isDropped ·)
  let (scheme, rest) := cutScheme cs
  let (location, rest) := cutLocation rest
  checkBrackets location
  checkCharacters location
  let path := (rest.takeWhile (· != '#')).takeWhile (· != '?')
  return ⟨scheme, location,
    if schemesWithParameters.contains scheme then dropParameters path else path⟩

/-- The credentials of a location, if there are any. -/
def credentials? (u : Url) : Option (List Char) :=
  (Text.cutLast? '@' u.location).map Prod.fst

/-- A text that has characters. -/
def filled? (cs : List Char) : Option String :=
  if cs.isEmpty then none else some (String.ofList cs)

/-- The user name as it is written. -/
def username (u : Url) : Option String :=
  u.credentials?.bind fun cs => filled? (cs.takeWhile (· != ':'))

/-- The password as it is written. -/
def password (u : Url) : Option String :=
  u.credentials?.bind fun cs => filled? ((cs.dropWhile (· != ':')).drop 1)

/-- The host and the port as they are written. -/
def hostAndPort (u : Url) : List Char × List Char :=
  let host := withoutCredentials u.location
  match Text.cutFirst? '[' host with
  | some (_, rest) =>
    (rest.takeWhile (· != ']'), ((rest.dropWhile (· != ']')).dropWhile (· != ':')).drop 1)
  | none => (host.takeWhile (· != ':'), (host.dropWhile (· != ':')).drop 1)

/-- The host in lower case; a zone behind a percent sign stays as it is. -/
def hostname (u : Url) : Option String :=
  (filled? u.hostAndPort.1).map fun host =>
    let cs := host.toList
    Text.lower (String.ofList (cs.takeWhile (· != '%'))) ++ String.ofList (cs.dropWhile (· != '%'))

/-- The port, which has to be a number up to 65535. -/
def port (u : Url) : Except Failure (Option Nat) :=
  let cs := u.hostAndPort.2
  if cs.isEmpty then .ok none
  else if cs.all isDecimal then
    if Integer.digitLimit < cs.length then .error (.input (.longInteger cs.length))
    else if numberOf cs ≤ 65535 then .ok (some (numberOf cs))
    else .error (.input (.badUrl "Port out of range 0-65535"))
  else
    .error (.input (.badUrl
      ("Port could not be cast to integer value as " ++ Text.written (String.ofList cs))))

/-- The path without its first character. -/
def pathName (u : Url) : Option String :=
  filled? (u.path.drop 1)

end Url

end TableOps
