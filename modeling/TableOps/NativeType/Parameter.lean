import TableOps.Number.Integer
import TableOps.Schema.Column
import TableOps.Text.Case
import TableOps.Text.Cut

/-!
# Parameters of native types

What engines share in spelling their types: a parameter in parentheses, as in `varchar(32)` and
`decimal(10,2)`, and types that are refined by a format.

* `parameter?`, `intParameter?` — the parameter of a type, as text and as a whole number.
* `decimalFormat` — the format of an exact number.
* `refined`, `normalize` — a kind with a format; a spelling without regard to case.
-/

namespace TableOps.NativeType

/-- A spelling without regard to case or to blanks around it. -/
def normalize (native : String) : String :=
  Text.trimmed (Text.lower native)

/-- The text between the first opening parenthesis and the next closing one. -/
def parameter? (spelling : String) : Option String :=
  match Text.cutFirst? '(' spelling.toList with
  | none => none
  | some (_, rest) =>
    (Text.cutFirst? ')' rest).map fun (inside, _) => String.ofList (Text.trim inside)

/-- The parameter as a whole number, when it consists of digits. A digit that is not decimal cannot
be read. -/
def intParameter? (spelling : String) : Except Failure (Option Int) :=
  match parameter? spelling with
  | none => .ok none
  | some p =>
    if !p.isEmpty && p.toList.all Text.isDigit then
      match Integer.ofText p with
      | .ok n => .ok (some n)
      | .error refusal => .error (.input (.ofRefusal p refusal))
    else .ok none

/-- The format of an exact number: `decimal` with the parameter, without its blanks. -/
def decimalFormat (spelling : String) : String :=
  match (parameter? spelling).filter (!·.isEmpty) with
  | some p => "decimal(" ++ String.ofList (p.toList.filter (· ≠ ' ')) ++ ")"
  | none => "decimal"

/-- A kind with a format. -/
def refined (kind format : String) : ColumnType :=
  { ColumnType.ofKind kind with format := some format }

/-- A kind of limited length. -/
def sized (kind : String) (length : Option Int) : ColumnType :=
  { ColumnType.ofKind kind with maxLength := length }

/-- The spelling starts with one of some words. -/
def startsWithAny (words : List String) (spelling : String) : Bool :=
  words.any fun word => Text.startsWith word spelling

/-- The format names an exact number. -/
def isExactFormat (format : String) : Bool :=
  startsWithAny ["decimal", "numeric"] format

/-- What follows from the first opening parenthesis on, empty when there is none. -/
def parenthesised (format : String) : String :=
  String.ofList (format.toList.dropWhile (· ≠ '('))

/-- A number that is given and is not zero. -/
def nonZero? (n : Option Int) : Option Int :=
  n.filter (· ≠ 0)

/-- A word with a parameter in parentheses. -/
def withParameter (word parameter : String) : String :=
  word ++ "(" ++ parameter ++ ")"

/-- A word with a number in parentheses. -/
def withNumber (word : String) (n : Int) : Except Failure String :=
  (Integer.digits n).map (withParameter word)

/-- A word, with its precision when that is not zero. -/
def withPrecision (word : String) (precision : Option Int) : Except Failure String :=
  match nonZero? precision with
  | some n => withNumber word n
  | none => .ok word

/-- The formats of long texts. -/
def textFormats : List String :=
  ["text", "tinytext", "mediumtext", "longtext"]

end TableOps.NativeType
