import TableOps.Text.Blank
import TableOps.Text.Digits

/-!
# Whole numbers written as text

Two ways of reading a whole number. Both allow a sign and single underscores between digits, and
both refuse a number with more than `digitLimit` digits.

* `Integer.ofText` — digits of any script between white space.
* `Integer.ofField` — ASCII digits between white space, perhaps with zeros behind a point.
* `Integer.text?` — the digits of a number, unless there are too many of them.
-/

namespace TableOps.Integer

/-- Why a text is not read as a whole number. -/
inductive Refusal where
  | notANumber
  | tooLong (digits : Nat)
  deriving DecidableEq, Repr

/-- The largest number of digits that is read or written. -/
def digitLimit : Nat := 4300

/-- The digit values of a text in which single underscores may stand between digits. -/
def digitValues? (digit? : Char → Option Nat) : List Char → Option (List Nat)
  | [] => none
  | [c] => (digit? c).map ([·])
  | c :: '_' :: cs => do return (← digit? c) :: (← digitValues? digit? cs)
  | c :: cs => do return (← digit? c) :: (← digitValues? digit? cs)

/-- The number its digit values stand for. -/
def ofDigits (ds : List Nat) : Nat :=
  ds.foldl (fun n d => 10 * n + d) 0

/-- The characters without white space at either end. -/
def trimWhite (cs : List Char) : List Char :=
  ((cs.dropWhile Text.isWhiteSpace).reverse.dropWhile Text.isWhiteSpace).reverse

/-- A number without sign, behind `signs` characters that count towards its length. The length is
judged by the digits at the front, whatever follows them. -/
def unsigned (digit? : Char → Option Nat) (signs : Nat) (cs : List Char) : Except Refusal Nat :=
  let front := cs.takeWhile fun c => (digit? c).isSome || c == '_'
  match digitValues? digit? front with
  | none => .error .notANumber
  | some ds =>
    let length := signs + ds.length
    if digitLimit < length then .error (.tooLong length)
    else if front.length < cs.length then .error .notANumber
    else .ok (ofDigits ds)

/-! ## Digits of any script -/

/-- The whole number a text stands for, with digits of any script. -/
def ofText (s : String) : Except Refusal Int :=
  match trimWhite s.toList with
  | '-' :: cs => (unsigned Text.decimal? 0 cs).map fun n => -(n : Int)
  | '+' :: cs => (unsigned Text.decimal? 0 cs).map fun n => (n : Int)
  | cs => (unsigned Text.decimal? 0 cs).map fun n => (n : Int)

/-! ## Fields of a checked mapping -/

/-- The value of an ASCII digit. -/
def asciiDigit? (c : Char) : Option Nat :=
  if '0' ≤ c ∧ c ≤ '9' then some (c.toNat - '0'.toNat) else none

/-- A number without leading zeros may start with the character: a sign or a digit but zero. -/
def startsNumber (c : Char) : Bool :=
  c == '-' || ('1' ≤ c && c ≤ '9')

/-- What is left behind zeros and underscores, of which `last` is the one read last: it stays in
front of a point and at the end of the text. -/
def afterZeros? (last : Char) : List Char → Option (List Char)
  | [] => some [last]
  | c :: cs =>
    if c == '0' || c == '_' then afterZeros? c cs
    else if c == '.' then some (last :: c :: cs)
    else if startsNumber c then some (c :: cs)
    else none

/-- The text without the zeros that lead it. A sign may stand in front of them or behind them. -/
def withoutLeadingZeros? : List Char → Option (List Char)
  | [] => none
  | c :: cs =>
    if c == '0' then afterZeros? c cs
    else if startsNumber c then some (c :: cs)
    else none

/-- The text in front of the first point when only zeros, at least one, stand behind it. -/
def withoutEmptyFraction (cs : List Char) : List Char :=
  match cs.dropWhile (· ≠ '.') with
  | _ :: zero :: zeros =>
    if (zero :: zeros).all (· == '0') then cs.takeWhile (· ≠ '.') else cs
  | _ => cs

/-- The digits of a field, perhaps behind a minus sign, if it is written like a number: a plus sign,
leading zeros and an empty fraction are gone. -/
def bareField? (s : String) : Option (List Char) :=
  let signed := match trimWhite s.toList with
    | '+' :: '-' :: _ => none
    | '+' :: cs => some cs
    | cs => some cs
  (signed.bind withoutLeadingZeros?).map withoutEmptyFraction

/-- The whole number that a member of a checked mapping stands for. The minus sign counts towards
its length. -/
def ofField (s : String) : Except Refusal Int :=
  match bareField? s with
  | none => .error .notANumber
  | some ('-' :: cs) => (unsigned asciiDigit? 1 cs).map fun n => -(n : Int)
  | some cs => (unsigned asciiDigit? 0 cs).map fun n => (n : Int)

/-! ## Writing -/

/-- The decimal digits of a number with its sign, unless there are too many of them. -/
def text? (n : Int) : Option String :=
  let digits := toString n.natAbs
  if digitLimit < digits.length then none
  else some (if n < 0 then "-" ++ digits else digits)

end TableOps.Integer
