import TableOps.Value.Basic

/-!
# Reading JSON

A JSON text is cut into tokens and the tokens are folded over a stack of open lists and mappings.
Numbers without a fraction or exponent are integers of any size; `NaN` and the infinities are
accepted; a member written twice keeps its first place and its last value.

* `Json.tokens?` — the tokens of a text.
* `Json.read?` — the value a text holds, if it holds exactly one.
-/

namespace TableOps

namespace Json

/-- The tokens of JSON; a scalar is everything that is a value by itself. -/
inductive Token where
  | openList
  | closeList
  | openMap
  | closeMap
  | comma
  | colon
  | scalar (v : Value)

/-- A decimal digit of ASCII. -/
def isDigit (c : Char) : Bool :=
  '0' ≤ c && c ≤ '9'

/-- The number its decimal digits stand for. -/
def natOf (ds : List Char) : Nat :=
  ds.foldl (fun n c => 10 * n + (c.toNat - '0'.toNat)) 0

/-- The digits of an exponent with an optional sign. -/
def exponent? (cs : List Char) : Option Int :=
  let unsigned (ds : List Char) : Option Int :=
    if ds ≠ [] ∧ ds.all isDigit then some (natOf ds) else none
  match cs with
  | '-' :: ds => (unsigned ds).map fun n => -n
  | '+' :: ds => unsigned ds
  | ds => unsigned ds

/-- A number without its sign: whole digits without a leading zero, then perhaps a fraction and an
exponent. -/
def magnitude? (negative : Bool) (cs : List Char) : Option Value :=
  let whole := cs.takeWhile isDigit
  let rest := cs.dropWhile isDigit
  if whole = [] ∨ (whole.head? = some '0' ∧ whole ≠ ['0']) then none
  else
    let (fraction, rest) :=
      match rest with
      | '.' :: more => (some (more.takeWhile isDigit), more.dropWhile isDigit)
      | _ => (none, rest)
    let isFloat (scale : Int) : Value :=
      let ds := fraction.getD []
      .float (Binary64.ofScaled negative (natOf (whole ++ ds)) (scale - ds.length))
    if fraction = some [] then none
    else
      match rest with
      | [] =>
        if fraction.isSome then some (isFloat 0)
        else some (.int (if negative then -(natOf whole : Int) else natOf whole))
      | e :: more => if e = 'e' ∨ e = 'E' then (exponent? more).map isFloat else none

/-- The value of a bare word: a literal or a number. -/
def word? (cs : List Char) : Option Value :=
  match String.ofList cs with
  | "null" => some .null
  | "true" => some (.bool true)
  | "false" => some (.bool false)
  | "NaN" => some (.float .nan)
  | "Infinity" => some (.float (.infinite false))
  | "-Infinity" => some (.float (.infinite true))
  | _ =>
    match cs with
    | '-' :: rest => magnitude? true rest
    | _ => magnitude? false cs

/-- The value of a hexadecimal digit. -/
def hexDigit? (c : Char) : Option Nat :=
  if isDigit c then some (c.toNat - '0'.toNat)
  else if 'a' ≤ c ∧ c ≤ 'f' then some (c.toNat - 'a'.toNat + 10)
  else if 'A' ≤ c ∧ c ≤ 'F' then some (c.toNat - 'A'.toNat + 10)
  else none

/-- Where the reading of a text stands. -/
inductive Mode where
  /-- Between tokens. -/
  | outside
  /-- In a bare word, the last character first. -/
  | word (chars : List Char)
  /-- In a string; `high` is the first half of a pair still waiting for its second. -/
  | string (chars : List Char) (high : Option Nat)
  /-- Behind a backslash. -/
  | escape (chars : List Char) (high : Option Nat)
  /-- In an escape by code, with `left` digits to come. -/
  | code (chars : List Char) (high : Option Nat) (left : Nat) (n : Nat)

/-- The character that stands for a half without its other half. -/
def replacement : Char := '\uFFFD'

/-- The characters of a string with a waiting half settled. -/
def settle (chars : List Char) : Option Nat → List Char
  | none => chars
  | some _ => replacement :: chars

/-- A string after the escape of the code `n`: two halves in a row make one character. -/
def escaped (chars : List Char) (high : Option Nat) (n : Nat) : Mode :=
  if 0xD800 ≤ n ∧ n < 0xDC00 then .string (settle chars high) (some n)
  else if 0xDC00 ≤ n ∧ n < 0xE000 then
    match high with
    | some h => .string (Char.ofNat (0x10000 + (h - 0xD800) * 1024 + (n - 0xDC00)) :: chars) none
    | none => .string (replacement :: chars) none
  else .string (Char.ofNat n :: settle chars high) none

/-- A character that may stand in a bare word. -/
def isWordChar (c : Char) : Bool :=
  isDigit c || ('a' ≤ c && c ≤ 'z') || ('A' ≤ c && c ≤ 'Z') || c == '+' || c == '-' || c == '.'

/-- The token of a punctuation character. -/
def mark? : Char → Option Token
  | '[' => some .openList
  | ']' => some .closeList
  | '{' => some .openMap
  | '}' => some .closeMap
  | ',' => some .comma
  | ':' => some .colon
  | _ => none

/-- One character between tokens. -/
def stepOutside (done : List Token) (c : Char) : Option (List Token × Mode) :=
  if c = ' ' ∨ c = '\t' ∨ c = '\n' ∨ c = '\r' then some (done, .outside)
  else if c = '"' then some (done, .string [] none)
  else if isWordChar c then some (done, .word [c])
  else (mark? c).map fun t => (t :: done, .outside)

/-- The character a letter behind a backslash stands for. -/
def letterEscape? : Char → Option Char
  | '"' => some '"'
  | '\\' => some '\\'
  | '/' => some '/'
  | 'b' => some '\x08'
  | 'f' => some '\x0c'
  | 'n' => some '\n'
  | 'r' => some '\r'
  | 't' => some '\t'
  | _ => none

/-- One character of the text; `done` holds the tokens so far, the last one first. -/
def step (done : List Token) (mode : Mode) (c : Char) : Option (List Token × Mode) :=
  match mode with
  | .outside => stepOutside done c
  | .word chars =>
    if isWordChar c then some (done, .word (c :: chars))
    else (word? chars.reverse).bind fun v => stepOutside (.scalar v :: done) c
  | .string chars high =>
    if c = '"' then
      some (.scalar (.text (String.ofList (settle chars high).reverse)) :: done, .outside)
    else if c = '\\' then some (done, .escape chars high)
    else if c.toNat < 32 then none
    else some (done, .string (c :: settle chars high) none)
  | .escape chars high =>
    if c = 'u' then some (done, .code chars high 4 0)
    else (letterEscape? c).map fun d => (done, .string (d :: settle chars high) none)
  | .code chars high left n =>
    (hexDigit? c).map fun d =>
      (done, if left ≤ 1 then escaped chars high (16 * n + d) else .code chars high (left - 1)
        (16 * n + d))

/-- The tokens of the rest of a text. -/
def tokensFrom (done : List Token) (mode : Mode) : List Char → Option (List Token)
  | [] =>
    match mode with
    | .outside => some done.reverse
    | .word chars => (word? chars.reverse).map fun v => (Token.scalar v :: done).reverse
    | _ => none
  | c :: cs => (step done mode c).bind fun (done, mode) => tokensFrom done mode cs

/-- The tokens of a text. -/
def tokens? (s : String) : Option (List Token) :=
  tokensFrom [] .outside s.toList

/-- A list or mapping whose end has not been read, with its contents in reverse. -/
inductive Frame where
  | list (items : List Value)
  | map (members : List (String × Value)) (key : String)

/-- What may come next. -/
inductive Expect where
  | value
  | valueOrEnd
  | keyOrEnd (members : List (String × Value))
  | key (members : List (String × Value))
  | colon (members : List (String × Value)) (key : String)
  | separator (last : Value)
  | finished (last : Value)

/-- A complete value, at the top or inside what is open. -/
def complete (v : Value) (stack : List Frame) : List Frame × Expect :=
  (stack, if stack.isEmpty then .finished v else .separator v)

/-- One token over the stack of what is open. -/
def advance (stack : List Frame) (expect : Expect) (t : Token) : Option (List Frame × Expect) :=
  match expect, t with
  | .value, .scalar v | .valueOrEnd, .scalar v => some (complete v stack)
  | .value, .openList | .valueOrEnd, .openList => some (.list [] :: stack, .valueOrEnd)
  | .value, .openMap | .valueOrEnd, .openMap => some (stack, .keyOrEnd [])
  | .valueOrEnd, .closeList =>
    match stack with
    | .list _ :: below => some (complete (.list []) below)
    | _ => none
  | .keyOrEnd [], .closeMap => some (complete (.map []) stack)
  | .keyOrEnd members, .scalar (.text key) | .key members, .scalar (.text key) =>
    some (stack, .colon members key)
  | .colon members key, .colon => some (.map members key :: stack, .value)
  | .separator v, .comma =>
    match stack with
    | .list items :: below => some (.list (v :: items) :: below, .value)
    | .map members key :: below => some (below, .key ((key, v) :: members))
    | [] => none
  | .separator v, .closeList =>
    match stack with
    | .list items :: below => some (complete (.list (v :: items).reverse) below)
    | _ => none
  | .separator v, .closeMap =>
    match stack with
    | .map members key :: below =>
      some (complete (.map (Entries.ofPairs ((key, v) :: members).reverse)) below)
    | _ => none
  | _, _ => none

/-- The value of the tokens that remain. -/
def build (stack : List Frame) (expect : Expect) : List Token → Option Value
  | [] =>
    match expect with
    | .finished v => some v
    | _ => none
  | t :: ts => (advance stack expect t).bind fun (stack, expect) => build stack expect ts

/-- The value a text holds; none if it is not the text of exactly one value. -/
def read? (s : String) : Option Value :=
  (tokens? s).bind (build [] .value)

end Json

end TableOps
