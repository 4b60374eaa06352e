import TableOps.Number.Integer
import TableOps.Number.Shortest
import TableOps.Text.Printable
import TableOps.Value.Basic

/-!
# The written form of a value

Messages and logs show a value in its written form: texts in quotes with escapes for what cannot
be printed, lists in brackets, mappings in braces.

* `Text.written` — the written form of a text.
* `Value.written` — the written form of a value.
* `Value.plainText` — a text as it stands, anything else in its written form.
* `Value.writable` — whether the whole numbers in a value have few enough digits for that.
-/

namespace TableOps

namespace Text

/-- The hexadecimal digits of `n`, at least `width` of them. -/
def hex (width n : Nat) : List Char :=
  let ds := Nat.toDigits 16 n
  List.replicate (width - ds.length) '0' ++ ds

/-- A character inside quotes: the quote and the backslash behind a backslash, tab, line feed and
carriage return by letter, other unprintable characters by code. -/
def writtenChar (quote c : Char) : List Char :=
  if c = quote ∨ c = '\\' then ['\\', c]
  else if c = '\n' then ['\\', 'n']
  else if c = '\r' then ['\\', 'r']
  else if c = '\t' then ['\\', 't']
  else if isPrintable c then [c]
  else if c.toNat < 0x100 then '\\' :: 'x' :: hex 2 c.toNat
  else if c.toNat < 0x10000 then '\\' :: 'u' :: hex 4 c.toNat
  else '\\' :: 'U' :: hex 8 c.toNat

/-- The quote for a text: the single one, unless only that one stands in the text. -/
def quoteFor (cs : List Char) : Char :=
  if cs.contains '\'' ∧ ¬cs.contains '"' then '"' else '\''

/-- The written form of a text. -/
def written (s : String) : String :=
  let cs := s.toList
  let quote := quoteFor cs
  String.ofList (quote :: cs.flatMap (writtenChar quote) ++ [quote])

end Text

namespace Value

/-- Written items between brackets, separated by commas. -/
def bracketed (left right : String) (items : List String) : String :=
  left ++ String.intercalate ", " items ++ right

mutual

/-- The written form of a value. -/
def written : Value → String
  | .null => "None"
  | .bool b => if b then "True" else "False"
  | .int n => toString n
  | .float x => x.text
  | .text s => Text.written s
  | .list items => bracketed "[" "]" (writtenAll items)
  | .map members => bracketed "\x7b" "\x7d" (writtenMembers members)
  | .column name => "ColumnRef(name=" ++ Text.written name ++ ")"
  | .transformer t => "<" ++ t.name ++ ">"
  | .expression id => "<expression " ++ toString id.index ++ ">"
  | .connection id => "<connection " ++ toString id.index ++ ">"
  | .database id => "<database " ++ toString id.index ++ ">"
  | .checked .page (.map members) => bracketed "PageRange(" ")" (writtenFields members)
  | .checked _ plain => plain.written

/-- The written forms of the items of a list. -/
def writtenAll : List Value → List String
  | [] => []
  | x :: xs => x.written :: writtenAll xs

/-- The written forms of the members of a mapping. -/
def writtenMembers : List (String × Value) → List String
  | [] => []
  | (k, v) :: rest => (Text.written k ++ ": " ++ v.written) :: writtenMembers rest

/-- The written forms of the fields of an instance. -/
def writtenFields : List (String × Value) → List String
  | [] => []
  | (k, v) :: rest => (k ++ "=" ++ v.written) :: writtenFields rest

end

/-- A text as it stands, an instance by its fields, anything else in its written form. -/
def plainText : Value → String
  | .text s => s
  | .column name => "name=" ++ Text.written name
  | .checked .page (.map members) => String.intercalate " " (writtenFields members)
  | v => v.written

mutual

/-- No whole number in a value has too many digits to be written. -/
def writable : Value → Bool
  | .int n => (Integer.text? n).isSome
  | .list items => writableAll items
  | .map members => writableMembers members
  | .checked _ plain => plain.writable
  | _ => true

/-- `writable` for the items of a list. -/
def writableAll : List Value → Bool
  | [] => true
  | x :: xs => x.writable && writableAll xs

/-- `writable` for the members of a mapping. -/
def writableMembers : List (String × Value) → Bool
  | [] => true
  | (_, v) :: rest => v.writable && writableMembers rest

end

end Value

end TableOps
