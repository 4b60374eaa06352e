import TableOps.Value.Written

/-!
# Writing JSON

A value as a JSON text without blanks, members in their order.

* `Json.ofText` — a text in quotes.
* `Json.write` — the JSON text of a value.
-/

namespace TableOps

namespace Json

/-- A character between quotes: the quote and the backslash behind a backslash, control characters
by code. -/
def charIn (c : Char) : List Char :=
  if c = '"' ∨ c = '\\' then ['\\', c]
  else if c.toNat < 32 ∨ c.toNat = 127 then '\\' :: 'u' :: Text.hex 4 c.toNat
  else [c]

/-- A text in quotes. -/
def ofText (s : String) : String :=
  "\"" ++ String.ofList (s.toList.flatMap charIn) ++ "\""

/-- A number; those that are none have words. -/
def ofFloat : Binary64 → String
  | .nan => "NaN"
  | .infinite true => "-Infinity"
  | .infinite false => "Infinity"
  | x => x.text

/-- Written items between brackets. -/
def enclosed (left right : String) (items : List String) : String :=
  left ++ String.intercalate "," items ++ right

mutual

/-- The JSON text of a value; a value that JSON has no form for is written as a text. -/
def write : Value → String
  | .null => "null"
  | .bool b => if b then "true" else "false"
  | .int n => toString n
  | .float x => ofFloat x
  | .text s => ofText s
  | .list items => enclosed "[" "]" (writeAll items)
  | .map members => enclosed "\x7b" "\x7d" (writeMembers members)
  | v => ofText v.written

/-- The JSON texts of the items of a list. -/
def writeAll : List Value → List String
  | [] => []
  | v :: vs => write v :: writeAll vs

/-- The members of a mapping. -/
def writeMembers : List (String × Value) → List String
  | [] => []
  | (k, v) :: rest => (ofText k ++ ":" ++ write v) :: writeMembers rest

end

end Json

end TableOps
