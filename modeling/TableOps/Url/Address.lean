import TableOps.Text.Cut

/-!
# Numeric addresses

The written forms of the two kinds of internet addresses, as far as a host in brackets has to be
one of them.

* `isFourPart` — four decimal numbers up to 255, joined by dots.
* `isEightPart` — up to eight hexadecimal groups, joined by colons; one run of groups may be left
  out, and the last two may be written as four decimal numbers.
-/

namespace TableOps.Url

/-- A decimal digit of ASCII. -/
def isDecimal (c : Char) : Bool :=
  '0' ≤ c && c ≤ '9'

/-- A hexadecimal digit of ASCII. -/
def isHexadecimal (c : Char) : Bool :=
  isDecimal c || ('a' ≤ c && c ≤ 'f') || ('A' ≤ c && c ≤ 'F')

/-- The number of decimal digits. -/
def numberOf (ds : List Char) : Nat :=
  ds.foldl (fun n c => 10 * n + (c.toNat - '0'.toNat)) 0

/-- A decimal number up to 255 without a leading zero. -/
def isOctet (cs : List Char) : Bool :=
  !cs.isEmpty && cs.all isDecimal && cs.length ≤ 3 && (cs == ['0'] || cs.head? != some '0') &&
    numberOf cs ≤ 255

/-- Four decimal numbers joined by dots. -/
def isFourPart (cs : List Char) : Bool :=
  let parts := Text.splitOn '.' cs
  parts.length == 4 && parts.all isOctet

/-- One to four hexadecimal digits. -/
def isGroup (cs : List Char) : Bool :=
  !cs.isEmpty && cs.all isHexadecimal && cs.length ≤ 4

/-- The groups with a decimal ending written as two groups, if that ending is an address. -/
def withoutDecimalEnding? (parts : List (List Char)) : Option (List (List Char)) :=
  match parts.getLast? with
  | some last =>
    if last.contains '.' then
      if isFourPart last then some (parts.dropLast ++ [['0'], ['0']]) else none
    else some parts
  | none => none

/-- The positions of the empty groups that are not at an end. -/
def gaps (parts : List (List Char)) : List Nat :=
  ((parts.zipIdx).filter fun (part, i) => part.isEmpty && 0 < i && i + 1 < parts.length).map
    Prod.snd

/-- A group list with a gap at position `i`: an end may be empty only beside the gap, and the gap
stands for at least one group. -/
def isWithGap (parts : List (List Char)) (i : Nat) : Bool :=
  let before := parts.take i
  let after := parts.drop (i + 1)
  let before := if before.head? == some [] then before.drop 1 else before
  let openFront := before.length < i
  let after' := if after.getLast? == some [] then after.dropLast else after
  let openBack := after'.length < after.length
  (!openFront || before.isEmpty) && (!openBack || after'.isEmpty) &&
    before.length + after'.length < 8 && before.all isGroup && after'.all isGroup

/-- Hexadecimal groups joined by colons. -/
def isGroups (cs : List Char) : Bool :=
  let parts := Text.splitOn ':' cs
  if parts.length < 3 then false
  else
    match withoutDecimalEnding? parts with
    | none => false
    | some parts =>
      parts.length ≤ 9 &&
        match gaps parts with
        | [] => parts.length == 8 && parts.all isGroup
        | [i] => isWithGap parts i
        | _ => false

/-- An address of groups, perhaps with a zone behind a percent sign. -/
def isEightPart (cs : List Char) : Bool :=
  match Text.cutFirst? '%' cs with
  | some (address, zone) => !zone.isEmpty && !zone.contains '%' && isGroups address
  | none => isGroups cs

end TableOps.Url
