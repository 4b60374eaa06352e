import TableOps.Number.Binary64

/-!
# The shortest decimal text of a double

A double is written with the fewest digits that read back as the same double and, of those, the
ones nearest to its value. `FloatFormat` says how the digits are laid out; `Binary64.text` writes
with the layout used in statements and messages.

* `Binary64.digits` — the digits and the place of the decimal point.
* `FloatFormat` — the choices of the layout, and `standardFloat`, the layout used here.
-/

namespace TableOps

namespace Binary64

/-- The significand and exponent with as many of the 53 binary digits as the exponent allows. -/
def widen (significand : Nat) (exponent : Int) : Nat × Int :=
  let e := max ((bitLength significand : Int) + exponent - 53) minExponent
  (significand * wholePower 2 (exponent - e), e)

/-- The number of decimal digits of `n`; zero has one. -/
def decimalLength (n : Nat) : Nat :=
  (Nat.toDigits 10 n).length

/-- The `k` with `10 ^ (k - 1) ≤ num / den < 10 ^ k`, for a positive fraction. -/
def pointPlace (num den : Nat) : Int :=
  if den ≤ num then decimalLength (num / den)
  else 1 - (decimalLength ((den + num - 1) / num - 1) : Int)

/-- The point of the decimal grid `10 ^ scale` that lies nearest to `num / den` among its two
neighbours there, if one of them lies between `low / den` and `high / den`. The ends count when
`closed`; of two equally near points the even one is taken. -/
def gridPoint? (num den low high : Nat) (closed : Bool) (scale : Int) : Option Nat :=
  let up := wholePower 10 (-scale)
  let step := den * wholePower 10 scale
  let within (c : Nat) : Bool :=
    if closed then low * up ≤ c * step && c * step ≤ high * up
    else low * up < c * step && c * step < high * up
  let c := num * up / step
  let below := num * up - c * step
  let above := (c + 1) * step - num * up
  match within c, within (c + 1) with
  | false, false => none
  | true, false => some c
  | false, true => some (c + 1)
  | true, true =>
    if below < above then some c
    else if above < below then some (c + 1)
    else if c % 2 = 0 then some c else some (c + 1)

/-- The first grid with a hit, from `n` digits on, trying `fuel` of them. -/
def firstGrid (num den low high : Nat) (closed : Bool) (place : Int) : Nat → Nat → Nat × Int
  | _, 0 => (num / den, 0)
  | n, fuel + 1 =>
    match gridPoint? num den low high closed (place - n) with
    | some c => (c, place - n)
    | none => firstGrid num den low high closed place (n + 1) fuel

/-- The shortest decimal digits of a positive finite value and the power of ten of the last one. -/
def digits (significand : Nat) (exponent : Int) : Nat × Int :=
  let (m, e) := widen significand exponent
  let low := if m = wholePower 2 52 ∧ minExponent < e then 4 * m - 1 else 4 * m - 2
  let scale := e - 2
  let up := wholePower 2 scale
  let den := wholePower 2 (-scale)
  firstGrid (4 * m * up) den (low * up) ((4 * m + 2) * up) (m % 2 == 0)
    (pointPlace (4 * m * up) den) 1 17

end Binary64

/-- The layout of a float's text. -/
structure FloatFormat where
  /-- Numbers below `10 ^ positionalBelow` are written without an exponent … -/
  positionalBelow : Int
  /-- … if they are at least `10 ^ positionalFrom`. -/
  positionalFrom : Int
  /-- What stands for an empty fraction. -/
  emptyFraction : String
  /-- The least number of digits of an exponent. -/
  exponentDigits : Nat
  infinity : String
  notANumber : String

/-- Positional from `0.0001` up to below `1e+16`; a whole number keeps `.0`; an exponent has a sign
and at least two digits. -/
def standardFloat : FloatFormat :=
  ⟨16, -4, ".0", 2, "inf", "nan"⟩

namespace Binary64

/-- Digits, the last one with weight `10 ^ scale`, laid out by `format`. -/
def layOut (format : FloatFormat) (mantissa : Nat) (scale : Int) : List Char :=
  let stripped := (Nat.toDigits 10 mantissa).reverse.dropWhile (· == '0')
  let ds := if stripped.isEmpty then ['0'] else stripped.reverse
  let place : Int := (Nat.toDigits 10 mantissa).length + scale
  if format.positionalFrom < place ∧ place ≤ format.positionalBelow then
    if place ≤ 0 then '0' :: '.' :: (List.replicate (-place).toNat '0' ++ ds)
    else if ds.length ≤ place.toNat then
      ds ++ List.replicate (place.toNat - ds.length) '0' ++ format.emptyFraction.toList
    else ds.take place.toNat ++ '.' :: ds.drop place.toNat
  else
    let power := place - 1
    let written := Nat.toDigits 10 power.natAbs
    let fraction := if ds.length = 1 then [] else '.' :: ds.drop 1
    ds.take 1 ++ fraction ++ 'e' :: (if power < 0 then '-' else '+') ::
      (List.replicate (format.exponentDigits - written.length) '0' ++ written)

/-- The text of a number under a layout. -/
def textIn (format : FloatFormat) : Binary64 → String
  | .nan => format.notANumber
  | .infinite negative => (if negative then "-" else "") ++ format.infinity
  | .finite negative m e =>
    let body :=
      if m = 0 then layOut format 0 0
      else
        let (ds, scale) := digits m e
        layOut format ds scale
    String.ofList (if negative then '-' :: body else body)

/-- The text of a number in statements and messages. -/
def text (x : Binary64) : String :=
  x.textIn standardFloat

end Binary64

end TableOps
