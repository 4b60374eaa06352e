/-!
# Binary floating-point numbers of 64 bits

A number of the double format, held exactly: a sign and `significand * 2 ^ exponent`, an infinity,
or not a number.

* `Binary64.finite` — the exact value; `Binary64.reduce` gives each value one representation.
* `Binary64.ofScaled` — the nearest number to `mantissa * 10 ^ scale`, a half going to the even
  significand.
* `Binary64.eqInt`, `Binary64.truncate?` — comparison with an integer and truncation to one.
* `Binary64.less` — the exact order of numbers.
-/

namespace TableOps

/-- The whole number `base ^ e`, and 1 for a negative `e`. -/
def wholePower (base : Nat) (e : Int) : Nat :=
  Nat.pow base e.toNat

/-- A number of the double format. -/
inductive Binary64 where
  /-- The value `significand * 2 ^ exponent` with its sign; zero keeps its sign. -/
  | finite (negative : Bool) (significand : Nat) (exponent : Int)
  | infinite (negative : Bool)
  | nan
  deriving DecidableEq, Repr

namespace Binary64

/-- The number of factors two that can be taken out of `n`, looking at most `fuel` times. -/
def twos (fuel n : Nat) : Nat :=
  match fuel with
  | 0 => 0
  | fuel + 1 => if n ≠ 0 ∧ n % 2 = 0 then twos fuel (n / 2) + 1 else 0

/-- The representation with an odd significand, or with exponent 0 for zero. -/
def reduce (negative : Bool) (significand : Nat) (exponent : Int) : Binary64 :=
  if significand = 0 then .finite negative 0 0
  else
    let k := twos significand.log2 significand
    .finite negative (significand / wholePower 2 k) (exponent + k)

/-- The number of binary digits of `n`; zero has none. -/
def bitLength (n : Nat) : Nat :=
  if n = 0 then 0 else n.log2 + 1

/-- The quotient `num / den` rounded to a whole number, a half going to the even one. -/
def roundHalfEven (num den : Nat) : Nat :=
  let q := num / den
  let r := num % den
  if 2 * r < den then q
  else if 2 * r > den then q + 1
  else if q % 2 = 0 then q else q + 1

/-- The smallest exponent of a double's last binary digit. -/
def minExponent : Int := -1074

/-- The double nearest to the positive fraction `num / den`. -/
def ofFraction (negative : Bool) (num den : Nat) : Binary64 :=
  let guess : Int := (num.log2 : Int) - den.log2 - 53
  let scaled (e : Int) : Nat × Nat := (num * wholePower 2 (-e), den * wholePower 2 e)
  let (n, d) := scaled guess
  let e := max (if n / d < wholePower 2 53 then guess else guess + 1) minExponent
  let (n, d) := scaled e
  let m := roundHalfEven n d
  if (bitLength m : Int) + e > 1024 then .infinite negative else reduce negative m e

/-- The double nearest to `mantissa * 10 ^ scale`. Scales so large or small that every mantissa of
that length overflows or vanishes are settled without computing the power. -/
def ofScaled (negative : Bool) (mantissa : Nat) (scale : Int) : Binary64 :=
  if mantissa = 0 then .finite negative 0 0
  else
    let digits : Int := (mantissa.log2 / 3 + 1 : Nat)
    if scale > 400 then .infinite negative
    else if digits + scale < -400 then .finite negative 0 0
    else ofFraction negative (mantissa * wholePower 10 scale) (wholePower 10 (-scale))

/-- The integer a finite number with no fraction is equal to. -/
def toInteger? : Binary64 → Option Int
  | .finite negative m e =>
    let n := m * wholePower 2 e / wholePower 2 (-e)
    if m % wholePower 2 (-e) ≠ 0 then none else some (if negative then -(n : Int) else n)
  | _ => none

/-- The integer left when the fraction is dropped. -/
def truncate? : Binary64 → Option Int
  | .finite negative m e =>
    let n := m * wholePower 2 e / wholePower 2 (-e)
    some (if negative then -(n : Int) else n)
  | _ => none

/-- Equality with an integer. -/
def eqInt (x : Binary64) (n : Int) : Bool :=
  x.toInteger? == some n

/-- Equality as numbers: the two zeros are equal, and nothing is equal to what is not a number. -/
def eqNumber : Binary64 → Binary64 → Bool
  | .finite _ 0 _, .finite _ 0 _ => true
  | .finite s m e, .finite t n f => s == t && m == n && e == f
  | .infinite s, .infinite t => s == t
  | _, _ => false

/-- The whole multiple of `2 ^ low` that a number is, if `low` is not above the exponent. -/
def multipleOf (low : Int) (negative : Bool) (significand : Nat) (exponent : Int) : Int :=
  let m : Int := significand * wholePower 2 (exponent - low)
  if negative then -m else m

/-- The first number is below the second; nothing is below or above what is not a number. -/
def less : Binary64 → Binary64 → Bool
  | .finite s m e, .finite t n f =>
    let low := min e f
    multipleOf low s m e < multipleOf low t n f
  | .finite .., .infinite t => !t
  | .infinite s, .finite .. => s
  | .infinite s, .infinite t => s && !t
  | _, _ => false

/-- The number is zero, of either sign. -/
def isZero : Binary64 → Bool
  | .finite _ 0 _ => true
  | _ => false

end Binary64

end TableOps
