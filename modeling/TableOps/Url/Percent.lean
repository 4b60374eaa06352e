import TableOps.Text.Cut

/-!
# Percent coding

Text inside a URL is coded byte by byte: a byte that is not a plain character is written as a
percent sign and two hexadecimal digits, and the bytes are those of UTF-8.

* `Percent.encode` — letters, digits and `_.-~` stay, everything else is coded.
* `Percent.decode` — coded bytes are put back; bytes that are no UTF-8 become the replacement
  character.
* `Utf8.bytes`, `Utf8.decode` — the bytes of a character, and the characters of bytes.
-/

namespace TableOps

namespace Utf8

/-- The bytes of a character. -/
def bytes (c : Char) : List Nat :=
  let n := c.toNat
  if n < 0x80 then [n]
  else if n < 0x800 then [0xC0 + n / 64, 0x80 + n % 64]
  else if n < 0x10000 then [0xE0 + n / 4096, 0x80 + n / 64 % 64, 0x80 + n % 64]
  else [0xF0 + n / 262144, 0x80 + n / 4096 % 64, 0x80 + n / 64 % 64, 0x80 + n % 64]

/-- A character that has begun: the bytes still to come, the bits so far, and the range in which
the next byte has to lie. -/
structure Begun where
  left : Nat
  bits : Nat
  low : Nat
  high : Nat

/-- The character that stands for bytes that make none. -/
def replacement : Char := '\uFFFD'

/-- What a first byte begins: a whole character, a longer one, or none. -/
def begin (b : Nat) : Option (Char ⊕ Begun) :=
  if b < 0x80 then some (.inl (Char.ofNat b))
  else if b < 0xC2 then none
  else if b < 0xE0 then some (.inr ⟨1, b - 0xC0, 0x80, 0xBF⟩)
  else if b = 0xE0 then some (.inr ⟨2, 0, 0xA0, 0xBF⟩)
  else if b = 0xED then some (.inr ⟨2, 0xD, 0x80, 0x9F⟩)
  else if b < 0xF0 then some (.inr ⟨2, b - 0xE0, 0x80, 0xBF⟩)
  else if b = 0xF0 then some (.inr ⟨3, 0, 0x90, 0xBF⟩)
  else if b < 0xF4 then some (.inr ⟨3, b - 0xF0, 0x80, 0xBF⟩)
  else if b = 0xF4 then some (.inr ⟨3, 4, 0x80, 0x8F⟩)
  else none

/-- The characters of bytes behind a character that may have begun. -/
def decodeFrom : Option Begun → List Nat → List Char
  | none, [] => []
  | some _, [] => [replacement]
  | none, b :: bs =>
    match begin b with
    | some (.inl c) => c :: decodeFrom none bs
    | some (.inr s) => decodeFrom (some s) bs
    | none => replacement :: decodeFrom none bs
  | some s, b :: bs =>
    if s.low ≤ b ∧ b ≤ s.high then
      let bits := 64 * s.bits + (b - 0x80)
      if s.left ≤ 1 then Char.ofNat bits :: decodeFrom none bs
      else decodeFrom (some ⟨s.left - 1, bits, 0x80, 0xBF⟩) bs
    else
      replacement ::
        match begin b with
        | some (.inl c) => c :: decodeFrom none bs
        | some (.inr s) => decodeFrom (some s) bs
        | none => replacement :: decodeFrom none bs

/-- The characters of bytes; every longest stretch that makes no character is replaced. -/
def decode (bs : List Nat) : List Char :=
  decodeFrom none bs

end Utf8

namespace Percent

/-- A character that is not coded. -/
def isPlain (c : Char) : Bool :=
  ('a' ≤ c && c ≤ 'z') || ('A' ≤ c && c ≤ 'Z') || ('0' ≤ c && c ≤ '9') ||
    c == '_' || c == '.' || c == '-' || c == '~'

/-- The hexadecimal digit of a number below 16. -/
def hexDigit (n : Nat) : Char :=
  if n < 10 then Char.ofNat ('0'.toNat + n) else Char.ofNat ('A'.toNat + (n - 10))

/-- A coded byte. -/
def code (b : Nat) : List Char :=
  ['%', hexDigit (b / 16), hexDigit (b % 16)]

/-- A character as it stands in a URL. -/
def encodeChar (c : Char) : List Char :=
  if isPlain c then [c] else (Utf8.bytes c).flatMap code

/-- A text as it stands in a URL. -/
def encode (s : String) : String :=
  String.ofList (s.toList.flatMap encodeChar)

/-- The value of a hexadecimal digit. -/
def hexValue? (c : Char) : Option Nat :=
  if '0' ≤ c ∧ c ≤ '9' then some (c.toNat - '0'.toNat)
  else if 'a' ≤ c ∧ c ≤ 'f' then some (c.toNat - 'a'.toNat + 10)
  else if 'A' ≤ c ∧ c ≤ 'F' then some (c.toNat - 'A'.toNat + 10)
  else none

/-- The byte of two hexadecimal digits. -/
def byte? (a b : Char) : Option Nat := do
  return 16 * (← hexValue? a) + (← hexValue? b)

/-- The characters of a coded text. The bytes read so far wait in `pending`, the last one first; a
character beyond ASCII ends their stretch. -/
def decodeFrom (pending : List Nat) : List Char → List Char
  | [] => Utf8.decode pending.reverse
  | '%' :: a :: b :: cs =>
    match byte? a b with
    | some n => decodeFrom (n :: pending) cs
    | none => decodeFrom ('%'.toNat :: pending) (a :: b :: cs)
  | c :: cs =>
    if c.toNat < 0x80 then decodeFrom (c.toNat :: pending) cs
    else Utf8.decode pending.reverse ++ c :: decodeFrom [] cs

/-- The text that a coded text stands for. -/
def decode (s : String) : String :=
  String.ofList (decodeFrom [] s.toList)

end Percent

end TableOps
