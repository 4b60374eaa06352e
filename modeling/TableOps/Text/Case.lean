import TableOps.Text.Case.Cased
import TableOps.Text.Case.Lower
import TableOps.Text.Case.Upper

/-!
# Case

Upper and lower case of a text by the full case maps of Unicode, and the plain fold of the ASCII
letters for keywords that have only these.

* `upper` — upper case; some letters become two or three.
* `lower` — lower case; a capital sigma at the end of a word takes its final form.
* `fold` — the ASCII letters in lower case, all else as it stands.
-/

namespace TableOps.Text

/-- An ASCII letter in lower case, any other character as it stands. -/
def foldChar (c : Char) : Char :=
  if 'A' ≤ c ∧ c ≤ 'Z' then Char.ofNat (c.toNat + 32) else c

/-- An ASCII letter in upper case, any other character as it stands. -/
def raiseChar (c : Char) : Char :=
  if 'a' ≤ c ∧ c ≤ 'z' then Char.ofNat (c.toNat - 32) else c

/-- The ASCII letters in lower case, all else as it stands. -/
def fold (s : String) : String :=
  String.ofList (s.toList.map foldChar)

/-- The upper case of one character, which may be several. -/
def upperChar (c : Char) : List Char :=
  if c.toNat < 128 then [raiseChar c]
  else
    match upperSpecials.lookup c.toNat with
    | some codes => codes.map Char.ofNat
    | none => [shiftIn upperRuns c]

/-- The upper case of a text. -/
def upper (s : String) : String :=
  String.ofList (s.toList.flatMap upperChar)

/-- A letter that has case. -/
def isCased (c : Char) : Bool :=
  casedRanges.any fun (lo, hi) => lo ≤ c.toNat && c.toNat ≤ hi

/-- A mark that is passed over when looking for a letter with case. -/
def isCaseIgnorable (c : Char) : Bool :=
  caseIgnorableRanges.any fun (lo, hi) => lo ≤ c.toNat && c.toNat ≤ hi

/-- The first character that is not passed over is a letter with case. -/
def meetsCased (cs : List Char) : Bool :=
  (cs.find? fun c => isCased c || !isCaseIgnorable c).any isCased

/-- The lower case of one character between the text before it, the nearest character first, and
the text after it: a capital sigma that ends a word takes its final form. -/
def lowerChar (before : List Char) (c : Char) (after : List Char) : List Char :=
  if c.toNat < 128 then [foldChar c]
  else if c = 'Σ' then [if meetsCased before && !meetsCased after then 'ς' else 'σ']
  else if c = 'İ' then ['i', '\u0307']
  else [shiftIn lowerRuns c]

/-- Lower case of the rest of a text, after `before` with its nearest character first. -/
def lowerFrom (before : List Char) : List Char → List Char
  | [] => []
  | c :: cs => lowerChar before c cs ++ lowerFrom (c :: before) cs

/-- The lower case of a text. -/
def lower (s : String) : String :=
  String.ofList (lowerFrom [] s.toList)

end TableOps.Text
