/-!
# Blanks

The blank characters, and what is cut at them: trimming a text at its ends and splitting it into
words.

* `isBlank` — the blank characters: the white space of Unicode and the four separators 28 to 31.
* `isWhiteSpace` — the same set without those separators.
* `trim`, `trimFront`, `trimBack` — a text without the blanks at its ends.
* `words` — the longest blank-free stretches of a text, in order.
-/

namespace TableOps.Text

/-- White space as Unicode lists it: the controls 9 to 13, the blank, and the spaces of the other
scripts. -/
def isWhiteSpace (c : Char) : Bool :=
  let n := c.toNat
  (9 ≤ n && n ≤ 13) || n == 32 || n == 0x85 || n == 0xA0 || n == 0x1680 ||
    (0x2000 ≤ n && n ≤ 0x200A) || n == 0x2028 || n == 0x2029 || n == 0x202F || n == 0x205F ||
    n == 0x3000

/-- A blank separates words: white space, or one of the four information separators. -/
def isBlank (c : Char) : Bool :=
  isWhiteSpace c || (28 ≤ c.toNat && c.toNat ≤ 31)

/-- The characters without the blanks in front. -/
def trimFront (cs : List Char) : List Char :=
  cs.dropWhile isBlank

/-- The characters without the blanks at the end. -/
def trimBack (cs : List Char) : List Char :=
  (trimFront cs.reverse).reverse

/-- The characters without the blanks at either end. -/
def trim (cs : List Char) : List Char :=
  trimBack (trimFront cs)

/-- The words of a text whose front is still growing: `word` holds the characters read so far,
the last one first. -/
def wordsFrom (word : List Char) : List Char → List (List Char)
  | [] => if word.isEmpty then [] else [word.reverse]
  | c :: cs =>
    if isBlank c then
      if word.isEmpty then wordsFrom [] cs else word.reverse :: wordsFrom [] cs
    else wordsFrom (c :: word) cs

/-- The longest blank-free stretches of a text, in order. -/
def words (cs : List Char) : List (List Char) :=
  wordsFrom [] cs

/-- `trim` on strings. -/
def trimmed (s : String) : String :=
  String.ofList (trim s.toList)

/-- `words` on strings. -/
def wordsOf (s : String) : List String :=
  (words s.toList).map String.ofList

end TableOps.Text
