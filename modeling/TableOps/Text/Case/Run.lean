/-!
# Runs of letters with one shift

A case table maps letters in runs: every letter of a run moves by the same distance to its
counterpart, and a run holds every letter or every second one.
-/

namespace TableOps.Text

/-- The letters `first`, `first + step`, … up to `last`, all of which move by `shift`. -/
structure CaseRun where
  first : Nat
  last : Nat
  step : Nat
  shift : Int

/-- The letter with code `n` belongs to the run. -/
def CaseRun.has (r : CaseRun) (n : Nat) : Bool :=
  r.first ≤ n && n ≤ r.last && (n - r.first) % r.step == 0

/-- The counterpart of `c` in a table of runs; a letter in no run is its own. -/
def shiftIn (table : List CaseRun) (c : Char) : Char :=
  match table.find? (·.has c.toNat) with
  | some r => Char.ofNat (Int.toNat (c.toNat + r.shift))
  | none => c

end TableOps.Text
