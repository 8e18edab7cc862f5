/-!
# Ranges of code points

Sets and maps of characters as the Unicode tables give them: ranges of code points, and runs of
characters that a mapping moves by the same distance.
-/

namespace Outline.Text

/-- A set of characters, given by ranges of code points with both ends included. -/
abbrev CodeRanges := List (Nat × Nat)

/-- Whether a character lies in one of the ranges. -/
def CodeRanges.contains (ranges : CodeRanges) (c : Char) : Bool :=
  ranges.any fun range => range.1 ≤ c.toNat && c.toNat ≤ range.2

/-- Characters from `first` to `last`, `step` code points apart, that a mapping moves by `shift`. -/
structure ShiftRun where
  first : Nat
  last : Nat
  step : Nat
  shift : Int

/-- Whether the run holds a character. -/
def ShiftRun.contains (run : ShiftRun) (c : Char) : Bool :=
  run.first ≤ c.toNat && c.toNat ≤ run.last && (c.toNat - run.first) % run.step == 0

/-- The image of a character under the first run that holds it; others stay as they are. -/
def shifted (runs : List ShiftRun) (c : Char) : Char :=
  match runs.find? (·.contains c) with
  | some run => Char.ofNat (c.toNat + run.shift).toNat
  | none => c

end Outline.Text
