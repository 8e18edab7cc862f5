/-!
# Alignments

An alignment of two lists pairs places of the first with places of the second, increasing on both
sides, where the items match. `Alignment.longest` finds one with as many pairs as possible. Any
relation may say what matches; it need not even be reflexive.
-/

namespace Outline

/-- Pairs of places in two lists, with their number. -/
structure Alignment where
  pairs : List (Nat × Nat) := []
  size : Nat := 0
  size_eq : size = pairs.length := by rfl

namespace Alignment

/-- The alignment with one more pair in front. -/
def push (pair : Nat × Nat) (below : Alignment) : Alignment where
  pairs := pair :: below.pairs
  size := below.size + 1
  size_eq := by simp [below.size_eq]

/-- The larger of two alignments, and the first if they are equally large. -/
def larger (a b : Alignment) : Alignment :=
  if b.size ≤ a.size then a else b

/-- Longest alignments of a list that begins with `x` at place `i`, one with each ending of the
other list, whose first item is at place `j`. They are built on those without `x`. -/
def extend {α : Type} (isMatch : α → α → Bool) (i : Nat) (x : α) :
    (j : Nat) → List α → List Alignment → List Alignment
  | _, [], without => without
  | j, y :: ys, without =>
    let withoutBoth := without.tail.headD {}
    let endings := extend isMatch i x (j + 1) ys without.tail
    let best :=
      if isMatch x y then withoutBoth.push (i, j)
      else larger (without.headD {}) (endings.headD {})
    best :: endings

/-- Longest alignments of a list, whose first item is at place `i`, with each ending of another. -/
def withEndings {α : Type} (isMatch : α → α → Bool) (i : Nat) : List α → List α → List Alignment
  | [], ys => List.replicate (ys.length + 1) {}
  | x :: xs, ys => extend isMatch i x 0 ys (withEndings isMatch (i + 1) xs ys)

/-- A longest alignment. Where several are longest, it is the one found by matching the first items
if they match, and by leaving out the first item of the first list rather than of the second. -/
def longest {α : Type} (isMatch : α → α → Bool) (before after : List α) : Alignment :=
  (withEndings isMatch 0 before after).headD {}

end Alignment

end Outline
