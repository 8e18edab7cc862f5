import Outline.Note

/-!
# Ranking

Listings of notes that no list orders are ranked: heavier notes first, and of equally heavy ones the
newer first. Notes without a weight or a creation time come after those with one. Weights compare by
`Single.rank`, so that the ranking is total. Notes of equal rank keep their order.
-/

namespace Outline.Note

/-- How two notes are ranked; `lt` if the first note stands before the second. -/
def compareRanked (a b : Note) : Ordering :=
  (compare (b.weight.map Single.rank) (a.weight.map Single.rank)).then (compare b.created a.created)

/-- The notes by rank. -/
def ranked (notes : List Note) : List Note :=
  notes.mergeSort fun a b => a.compareRanked b != .gt

end Outline.Note
