import Outline.Number.Single
import Outline.Search.Walk
import Outline.Store.Basic

/-!
# Relevance

The rows that match an expression are ordered by a score. By default a row scores the better the
more often the phrases count for it, the fewer other rows hold them, and the shorter it is. Rows of
equal score are ordered by their atoms.
-/

namespace Outline.Search

open Text (Token)

/-- Scores the rows of an index for an expression, by their places; the lowest score is the best. -/
abbrev Scoring := List IndexRow → Expression → Nat → Double

/-- A row that matches, with its score. -/
structure ScoredAtom where
  atom : AtomId
  score : Double
  deriving DecidableEq

/-! ## Scoring by rarity -/

/-- How much it says that a row holds a phrase: the logarithm of the odds against it, but at least a
little. -/
def rarity (rows : List (List Token)) (phrase : Phrase) : Float :=
  let holding := rows.countP fun words => !(phrase.places words).isEmpty
  let odds := (Float.ofNat (rows.length - holding) + 0.5) / (Float.ofNat holding + 0.5)
  let rarity := odds.log
  if rarity ≤ 0.0 then 1e-6 else rarity

/-- The number of words of an average row. -/
def averageLength (rows : List (List Token)) : Float :=
  let count := rows.foldl (fun count words => count + words.length) 0
  Float.ofNat count / Float.ofNat rows.length

/-- What the occurrences of a phrase add to the weight of a row. Frequent occurrences count less
each, and the more so the shorter the row is in relation to an average one. -/
def weight (rows : List (List Token)) (words : List Token) (hit : Hit) : Float :=
  let count := Float.ofNat hit.count
  let relativeLength := 0.75 * Float.ofNat words.length / averageLength rows
  rarity rows hit.phrase * (count * 2.2 / (count + 1.2 * (0.25 + relativeLength)))

/-- The score of a row for which the given phrases count. -/
def score (rows : List (List Token)) (words : List Token) (hits : List Hit) : Double :=
  ⟨(-1.0 * hits.foldl (fun sum hit => sum + weight rows words hit) 0.0).toBits⟩

/-- The scores of the rows by what counts for them. Rows that do not match are not scored. -/
def byRarity : Scoring := fun index expression =>
  let rows := index.map fun row => Text.tokens row.text.toList
  let scores := (expression.walk rows).map fun (place, hits) =>
    (place, score rows (rows.getD place []) hits)
  fun place => (scores.lookup place).getD ⟨0⟩

/-! ## Ranking -/

/-- Whether one row comes before another or beside it. -/
def ScoredAtom.atMost (a b : ScoredAtom) : Bool :=
  a.score.order < b.score.order || a.score.order == b.score.order && a.atom ≤ b.atom

/-- The rows that match an expression, the best first. -/
def ranking (rows : List IndexRow) (expression : Expression) (scoring : Scoring := byRarity) :
    List ScoredAtom :=
  let scores := scoring rows expression
  let matching := rows.zipIdx.filter fun (row, _) =>
    expression.accepts (Text.tokens row.text.toList)
  (matching.map fun (row, place) => ({ atom := row.atom, score := scores place } : ScoredAtom))
    |>.mergeSort ScoredAtom.atMost

/-- The atoms whose entries match an expression, the best first. -/
def relevantAtoms (rows : List IndexRow) (expression : Expression)
    (scoring : Scoring := byRarity) : List AtomId :=
  (ranking rows expression scoring).map ScoredAtom.atom

end Outline.Search
