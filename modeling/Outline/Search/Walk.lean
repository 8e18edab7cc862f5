import Outline.Search.Expression

/-!
# Walking through the rows

The rows are gone through once, in their order, to count the phrases in those that match. Each part
of an expression stands at a row or has ended; it is moved on only as far as it takes to tell which
row matches next. The phrases that count for a row are those of the groups that stand at it, whether
the expression needs them or not: so a group that `OR` or `NOT` could do without may count, but only
if it has been moved there.
-/

namespace Outline.Search

open Text (Token)

namespace Group

/-- Whether a row has all words of a group somewhere. Beginnings of words are looked up in the
columns that are searched, other words in all columns. -/
def reaches (group : Group) (words : List Token) : Bool :=
  group.phrases.all fun phrase => phrase.terms.all fun term =>
    words.any term.accepts && (group.seesValues || !term.isStem)

/-- The counts of the phrases at a row that has all words, and whether the row matches. The first
phrase that does not occur ends the counting: those after it keep the counts they had `before`. -/
def recount (group : Group) (before : List Nat) (words : List Token) : List Nat × Bool :=
  match group.counts? words with
  | some counts => (counts, true)
  | none =>
    let counts := (group.places words).map List.length
    let occurring := counts.takeWhile (0 < ·)
    if occurring.length = counts.length then (counts.map fun _ => 0, false)
    else (occurring ++ 0 :: before.drop (occurring.length + 1), false)

end Group

/-- How often a phrase counts for a row. -/
structure Hit where
  phrase : Phrase
  count : Nat
  deriving DecidableEq

/-- A part of an expression on its way through the rows. -/
inductive Walk where
  /-- A group stands at the first of the rows ahead of it. -/
  | group (group : Group) (ahead : List (List Token × Nat)) (counts : List Nat) (fits : Bool)
  /-- Parts that must all stand at one row and match there. -/
  | all (parts : List Walk) (place : Option Nat) (fits : Bool)
  /-- Parts of which one must match. The whole stands where the hindmost part does. -/
  | any (parts : List Walk) (place : Option Nat) (fits : Bool)
  /-- A part that must match where the other one does not. -/
  | except (kept dropped : Walk)

namespace Walk

/-- Where a walk stands; `none` if it has ended. -/
def place? : Walk → Option Nat
  | group _ ahead _ _ => ahead.head?.map Prod.snd
  | all _ place _ | any _ place _ => place
  | except kept _ => kept.place?

/-- Whether a walk matches the row where it stands. -/
def fits : Walk → Bool
  | group _ _ _ fits | all _ _ fits | any _ _ fits => fits
  | except kept _ => kept.fits

/-- Whether a walk stands before the given place. -/
def isBehind (place : Nat) (walk : Walk) : Bool :=
  walk.place?.any (· < place)

mutual

/-- The walk with nothing counted so far. -/
def cleared : Walk → Walk
  | group g ahead counts fits => group g ahead (counts.map fun _ => 0) fits
  | all parts place fits => all (clearedParts parts) place fits
  | any parts place fits => any (clearedParts parts) place fits
  | except kept dropped => except kept.cleared dropped.cleared

def clearedParts : List Walk → List Walk
  | [] => []
  | part :: parts => part.cleared :: clearedParts parts

end

mutual

/-- The phrases of a walk with their counts for the row at a place. -/
def hits (place : Nat) : Walk → List Hit
  | group g ahead counts _ =>
    if ahead.head?.map Prod.snd = some place then g.phrases.zipWith Hit.mk counts
    else g.phrases.map fun phrase => { phrase, count := 0 }
  | all parts _ _ | any parts _ _ => partHits place parts
  | except kept dropped => kept.hits place ++ dropped.hits place

def partHits (place : Nat) : List Walk → List Hit
  | [] => []
  | part :: parts => part.hits place ++ partHits place parts

end

/-- Moves a group on to the first row ahead, from a place on, that has all its words. -/
def seek (g : Group) (ahead : List (List Token × Nat)) (counts : List Nat) (place : Nat) : Walk :=
  match ahead.dropWhile fun (words, at?) => at? < place || !g.reaches words with
  | [] => group g [] counts false
  | (words, at?) :: rest =>
    let (counts, fits) := g.recount counts words
    group g ((words, at?) :: rest) counts fits

/-- Parts of which one must match, once they have been moved. -/
def ofAny (parts : List Walk) : Walk :=
  let place := (parts.filterMap place?).min?
  any parts place (parts.any fun part => part.place? = place && part.fits)

section Moves

-- How a part is moved on to its first row from a place on.
variable (move : Nat → Walk → Walk)

/-- Moves each part on to where those before it stand. The place is how far they have come; there
is none if a part has ended. -/
def catchUp : Nat → List Walk → Option Nat × List Walk
  | place, [] => (some place, [])
  | place, part :: parts =>
    let part := if part.isBehind place then move place part else part
    match part.place? with
    | none => (none, part :: parts)
    | some reached =>
      let (place, parts) := catchUp reached parts
      (place, part :: parts)

/-- Moves the parts on, from a place on, until all stand at one row; `limit` bounds the number of
rounds. -/
def meet : (limit : Nat) → Nat → List Walk → Walk
  | 0, _, parts => all parts none false
  | limit + 1, place, parts =>
    match catchUp move place parts with
    | (none, parts) => all (clearedParts parts) none false
    | (some reached, parts) =>
      if reached = place then all parts (some place) (parts.all fits)
      else meet limit reached parts

/-- Moves one part past the rows that the other one matches; `limit` bounds their number. -/
def avoid : (limit : Nat) → (kept dropped : Walk) → Walk
  | 0, kept, dropped => except kept dropped
  | limit + 1, kept, dropped =>
    match kept.place? with
    | none => except kept dropped.cleared
    | some place =>
      let dropped := if dropped.isBehind place then move place dropped else dropped
      if dropped.place? = some place && dropped.fits then
        avoid limit (move (place + 1) kept) dropped
      else except kept dropped

end Moves

/-- A walk that is part of another one: parts that stand at one row but do not all match there count
nothing. -/
def asPart : Walk → Walk
  | all parts place false => (all parts place false).cleared
  | walk => walk

/-- Moves a walk on to its first row from a place on; `height` bounds the height of the expression
and `limit` the number of rows. -/
def advance (limit : Nat) : (height : Nat) → Nat → Walk → Walk
  | 0, _, walk => walk
  | height + 1, place, walk =>
    let move (place : Nat) (part : Walk) : Walk := (advance limit height place part).asPart
    match walk with
    | group g ahead counts _ => seek g ahead counts place
    | all parts _ _ => meet move limit place parts
    | any parts _ _ =>
      ofAny (parts.map fun part => if part.isBehind place then move place part else part)
    | except kept dropped => avoid move limit (move place kept) dropped

/-- The walk of an expression at its first row. Where nothing may be kept, the part that must not
match is not moved, but stands at its own first row. -/
def start (limit : Nat) (rows : List (List Token × Nat)) : (height : Nat) → Expression → Walk
  | 0, _ | _, .nothing => ofAny []
  | _ + 1, .group g => seek g rows (g.phrases.map fun _ => 0) 0
  | height + 1, .joined joiner left right =>
    let first (part : Expression) : Walk := (start limit rows height part).asPart
    let move (place : Nat) (part : Walk) : Walk := (advance limit height place part).asPart
    let parts := left.parts joiner ++ right.parts joiner
    match joiner with
    | .and => meet move limit 0 (parts.map first)
    | .or =>
      let whole := ofAny (parts.map first)
      if whole.place? = none then whole.cleared else whole
    | .not =>
      let kept := first left
      let dropped := first right
      if kept.place? = none then except kept dropped else avoid move limit kept dropped

/-- The places of the rows that match, each with the phrases that count for it. -/
def follow (limit height : Nat) : (rows : Nat) → Walk → List (Nat × List Hit)
  | 0, _ => []
  | rows + 1, walk =>
    match walk.place? with
    | none => []
    | some place =>
      let later := follow limit height rows (advance limit height (place + 1) walk)
      if walk.fits then (place, walk.hits place) :: later else later

end Walk

/-- The places of the rows that match an expression, each with the phrases that count for it. -/
def Expression.walk (rows : List (List Token)) (expression : Expression) : List (Nat × List Hit) :=
  let height := expression.height + 1
  let limit := rows.length + 1
  Walk.follow limit height limit (Walk.start limit rows.zipIdx height expression)

end Outline.Search
