import Outline.Search.Lexeme
import Outline.Text.Token

/-!
# Search expressions

An expression joins groups of phrases. A phrase is a run of terms; a group may ask that its phrases
stand near each other and may be limited to some columns. `Expression.accepts` says which rows of
words match.
-/

namespace Outline.Search

open Text (Token)

/-- A column of the index. Only the values are split into words. -/
inductive IndexColumn where
  | atom
  | value
  deriving DecidableEq

namespace IndexColumn

def all : List IndexColumn :=
  [atom, value]

def name : IndexColumn → List Char
  | atom => ['a', 't', 'o', 'm', '_', 'i', 'd']
  | value => ['v', 'a', 'l', 'u', 'e']

/-- The column with the given name, in letters of either case. -/
def ofName? (name : List Char) : Option IndexColumn :=
  all.find? fun column => column.name == name.map Char.toLower

end IndexColumn

/-- One word of a phrase. -/
structure Term where
  token : Token
  /-- Whether any word that begins with the token will do. -/
  isStem : Bool := false
  deriving DecidableEq

/-- Whether a word is what a term asks for. -/
def Term.accepts (term : Term) (word : Token) : Bool :=
  if term.isStem then term.token.isPrefixOf word else term.token == word

/-- Words that follow each other. -/
structure Phrase where
  terms : List Term := []
  /-- Whether the phrase must stand at the beginning. -/
  isInitial : Bool := false
  deriving DecidableEq

namespace Phrase

/-- The phrase with the words of a text at its end; `isStem` says whether its last word may be the
beginning of a longer one. -/
def append (phrase : Phrase) (text : List Char) (isStem : Bool) : Phrase :=
  let terms := phrase.terms ++ (Text.tokens text).map fun token => { token := token }
  match terms.getLast? with
  | none => { phrase with terms }
  | some last => { phrase with terms := terms.dropLast ++ [{ last with isStem }] }

/-- Whether a phrase stands at the beginning of some words. -/
def beginsAt : List Term → List Token → Bool
  | [], _ => true
  | _ :: _, [] => false
  | term :: terms, word :: words => term.accepts word && beginsAt terms words

/-- The places where a phrase stands, the first word being at place `start`. -/
def placesFrom (terms : List Term) (start : Nat) : List Token → List Nat
  | [] => []
  | word :: words =>
    let later := placesFrom terms (start + 1) words
    if beginsAt terms (word :: words) then start :: later else later

/-- The places where a phrase stands. A phrase without words stands nowhere. -/
def places (phrase : Phrase) (words : List Token) : List Nat :=
  if phrase.terms.isEmpty then []
  else
    let places := placesFrom phrase.terms 0 words
    if phrase.isInitial then places.filter (· == 0) else places

end Phrase

/-- The places of one phrase of a group while the group is matched. -/
structure Track where
  /-- How many words the phrase has. -/
  width : Nat
  /-- The places that have not been passed, in order. -/
  ahead : List Nat
  /-- The places that belong to a match, in reverse order. -/
  kept : List Nat := []
  deriving DecidableEq

namespace Track

/-- Passes the places too far before the latest place at which another phrase stands. -/
def catchUp (track : Track) (latest : Nat) (distance : Int) : Track :=
  { track with
    ahead := track.ahead.dropWhile fun place => (place : Int) < latest - track.width - distance }

def keep (track : Track) : Track :=
  match track.ahead.head? with
  | none => track
  | some place =>
    if track.kept.head? = some place then track else { track with kept := place :: track.kept }

/-- Passes the current place of the first track whose next place is `next`. -/
def advanceFirst (next : Nat) : List Track → List Track
  | [] => []
  | track :: tracks =>
    if track.ahead[1]? = some next then { track with ahead := track.ahead.tail } :: tracks
    else track :: advanceFirst next tracks

/-- Keeps the places at which all phrases are near each other. The phrases that are too far behind
catch up until all are near; then their places are kept and the one that can move on to the nearest
place does. It ends when a phrase has no place left; `limit` bounds the number of places. -/
def near (distance : Int) : (limit : Nat) → List Track → List Track
  | 0, tracks => tracks
  | limit + 1, tracks =>
    let latest := (tracks.filterMap (·.ahead.head?)).max?.getD 0
    let caughtUp := tracks.map (·.catchUp latest distance)
    if caughtUp.any (·.ahead.isEmpty) then tracks
    else if caughtUp ≠ tracks then near distance limit caughtUp
    else
      let tracks := tracks.map keep
      match (tracks.filterMap (·.ahead[1]?)).min? with
      | none => tracks
      | some next => near distance limit (advanceFirst next tracks)

end Track

/-- Phrases that must stand near each other. -/
structure Group where
  phrases : List Phrase
  /-- How many words may stand between the phrases. -/
  distance : Int := 10
  /-- The columns that are searched, if not all are. -/
  columns : Option (List IndexColumn) := none
  deriving DecidableEq

namespace Group

/-- Limits a group to some columns. -/
def restrict (columns : List IndexColumn) (group : Group) : Group :=
  let own := group.columns.getD IndexColumn.all
  { group with columns := some (own.filter columns.contains) }

/-- Whether the column that is split into words is searched. -/
def seesValues (group : Group) : Bool :=
  (group.columns.getD IndexColumn.all).contains .value

/-- The places of each phrase. -/
def places (group : Group) (words : List Token) : List (List Nat) :=
  group.phrases.map fun phrase => if group.seesValues then phrase.places words else []

/-- How often each phrase occurs near all others, if they are near each other anywhere. -/
def counts? (group : Group) (words : List Token) : Option (List Nat) :=
  match group.places words with
  | [places] => if places.isEmpty then none else some [places.length]
  | places =>
    if places.any List.isEmpty then none
    else
      let tracks := group.phrases.zipWith (fun phrase places =>
        ({ width := phrase.terms.length, ahead := places } : Track)) places
      let limit := places.foldl (fun count places => count + places.length) 1
      let tracks := Track.near group.distance limit tracks
      if tracks.any (·.kept.isEmpty) then none else some (tracks.map (·.kept.length))

end Group

/-- A search expression. -/
inductive Expression where
  /-- An expression without words, which matches nothing. -/
  | nothing
  | group (group : Group)
  | joined (joiner : Joiner) (left right : Expression)

namespace Expression

/-- The expression that asks for phrases near each other. Phrases without words are left out. -/
def ofPhrases (phrases : List Phrase) (distance : Int) : Expression :=
  match phrases.filter fun phrase => !phrase.terms.isEmpty with
  | [] => nothing
  | phrases => group { phrases, distance }

/-- Limits an expression to some columns. -/
def restrict (columns : List IndexColumn) : Expression → Expression
  | nothing => nothing
  | group g => group (g.restrict columns)
  | joined joiner left right => joined joiner (left.restrict columns) (right.restrict columns)

/-- Both of two expressions, one of which may hold no words. -/
def beside : Expression → Expression → Expression
  | left, nothing => left
  | nothing, right => right
  | left, right => joined .and left right

/-- The height of the tree of an expression. Expressions joined by `AND`, or by `OR`, stand side by
side. -/
def height : Expression → Nat
  | nothing | group _ => 0
  | joined joiner left right =>
    let below (side : Expression) (height : Nat) : Nat :=
      match side with
      | joined inner _ _ => if inner = joiner ∧ joiner ≠ .not then height else height + 1
      | _ => height + 1
    max (below left left.height) (below right right.height)

/-- The expressions that a joiner joins, where those joined by `AND`, or by `OR`, stand side by
side. -/
def parts (joiner : Joiner) : Expression → List Expression
  | joined inner left right =>
    if inner = joiner ∧ joiner ≠ .not then left.parts joiner ++ right.parts joiner
    else [joined inner left right]
  | expression => [expression]

/-- Whether a row of words matches. -/
def accepts (words : List Token) : Expression → Bool
  | nothing => false
  | group g => (g.counts? words).isSome
  | joined .and left right => left.accepts words && right.accepts words
  | joined .or left right => left.accepts words || right.accepts words
  | joined .not left right => left.accepts words && !right.accepts words

end Expression

end Outline.Search
