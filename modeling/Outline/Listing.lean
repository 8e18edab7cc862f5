import Outline.NoteError
import Outline.Ranking
import Outline.Search.Index
import Outline.View

/-!
# Listings

A listing gathers notes that no list holds together: the hits of a search, the answers to a query,
the atoms in no list, or some atoms of one's choice. Its notes are the children of a root note
without an identifier. Candidates come each once, without those that do not exist or are not shown,
and ranked; a listing of one's choice keeps its order and shows every atom.
-/

namespace Outline

/-- A depth as it is asked for: any number of 32 bits, none or less standing for no levels. -/
abbrev Depth := Int32

/-- How many levels of children a depth stands for. -/
def Depth.levels (depth : Depth) : Nat :=
  depth.toNatClampNeg

namespace Store

/-- The note for a candidate, unless there is no such atom or it is not shown. -/
def candidate? (store : Store) (visibility : Visibility) (adjacency : Adjacency) (height : Nat)
    (id : AtomId) : Except StoreError (Option Note) := do
  match ← store.atom? id with
  | none => return none
  | some atom =>
    if visibility.shows atom then
      return some (← store.view visibility adjacency height none atom)
    else return none

/-- The listing of some candidates. -/
def listing (store : Store) (visibility : Visibility) (adjacency : Adjacency) (height : Nat)
    (ids : List AtomId) : Except StoreError Note := do
  let notes ← ids.eraseDups.mapM (store.candidate? visibility adjacency height)
  return { children := Note.ranked (notes.filterMap id) }

/-- The listing of the atoms that stand in no list. -/
def roots (store : Store) (visibility : Visibility) (adjacency : Adjacency) :
    Except StoreError Note := do
  let atoms ← store.listUnreferenced
  store.listing visibility adjacency 0 (atoms.map Atom.id)

/-- The listing of what a search finds. -/
def search (store : Store) (visibility : Visibility) (adjacency : Adjacency) (depth : Depth)
    (request : SearchRequest) (scoring : Search.Scoring := Search.byRarity) :
    Except NoteError Note := do
  let ids ← (request.hits store scoring).mapError NoteError.search
  let note ← (store.listing visibility adjacency (depth - 1).levels ids).mapError NoteError.store
  return { note with value := "full text search results for \"" ++ request.text ++ "\"" }

/-- The listing of the candidates that `engine` finds for a query. -/
def answers (store : Store) (visibility : Visibility) (adjacency : Adjacency) (depth : Depth)
    (engine : String → Store → Except QueryError (List AtomId)) (query : String) :
    Except NoteError Note := do
  let ids ← (engine query store).mapError NoteError.query
  let note ← (store.listing visibility adjacency (depth - 1).levels ids).mapError NoteError.store
  return { note with value := "query results for \"" ++ query ++ "\"" }

/-- The note of an atom that must exist, without children. -/
def leaf (store : Store) (id : AtomId) : Except NoteError Note :=
  match store.atom? id with
  | .error cause => .error (.store cause)
  | .ok none => .error (.noAtom id)
  | .ok (some atom) => .ok (.ofAtom atom)

/-- The listing of some atoms, all of which must exist, in the given order. -/
def selection (store : Store) (ids : List AtomId) : Except NoteError Note := do
  return { children := ← ids.mapM store.leaf }

/-- The view of the atom with the given identifier. -/
def viewAt (store : Store) (visibility : Visibility) (adjacency : Adjacency) (height : Nat)
    (id : AtomId) : Except NoteError Note :=
  match store.atom? id with
  | .error cause => .error (.store cause)
  | .ok none => .error .noRoot
  | .ok (some atom) => (store.view visibility adjacency height none atom).mapError .store

/-- Gives every atom that has a value its entry in the full-text index; the result is their
number. -/
def reindex : StoreM Nat := do
  let atoms ← look Store.listAtoms
  let valued := atoms.filterMap fun atom => atom.value.map fun value => (atom.id, value)
  modify fun store => valued.foldl (fun store (id, value) => store.indexText id value) store
  return valued.length

end Store

end Outline
