import Outline.Store.ChildList

/-!
# Adjacency

Three relations may be walked as the children of an atom: its own list, the atoms in whose lists it
stands, or both. The owners of an atom are found by going back from each of its cells to the first
cell of the chain and asking whose list begins there.
-/

namespace Outline

namespace Store

/-- Goes back to the first cell of a chain through the cells that have not been passed yet. -/
def retrace (store : Store) (child : AtomId) (unpassed : List CellRow) (cell : Cell) :
    Except StoreError Cell := do
  match ← store.predecessor? cell.id with
  | none => return cell
  | some previous =>
    match _ : unpassed.find? fun row => row.id == .text previous.id with
    | none => throw (.corrupt child previous.id)
    | some row => retrace store child (unpassed.erase row) previous
termination_by unpassed.length
decreasing_by exact length_erase_lt_of_find? ‹_›

/-- The atom in whose list a cell of `child` stands. -/
def owner (store : Store) (child : AtomId) (cell : Cell) : Except StoreError Atom := do
  let others := store.cells.filter fun row => row.id != .text cell.id
  let head ← store.retrace child others cell
  match ← store.headOwner? head.id with
  | some owner => return owner
  | none => throw (.corrupt child head.id)

/-- The order of atoms by age and then by identifier. -/
def isOlder (a b : Atom) : Bool :=
  a.created < b.created || a.created == b.created && a.id ≤ b.id

/-- The atoms in whose lists an atom stands, each once, by age. -/
def owners (store : Store) (child : AtomId) : Except StoreError (List Atom) := do
  let owners ← (← store.holders child).mapM (store.owner child)
  return owners.eraseDups.mergeSort isOlder

end Store

/-- Which relation is walked as the children of an atom. -/
inductive Adjacency where
  /-- The atom's own list, in its order. -/
  | forward
  /-- The atoms in whose lists it stands. -/
  | backward
  /-- The backward neighbours and then the forward ones, without the atom the walk came from. -/
  | undirected
  deriving DecidableEq

namespace Adjacency

def all : List Adjacency :=
  [forward, backward, undirected]

def name : Adjacency → String
  | forward => "directed-forward"
  | backward => "directed-backward"
  | undirected => "undirected"

def ofName? (name : String) : Option Adjacency :=
  all.find? fun adjacency => adjacency.name == name

/-- The neighbours of an atom; `parent` is the atom the walk came from. -/
def linked (adjacency : Adjacency) (store : Store) (atom : Atom) (parent : Option Atom) :
    Except StoreError (List Atom) :=
  match adjacency with
  | forward => store.sequence atom
  | backward => store.owners atom.id
  | undirected => do
    let both := (← store.owners atom.id) ++ (← store.sequence atom)
    return both.filter fun neighbour => parent.all fun parent => neighbour.id != parent.id

end Adjacency

end Outline
