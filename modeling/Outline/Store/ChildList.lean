import Outline.Store.Atoms

/-!
# Child lists

The list of an atom is the chain of cells that its `notes` pointer begins. `chain` follows it and
fails at the first cell that is missing or comes a second time; `insertAt` and `deleteAt` change one
position and leave every other cell as it is.
-/

namespace Outline.Store

/-- Follows a chain through the cells that have not been passed yet. -/
def follow (owner : AtomId) (unpassed : List CellRow) (next : Option CellId) :
    Except StoreError (List Cell) :=
  match next with
  | none => .ok []
  | some id =>
    match _ : unpassed.find? fun row => row.id == .text id with
    | none => .error (.corrupt owner id)
    | some row => do
      let cell ← row.toCell
      return cell :: (← follow owner (unpassed.erase row) cell.rest)
termination_by unpassed.length
decreasing_by exact length_erase_lt_of_find? ‹_›

/-- The cells of an atom's list. -/
def chain (store : Store) (owner : Atom) : Except StoreError (List Cell) :=
  follow owner.id store.cells owner.notes

/-- The atom in a cell. -/
def content (store : Store) (cell : Cell) : Except StoreError Atom := do
  match ← store.atom? cell.first with
  | some atom => return atom
  | none => throw (.emptyCell cell.id cell.first)

/-- The atoms of an atom's list. -/
def sequence (store : Store) (owner : Atom) : Except StoreError (List Atom) := do
  (← store.chain owner).mapM store.content

/-- Lets the list of an atom go on with `next` after the given cell, or begin with it. -/
def link (owner : AtomId) (previous : Option Cell) (next : Option CellId) : StoreM Unit :=
  match previous with
  | none => setNotes owner next
  | some cell => setRest cell.id next

/-- Inserts an atom into a list. The new cell is linked into its place before it takes over the
cells after it, so that no two cells ever have the same successor. -/
def insertAt (owner : AtomId) (position : Nat) (child : AtomId) : StoreM Cell := do
  let atom ← look (·.atom owner)
  let cells ← look (·.chain atom)
  if cells.length < position then throw (.outOfRange position cells.length)
  let cell ← createCell child
  let previous := (cells.take position).getLast?
  link owner previous (some cell.id)
  let rest := previous.elim atom.notes Cell.rest
  if rest.isSome then setRest cell.id rest
  return { cell with rest }

/-- Removes a position from a list; the result is the atom that stood there. -/
def deleteAt (owner : AtomId) (position : Nat) : StoreM AtomId := do
  let atom ← look (·.atom owner)
  let cells ← look (·.chain atom)
  match cells[position]? with
  | none => throw (.outOfRange position cells.length)
  | some target =>
    if target.rest.isSome then setRest target.id none
    link owner (cells.take position).getLast? target.rest
    removeCell target.id
    return target.first

end Outline.Store
