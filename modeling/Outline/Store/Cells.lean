import Outline.Store.Basic

/-!
# Operations on list cells

Cells are created without a successor, linked and relinked by `setRest`, and removed once nothing
refers to them. The reverse look-ups find the one cell before a cell, the one atom whose list begins
with it, and all cells that hold an atom.
-/

namespace Outline.Store

/-- Taking a row out of the rows in which it was found leaves fewer. -/
theorem length_erase_lt_of_find? {rows : List CellRow} {isWanted : CellRow → Bool} {row : CellRow}
    (found : rows.find? isWanted = some row) : (rows.erase row).length < rows.length := by
  have isRow : row ∈ rows := List.mem_of_find?_eq_some found
  have := List.length_pos_of_mem isRow
  rw [List.length_erase_of_mem isRow]
  omega

/-- The cell whose successor is the given one. -/
def predecessor? (store : Store) (id : CellId) : Except StoreError (Option Cell) :=
  match store.cells.find? fun row => row.rest == some (.text id) with
  | none => .ok none
  | some row => row.toCell.map some

/-- The atom whose list begins with the given cell. -/
def headOwner? (store : Store) (id : CellId) : Except StoreError (Option Atom) :=
  match store.atoms.find? fun row => row.notes == some (.text id) with
  | none => .ok none
  | some row => row.toAtom.map some

/-- The cells that hold an atom, by identifier. -/
def holders (store : Store) (id : AtomId) : Except StoreError (List Cell) :=
  let rows := store.cells.filter fun row => row.first == .text id
  (rows.mergeSort fun a b => a.id.le b.id).mapM CellRow.toCell

/-- Stores a new cell. Pointers that named it already are mended by it. -/
def insertCell (cell : Cell) (store : Store) : Except StoreError Store := do
  let row := CellRow.ofCell cell
  if store.cells.any fun other => other.id == row.id then
    throw (.database (.notUnique (.cell .id)))
  let mended :=
    (store.atoms.filter fun other => other.notes == some row.id).length +
      (store.cells.filter fun other => other.rest == some row.id).length
  match store.references.settle (· - mended) with
  | .ok references => return { store with cells := store.cells ++ [row], references }
  | .error cause => throw (.database cause)

/-- Creates a cell that holds an atom and has no successor. -/
def createCell (first : AtomId) : StoreM Cell := do
  if (← look (·.atom? first)).isNone then throw (.noAtom first)
  let id ← drawIdentifier
  let cell : Cell := { id, first }
  change (insertCell cell)
  return cell

/-- Puts another atom into a cell. The successor of the cell counts as if it were set anew. -/
def moveFirst (row : CellRow) (first : Datum) (store : Store) : Except StoreError Store :=
  match store.movePointer row.rest row.rest with
  | .ok references =>
    let cells := store.cells.map fun other =>
      if other.id == row.id then { other with first } else other
    .ok { store with cells, references }
  | .error cause => .error (.database cause)

/-- Puts another atom, which must exist, into a cell. -/
def setFirst (id : CellId) (first : AtomId) : StoreM Unit := do
  if (← look (·.atom? first)).isNone then throw (.noAtom first)
  change fun store =>
    match store.cellRow? id with
    | none => .error (.noCell id)
    | some row => moveFirst row (.text first) store

/-- Moves the successor of a cell, unless another cell has the new successor already. -/
def moveRest (row : CellRow) (rest : Option Datum) (store : Store) : Except StoreError Store := do
  if rest.isSome ∧ store.cells.any fun other => other.id != row.id && other.rest == rest then
    throw (.database (.notUnique (.cell .rest)))
  match store.movePointer row.rest rest with
  | .ok references =>
    let cells := store.cells.map fun other =>
      if other.id == row.id then { other with rest } else other
    return { store with cells, references }
  | .error cause => throw (.database cause)

/-- Gives a cell another successor, or none. -/
def setRest (id : CellId) (rest : Option CellId) : StoreM Unit :=
  change fun store =>
    match store.cellRow? id with
    | none => .error (.noCell id)
    | some row => moveRest row (rest.map .text) store

/-- Removes a cell that has no successor, no predecessor and no owner. -/
def removeCell (id : CellId) : StoreM Unit := do
  match ← look (·.cell? id) with
  | none => throw (.noCell id)
  | some cell =>
    if cell.rest.isSome then throw (.linked id)
    if (← look (·.predecessor? id)).isSome then throw (.linked id)
    if (← look (·.headOwner? id)).isSome then throw (.linked id)
    change fun store =>
      .ok { store with cells := store.cells.filter fun row => row.id != .text id }

end Outline.Store
