import Outline.Store.Atoms

/-!
# Overwriting a column

A single column can be overwritten with any datum, past all operations. The datum is converted to
what the column prefers, and the constraints of the tables are still checked, in this order: that
the column must be set, that its values are unique, and that references name rows. The result is
how many rows were changed.
-/

namespace Outline

namespace AtomRow

/-- The datum in a column. -/
def get (row : AtomRow) : AtomColumn → Option Datum
  | .id => some row.id
  | .value => row.value
  | .byname => row.byname
  | .created => some row.created
  | .priority => row.priority
  | .sharability => row.sharability
  | .weight => row.weight
  | .shortcut => row.shortcut
  | .notes => row.notes

/-- Puts a datum into a column; `none` if the column must be set and would not be. -/
def put? (row : AtomRow) (column : AtomColumn) (x : Option Datum) : Option AtomRow :=
  match column with
  | .id => x.map fun id => { row with id }
  | .value => some { row with value := x }
  | .byname => some { row with byname := x }
  | .created => x.map fun created => { row with created }
  | .priority => some { row with priority := x }
  | .sharability => some { row with sharability := x }
  | .weight => some { row with weight := x }
  | .shortcut => some { row with shortcut := x }
  | .notes => some { row with notes := x }

end AtomRow

namespace Store

/-- Gives a cell another identifier, unless another cell has it already. The pointers to the old
identifier lose their target, but not that of the cell itself; those to the new one gain it. -/
def renameCell (row : CellRow) (id : Datum) (store : Store) : Except StoreError Store := do
  let others := store.cells.filter fun other => other.id != row.id
  if others.any fun other => other.id == id then
    throw (.database (.notUnique (.cell .id)))
  let renamed : Store := { store with
    cells := store.cells.map fun other => if other.id == row.id then { other with id } else other }
  let pointing (cells : List CellRow) (id : Datum) :=
    (store.atoms.filter fun atom => atom.notes == some id).length +
      (cells.filter fun cell => cell.rest == some id).length
  let tally (unresolved : Nat) :=
    unresolved - store.danglingCount row.rest + pointing others row.id +
      renamed.danglingCount row.rest - pointing store.cells id
  match store.references.settle tally with
  | .ok references => return { renamed with references }
  | .error cause => throw (.database cause)

/-- Overwrites a column of an atom. -/
def overwriteAtom (id : AtomId) (column : AtomColumn) (x : Option Datum) (store : Store) :
    Except StoreError (Nat × Store) := do
  let x := x.map column.affinity.convert
  match store.atomRow? id with
  | none => return (0, store)
  | some row =>
    match row.put? column x with
    | none => throw (.database (.unset (.atom column)))
    | some changed =>
      let others := store.atoms.filter fun other => other.id != row.id
      if column = .notes then
        return (1, ← moveNotes row x store)
      else if column = .id then
        if others.any fun other => other.id == changed.id then
          throw (.database (.notUnique (.atom .id)))
        let holding (id : Datum) := (store.cells.filter fun cell => cell.first == id).length
        if store.references ≠ .off ∧ holding changed.id < holding row.id then
          throw (.database .unresolved)
      let atoms := store.atoms.map fun other => if other.id == row.id then changed else other
      return (1, { store with atoms })

/-- Overwrites a column of a cell. -/
def overwriteCell (id : CellId) (column : CellColumn) (x : Option Datum) (store : Store) :
    Except StoreError (Nat × Store) := do
  match store.cellRow? id with
  | none => return (0, store)
  | some row =>
    match column, x.map (Affinity.convert .text) with
    | .rest, x => return (1, ← moveRest row x store)
    | column, none => throw (.database (.unset (.cell column)))
    | .id, some x => return (1, ← renameCell row x store)
    | .first, some x =>
      if store.references ≠ .off ∧ !store.atoms.any fun atom => atom.id == x then
        throw (.database .unresolved)
      return (1, ← moveFirst row x store)

end Store

end Outline
