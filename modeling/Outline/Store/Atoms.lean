import Outline.Store.Cells

/-!
# Operations on atoms

Atoms are created with an identifier that is new, updated in all properties but their age and list,
and removed only when they own no list and stand in none.
-/

namespace Outline.Store

/-- Accepts an atom that may be stored. -/
def accept (atom : Atom) : Except StoreError Unit :=
  match atom.validate with
  | .ok () => .ok ()
  | .error fault => .error (.invalid fault)

/-- Stores a new atom. -/
def insertAtom (atom : Atom) (store : Store) : Except StoreError Store :=
  let row := AtomRow.ofAtom atom
  if store.atoms.any fun other => other.id == row.id then
    .error (.database (.notUnique (.atom .id)))
  else .ok { store with atoms := store.atoms ++ [row] }

/-- The identifier of an atom to be created: the one asked for if it is not in use, or a new one. -/
def chooseIdentifier : Option AtomId → StoreM AtomId
  | some id => do
    if (← look (·.atom? id)).isSome then throw (.duplicate id)
    return id
  | none => drawIdentifier

/-- Creates an atom without a value. -/
def createAtom (id : Option AtomId) (defaults : Defaults) : StoreM Atom := do
  let id ← chooseIdentifier id
  let created ← readClock
  let atom : Atom := { id, created, weight := defaults.weight, sharability := defaults.sharability }
  look fun _ => accept atom
  change (insertAtom atom)
  return atom

/-- Stores the properties of an atom. -/
def updateAtom (atom : Atom) : StoreM Unit := do
  look fun _ => accept atom
  change fun store =>
    if (store.atomRow? atom.id).isNone then .error (.noAtom atom.id)
    else .ok { store with
      atoms := store.atoms.map fun row =>
        if row.id == .text atom.id then row.withProperties atom else row }

/-- Removes an atom with its entries in the full-text index. -/
def removeAtom (id : AtomId) : StoreM Unit := do
  let atom ← look (·.atom id)
  if atom.notes.isSome then throw (.ownsNotes id)
  unless (← look (·.holders id)).isEmpty do throw (.listed id)
  change fun store =>
    match store.index with
    | none => .error (.database .noIndex)
    | some entries => .ok { store with
        index := some (entries.filter fun entry => entry.atom != id)
        atoms := store.atoms.filter fun row => row.id != .text id }

/-- All atoms by age. -/
def listAtoms (store : Store) : Except StoreError (List Atom) :=
  (store.atoms.mergeSort AtomRow.le).mapM AtomRow.toAtom

/-- The atoms that stand in no list, by age. -/
def listUnreferenced (store : Store) : Except StoreError (List Atom) :=
  let rows := store.atoms.filter fun row => !store.cells.any fun cell => cell.first == row.id
  (rows.mergeSort AtomRow.le).mapM AtomRow.toAtom

/-- Moves the list pointer of an atom, unless another atom has the new one already. -/
def moveNotes (row : AtomRow) (notes : Option Datum) (store : Store) :
    Except StoreError Store := do
  if notes.isSome ∧ store.atoms.any fun other => other.id != row.id && other.notes == notes then
    throw (.database (.notUnique (.atom .notes)))
  match store.movePointer row.notes notes with
  | .ok references =>
    let atoms := store.atoms.map fun other =>
      if other.id == row.id then { other with notes } else other
    return { store with atoms, references }
  | .error cause => throw (.database cause)

/-- Makes the list of an atom begin with another cell, or empties it. -/
def setNotes (id : AtomId) (head : Option CellId) : StoreM Unit :=
  change fun store =>
    match store.atomRow? id with
    | none => .error (.noAtom id)
    | some row => moveNotes row (head.map .text) store

end Outline.Store
