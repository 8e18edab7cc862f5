import Outline.Store.Error

/-!
# Rows

Atoms and cells as they are stored. A row holds data of any kind; reading it fails at the first
column that holds another kind than it should, and for an atom also if the atom is at fault.
-/

namespace Outline

/-- A stored atom. -/
structure AtomRow where
  id : Datum
  value : Option Datum := none
  byname : Option Datum := none
  created : Datum
  priority : Option Datum := none
  sharability : Option Datum := none
  weight : Option Datum := none
  shortcut : Option Datum := none
  notes : Option Datum := none
  deriving DecidableEq

/-- A stored list cell. -/
structure CellRow where
  id : Datum
  first : Datum
  rest : Option Datum := none
  deriving DecidableEq

namespace Column

def readText (column : Column) : Datum → Except StoreError String
  | .text s => .ok s
  | other => .error (.database (.wrongKind column other))

/-- Reads a whole number from a column. -/
def readInteger (column : Column) : Datum → Except StoreError Int
  | .integer n => .ok n
  | other => .error (.database (.wrongKind column other))

/-- Reads a single from a column; a number that is not exactly one is rounded to the nearest. -/
def readSingle (column : Column) : Datum → Except StoreError Single
  | .single x => .ok x
  | .double x => .ok x.toSingle
  | other => .error (.database (.wrongKind column other))

/-- Reads a column that may be unset. -/
def readOptional {α : Type} (read : Datum → Except StoreError α) :
    Option Datum → Except StoreError (Option α)
  | none => .ok none
  | some x => (read x).map some

end Column

namespace AtomRow

/-- The number of a property as it is stored. -/
def numberDatum (x : Single) : Datum :=
  .single x.stored

def ofAtom (atom : Atom) : AtomRow where
  id := .text atom.id
  value := atom.value.map .text
  byname := atom.byname.map .text
  created := .integer atom.created
  priority := atom.priority.map numberDatum
  sharability := atom.sharability.map numberDatum
  weight := atom.weight.map numberDatum
  shortcut := atom.shortcut.map .text
  notes := atom.notes.map .text

/-- The row with the properties of an atom; its identity, age and list stay as they are. -/
def withProperties (row : AtomRow) (atom : Atom) : AtomRow :=
  { ofAtom atom with id := row.id, created := row.created, notes := row.notes }

/-- The atom that a row stores. -/
def toAtom (row : AtomRow) : Except StoreError Atom := do
  let id ← Column.readText (.atom .id) row.id
  let value ← Column.readOptional (Column.readText (.atom .value)) row.value
  let byname ← Column.readOptional (Column.readText (.atom .byname)) row.byname
  let created ← Column.readInteger (.atom .created) row.created
  let priority ← Column.readOptional (Column.readSingle (.atom .priority)) row.priority
  let sharability ← Column.readOptional (Column.readSingle (.atom .sharability)) row.sharability
  let weight ← Column.readOptional (Column.readSingle (.atom .weight)) row.weight
  let shortcut ← Column.readOptional (Column.readText (.atom .shortcut)) row.shortcut
  let notes ← Column.readOptional (Column.readText (.atom .notes)) row.notes
  let atom : Atom :=
    { id, value, byname, created, priority, sharability, weight, shortcut, notes }
  match atom.validate with
  | .ok () => return atom
  | .error fault => throw (.damaged id fault)

/-- The order in which atoms are listed: by age, then by identifier. -/
def le (a b : AtomRow) : Bool :=
  if a.created.le b.created && b.created.le a.created then a.id.le b.id
  else a.created.le b.created

end AtomRow

namespace CellRow

/-- The row that stores a cell. -/
def ofCell (cell : Cell) : CellRow where
  id := .text cell.id
  first := .text cell.first
  rest := cell.rest.map .text

/-- The cell that a row stores. -/
def toCell (row : CellRow) : Except StoreError Cell := do
  let id ← Column.readText (.cell .id) row.id
  let first ← Column.readText (.cell .first) row.first
  let rest ← Column.readOptional (Column.readText (.cell .rest)) row.rest
  return { id, first, rest }

end CellRow

end Outline
