import Outline.Atom
import Outline.Store.Datum

/-!
# Failures of the store

`DatabaseError` holds what the rows themselves rule out: broken constraints, columns of the wrong
kind, missing tables. `StoreError` adds what the operations on atoms, cells and lists refuse. Both
give causes; the wording is in one `message` function each.
-/

namespace Outline

/-- A column of the table of atoms. -/
inductive AtomColumn where
  | id
  | value
  | byname
  | created
  | priority
  | sharability
  | weight
  | shortcut
  | notes
  deriving DecidableEq

/-- A column of the table of list cells. -/
inductive CellColumn where
  | id
  | first
  | rest
  deriving DecidableEq

/-- A column of the store. -/
inductive Column where
  | atom (column : AtomColumn)
  | cell (column : CellColumn)
  deriving DecidableEq

namespace AtomColumn

/-- The columns in the order in which a row is read. -/
def inOrder : List AtomColumn :=
  [id, value, byname, created, priority, sharability, weight, shortcut, notes]

def name : AtomColumn → String
  | id => "id"
  | value => "value"
  | byname => "alias"
  | created => "created"
  | priority => "priority"
  | sharability => "sharability"
  | weight => "weight"
  | shortcut => "shortcut"
  | notes => "notes"

/-- The kind of value that a column prefers. -/
def affinity : AtomColumn → Affinity
  | id | value | byname | shortcut | notes => .text
  | created => .integer
  | priority | sharability | weight => .real

end AtomColumn

namespace CellColumn

/-- The columns in the order in which a row is read. -/
def inOrder : List CellColumn :=
  [id, first, rest]

def name : CellColumn → String
  | id => "id"
  | first => "first"
  | rest => "rest"

end CellColumn

namespace Column

def name : Column → String
  | atom column => column.name
  | cell column => column.name

/-- The place of a column in the order in which a row is read. -/
def index : Column → Nat
  | atom column => AtomColumn.inOrder.idxOf column
  | cell column => CellColumn.inOrder.idxOf column

/-- The name of a column after that of its table. -/
def fullName : Column → String
  | atom column => "atoms." ++ column.name
  | cell column => "atom_list_cells." ++ column.name

end Column

/-- The end of a transaction that was asked for. -/
inductive TransactionEnd where
  | commit
  | rollback
  deriving DecidableEq

/-- What the rows and tables of a database rule out. -/
inductive DatabaseError where
  /-- Two rows would hold the same value in a column that allows none twice. -/
  | notUnique (column : Column)
  /-- A column that must be set would be unset. -/
  | unset (column : Column)
  /-- A value that names a row would name none. -/
  | unresolved
  /-- A column holds a value of another kind than is read. -/
  | wrongKind (column : Column) (found : Datum)
  /-- The table of the full-text index does not exist. -/
  | noIndex
  /-- A transaction is open already. -/
  | nested
  /-- No transaction is open. -/
  | noTransaction (wanted : TransactionEnd)
  deriving DecidableEq

def DatabaseError.message : DatabaseError → String
  | .notUnique column => "UNIQUE constraint failed: " ++ column.fullName
  | .unset column => "NOT NULL constraint failed: " ++ column.fullName
  | .unresolved => "FOREIGN KEY constraint failed"
  | .wrongKind column found =>
    "Invalid column type " ++ found.kindName ++ " at index: " ++ toString column.index ++
      ", name: " ++ column.name
  | .noIndex => "no such table: atom_search"
  | .nested => "cannot start a transaction within a transaction"
  | .noTransaction .commit => "cannot commit - no transaction is active"
  | .noTransaction .rollback => "cannot rollback - no transaction is active"

/-- Why an operation on atoms, cells or lists fails. -/
inductive StoreError where
  | database (cause : DatabaseError)
  /-- The atom to be stored is at fault. -/
  | invalid (fault : AtomFault)
  | duplicate (id : AtomId)
  /-- The atom to be removed still owns a list. -/
  | ownsNotes (id : AtomId)
  /-- The atom to be removed still stands in a list. -/
  | listed (id : AtomId)
  | noAtom (id : AtomId)
  | noCell (id : CellId)
  /-- The cell to be removed is still part of a chain. -/
  | linked (id : CellId)
  /-- A chain comes back to a cell or leaves the cells that exist. -/
  | corrupt (owner : AtomId) (cell : CellId)
  | outOfRange (position length : Nat)
  /-- A stored atom is at fault. -/
  | damaged (id : AtomId) (fault : AtomFault)
  /-- A cell holds an atom that does not exist. -/
  | emptyCell (cell : CellId) (atom : AtomId)
  deriving DecidableEq

def StoreError.message : StoreError → String
  | .database cause => cause.message
  | .invalid fault => fault.message
  | .duplicate id => "atom already exists: " ++ id
  | .ownsNotes id => "atom still owns notes: " ++ id
  | .listed id => "atom is still listed as a note: " ++ id
  | .noAtom id => "atom not found: " ++ id
  | .noCell id => "list cell not found: " ++ id
  | .linked id => "list cell is still linked: " ++ id
  | .corrupt owner cell => "corrupt note list of atom " ++ owner ++ " at cell " ++ cell
  | .outOfRange position length =>
    "list position " ++ toString position ++ " out of range for length " ++ toString length
  | .damaged id fault =>
    "invalid graph data: atom `" ++ id ++ "` failed validation: " ++ fault.message
  | .emptyCell cell atom =>
    "invalid graph data: cell `" ++ cell ++ "` holds missing atom `" ++ atom ++ "`"

end Outline
