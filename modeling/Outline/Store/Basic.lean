import Outline.Store.Row

/-!
# The store

The store is a value: the rows of atoms and cells, the rows of the full-text index if there is one,
how references between rows are checked, and the supply of identifiers and times. An operation is a
function on it that may fail. A statement that fails changes nothing, but an operation made of
several statements keeps those that came before its failure.
-/

namespace Outline

namespace Supply

/-- A number in hexadecimal digits, sixteen at least. -/
def hex16 (n : Nat) : List Char :=
  let digits := Nat.toDigits 16 n
  List.replicate (16 - digits.length) '0' ++ digits

/-- The `k`-th identifier, where nothing else is asked for. The multiple of a large odd number in
front spreads the identifiers, so that they do not sort by age; the number itself after it keeps
them distinct. -/
def identifier (k : Nat) : String :=
  String.ofList (hex16 (k * 0x9e3779b97f4a7c15 % Number.unsignedLimit) ++ hex16 k)

end Supply

/-- Where new identifiers and times come from. -/
structure Supply where
  /-- The identifiers, by their place in the order in which they are drawn. -/
  naming : Nat → String := Supply.identifier
  /-- How many identifiers have been drawn. -/
  drawn : Nat := 0
  /-- What the clock shows next, in milliseconds since the epoch. -/
  now : Int := 1000
  /-- By how much the clock moves when it is read. -/
  step : Int := 1

namespace Supply

/-- The identifier that is drawn next. -/
def nextIdentifier (supply : Supply) : String :=
  supply.naming (supply.drawn + 1)

/-- The supply after one identifier was drawn. -/
def afterDraw (supply : Supply) : Supply :=
  { supply with drawn := supply.drawn + 1 }

/-- The time that the clock gives; times before the epoch count as the epoch. -/
def time (supply : Supply) : Int :=
  max supply.now 0

/-- The supply after the clock was read. -/
def afterReading (supply : Supply) : Supply :=
  { supply with now := supply.now + supply.step }

end Supply

/-- One entry of the full-text index. -/
structure IndexRow where
  atom : AtomId
  text : String
  deriving DecidableEq

/-- How references between rows are checked. Inside a transaction a list pointer may name a cell
that does not exist yet; the number of such pointers must be back at zero when it ends. -/
inductive ReferenceCheck where
  | off
  | immediate
  | deferred (unresolved : Nat)
  deriving DecidableEq

namespace ReferenceCheck

/-- Settles a statement: `tally` takes the number of pointers without a target before it to the
number after it. -/
def settle (check : ReferenceCheck) (tally : Nat → Nat) : Except DatabaseError ReferenceCheck :=
  match check with
  | off => .ok off
  | immediate => if tally 0 = 0 then .ok immediate else .error .unresolved
  | deferred unresolved => .ok (deferred (tally unresolved))

end ReferenceCheck

/-- All that is stored. -/
structure Store where
  atoms : List AtomRow := []
  cells : List CellRow := []
  /-- The entries of the full-text index, or `none` if its table was dropped. -/
  index : Option (List IndexRow) := some []
  references : ReferenceCheck := .immediate
  supply : Supply := {}

/-- An operation on the store. A failure keeps the store as it was when the failure arose. -/
abbrev StoreM := EStateM StoreError Store

namespace Store

/-- The operation that looks something up. -/
def look {α : Type} (question : Store → Except StoreError α) : StoreM α := fun store =>
  match question store with
  | .ok answer => .ok answer store
  | .error cause => .error cause store

/-- The operation that runs one statement. -/
def change (statement : Store → Except StoreError Store) : StoreM Unit := fun store =>
  match statement store with
  | .ok changed => .ok () changed
  | .error cause => .error cause store

/-- Draws a new identifier. -/
def drawIdentifier : StoreM String := fun store =>
  .ok store.supply.nextIdentifier { store with supply := store.supply.afterDraw }

/-- Reads the clock. -/
def readClock : StoreM Int := fun store =>
  .ok store.supply.time { store with supply := store.supply.afterReading }

/-- The row of the atom with the given identifier. -/
def atomRow? (store : Store) (id : AtomId) : Option AtomRow :=
  store.atoms.find? fun row => row.id == .text id

/-- The row of the cell with the given identifier. -/
def cellRow? (store : Store) (id : CellId) : Option CellRow :=
  store.cells.find? fun row => row.id == .text id

/-- The atom with the given identifier, if there is one. -/
def atom? (store : Store) (id : AtomId) : Except StoreError (Option Atom) :=
  match store.atomRow? id with
  | none => .ok none
  | some row => row.toAtom.map some

/-- The cell with the given identifier, if there is one. -/
def cell? (store : Store) (id : CellId) : Except StoreError (Option Cell) :=
  match store.cellRow? id with
  | none => .ok none
  | some row => row.toCell.map some

/-- The atom with the given identifier. -/
def atom (store : Store) (id : AtomId) : Except StoreError Atom := do
  match ← store.atom? id with
  | some atom => return atom
  | none => throw (.noAtom id)

/-- Whether a pointer to a cell has no target. -/
def isDangling (store : Store) (pointer : Option Datum) : Bool :=
  pointer.any fun target => !store.cells.any fun row => row.id == target

/-- One if a pointer to a cell has no target, and zero if it has one. -/
def danglingCount (store : Store) (pointer : Option Datum) : Nat :=
  if store.isDangling pointer then 1 else 0

/-- Checks a pointer that a statement moves from one cell to another. -/
def movePointer (store : Store) (old new : Option Datum) : Except DatabaseError ReferenceCheck :=
  store.references.settle fun unresolved =>
    unresolved - store.danglingCount old + store.danglingCount new

end Store

end Outline
