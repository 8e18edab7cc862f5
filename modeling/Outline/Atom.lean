import Outline.Number.Single
import Outline.Text.Blank

/-!
# Atoms and list cells

An atom is one entry of the graph: a text with a few properties. The notes under an atom form a
list of cells, each of which holds an atom and names the next cell. `Atom.validate` says which
atoms may be stored.
-/

namespace Outline

/-- The identifier of an atom. -/
abbrev AtomId := String

/-- The identifier of a list cell. -/
abbrev CellId := String

/-- An entry of the graph. -/
structure Atom where
  id : AtomId
  value : Option String := none
  /-- Another name for the entry, such as a link. -/
  byname : Option String := none
  /-- When the atom was created, in milliseconds since the epoch. -/
  created : Int := 0
  priority : Option Single := none
  sharability : Option Single := none
  weight : Option Single := none
  shortcut : Option String := none
  /-- The first cell of the atom's own list. -/
  notes : Option CellId := none
  deriving DecidableEq

/-- The properties that a new atom starts with. -/
structure Defaults where
  weight : Option Single := none
  sharability : Option Single := none
  deriving DecidableEq

/-- One link of a list: the atom it holds and the cell after it. -/
structure Cell where
  id : CellId
  first : AtomId
  rest : Option CellId := none
  deriving DecidableEq

/-- The properties of an atom that are numbers. -/
inductive NumberProperty where
  | priority
  | sharability
  | weight
  deriving DecidableEq

def NumberProperty.name : NumberProperty → String
  | .priority => "priority"
  | .sharability => "sharability"
  | .weight => "weight"

/-- Why an atom may not be stored. -/
inductive AtomFault where
  | blankId
  | negativeCreated (created : Int)
  | notFinite (property : NumberProperty)
  deriving DecidableEq

def AtomFault.message : AtomFault → String
  | .blankId => "atom id must not be blank"
  | .negativeCreated created => "atom created timestamp must be >= 0, got " ++ toString created
  | .notFinite property => "atom " ++ property.name ++ " must be a finite number"

/-- Whether a property is unset or finite. -/
def isUnsetOrFinite (x : Option Single) : Bool :=
  x.all Single.isFinite

/-- Accepts an atom with an identifier that is not blank, a creation time that is not negative, and
finite properties; the first fault in this order is reported. -/
def Atom.validate (atom : Atom) : Except AtomFault Unit :=
  if Text.isBlankText atom.id then .error .blankId
  else if atom.created < 0 then .error (.negativeCreated atom.created)
  else if !isUnsetOrFinite atom.priority then .error (.notFinite .priority)
  else if !isUnsetOrFinite atom.sharability then .error (.notFinite .sharability)
  else if !isUnsetOrFinite atom.weight then .error (.notFinite .weight)
  else .ok ()

end Outline
