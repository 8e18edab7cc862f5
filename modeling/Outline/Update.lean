import Outline.Activity
import Outline.EditScript
import Outline.NoteError
import Outline.Search.Index
import Outline.View

/-!
# Updates

An update brings the stored atoms under a root in line with a tree of notes. The properties that a
note sets are stored. The list of every atom that is shown is edited, down to a depth, to hold the
children of its note, with as few changes as possible. A note without an identifier gets a new atom
and then carries its identifier; notes that were just inserted have only their properties stored.

An update that fails stops where it is: the edits made before stay, in the store and in the notes.
What happens is added to a log, if the update is given one.
-/

namespace Outline

/-- How much an update changed. -/
structure UpdateStats where
  /-- Cells put into lists. -/
  inserted : Nat := 0
  /-- Cells taken out of lists. -/
  deleted : Nat := 0
  /-- Atoms created. -/
  created : Nat := 0
  deriving DecidableEq

/-- How far an update has come. -/
structure Progress where
  store : Store
  /-- What happened, in order, if there is a log. -/
  log : Option (List Event) := some []
  stats : UpdateStats := {}

/-- A step of an update. -/
abbrev UpdateM := EStateM NoteError Progress

namespace Progress

/-- What the log holds; nothing if there is none. -/
def events (progress : Progress) : List Event :=
  progress.log.getD []

/-- Runs an operation on the store. -/
def onStore {α : Type} (action : StoreM α) : UpdateM α := fun progress =>
  match action progress.store with
  | .ok answer store => .ok answer { progress with store }
  | .error cause store => .error (.store cause) { progress with store }

/-- Looks something up in the store. -/
def look {α : Type} (question : Store → Except StoreError α) : UpdateM α :=
  onStore (Store.look question)

/-- Notes what happened, if there is a log. -/
def record (event : Event) : UpdateM Unit :=
  modify fun progress => { progress with log := progress.log.map (· ++ [event]) }

/-- Counts a change. -/
def count (change : UpdateStats → UpdateStats) : UpdateM Unit :=
  modify fun progress => { progress with stats := change progress.stats }

/-- Makes a text the entry of an atom in the full-text index. -/
def indexText (id : AtomId) (text : String) : UpdateM Unit :=
  modify fun progress => { progress with store := progress.store.indexText id text }

end Progress

namespace Update

open Progress (onStore look record count)

/-- Whether a note sets a text to something else than is stored. -/
def changesText (wanted stored : Option String) : Bool :=
  wanted.any fun text => stored != some text

/-- Whether a note sets a number to something else than is stored. -/
def changesNumber (wanted stored : Option Single) : Bool :=
  wanted.any fun x => !stored.any x.sameValue

/-- What is stored of a number after an update. -/
def mergeNumber (wanted stored : Option Single) : Option Single :=
  if changesNumber wanted stored then wanted else stored

/-- Whether a note changes properties of an atom other than its value. -/
def changesProperties (note : Note) (atom : Atom) : Bool :=
  changesText note.byname atom.byname || changesNumber note.weight atom.weight ||
    changesNumber note.sharability atom.sharability

/-- The atom with the properties that a note sets. -/
def merge (note : Note) (atom : Atom) : Atom :=
  { atom with
    value := note.value <|> atom.value
    byname := note.byname <|> atom.byname
    weight := mergeNumber note.weight atom.weight
    sharability := mergeNumber note.sharability atom.sharability }

/-- Stores the properties that a note sets; the result is the atom as it is stored then. -/
def storeProperties (id : AtomId) (note : Note) : UpdateM Atom := do
  let stored ← look (·.atom id)
  let atom := merge note stored
  let changesValue := changesText note.value stored.value
  let changesOthers := changesProperties note stored
  if changesValue || changesOthers then onStore (Store.updateAtom atom)
  if changesValue then
    record (.update id)
    match atom.value with
    | some value => Progress.indexText id value
    | none => pure ()
  if changesOthers then record (.setProperties id)
  return atom

/-- The atom with the given identifier, or a new one. -/
def findOrCreate (visibility : Visibility) (id : Option AtomId) : UpdateM Atom := do
  let existing ← match id with
    | some id => look (·.atom? id)
    | none => pure none
  match existing with
  | some atom => return atom
  | none =>
    let atom ← onStore (Store.createAtom id visibility.defaults)
    record (.create atom.id)
    count fun stats => { stats with created := stats.created + 1 }
    return atom

/-- The place of a child note while the list of its parent is edited. -/
structure Slot where
  id : Option AtomId
  isInserted : Bool := false
  deriving DecidableEq

/-- Carries out one edit of the list of `parent`; `slots` stand for the wanted children. -/
def applyEdit (visibility : Visibility) (parent : AtomId) (slots : List Slot) :
    Edit → UpdateM (List Slot)
  | .delete position _ => do
    let child ← onStore (Store.deleteAt parent position)
    record (.unlink parent child)
    count fun stats => { stats with deleted := stats.deleted + 1 }
    return slots
  | .insert position index =>
    match slots[index]? with
    | none => return slots
    | some slot => do
      let child ← findOrCreate visibility slot.id
      let _ ← onStore (Store.insertAt parent position child.id)
      record (.link parent child.id)
      count fun stats => { stats with inserted := stats.inserted + 1 }
      return slots.set index { id := slot.id <|> some child.id, isInserted := true }

/-- Carries out a script of edits up to the first that fails. -/
def applyScript (visibility : Visibility) (parent : AtomId) :
    List Edit → List Slot → Progress → Option NoteError × List Slot × Progress
  | [], slots, progress => (none, slots, progress)
  | edit :: edits, slots, progress =>
    match applyEdit visibility parent slots edit progress with
    | .ok slots progress => applyScript visibility parent edits slots progress
    | .error cause progress => (some cause, slots, progress)

/-- Edits the list of an atom to hold the given children. -/
def editList (visibility : Visibility) (parent : Atom) (children : List Note)
    (progress : Progress) : Option NoteError × List Slot × Progress :=
  let slots := children.map fun child => { id := child.id }
  match progress.store.sequence parent with
  | .error cause => (some (.store cause), slots, progress)
  | .ok atoms =>
    let script := Edit.script Note.samePosition (atoms.map .ofAtom) children
    applyScript visibility parent.id script slots progress

/-- The notes with the identifiers that their places got. -/
def fill (children : List Note) (slots : List Slot) : List Note :=
  children.zipWith (fun child slot => { child with id := slot.id }) slots

/-- Where an update ended: the notes as they are then, what has been done, and the failure if there
was one. -/
structure Outcome (α : Type) where
  notes : α
  progress : Progress
  failure : Option NoteError := none

mutual

/-- Brings an atom in line with a note, and the atoms below it down to the given depth. -/
def applyNote (visibility : Visibility) (id : AtomId) (depth : Nat) (progress : Progress) :
    Note → Outcome Note
  | { id := own, value, byname, weight, sharability, created, children } =>
    let note : Note := { id := own, value, byname, weight, sharability, created, children }
    match storeProperties id note progress with
    | .error cause progress => { notes := note, progress, failure := some cause }
    | .ok atom progress =>
      match depth with
      | 0 => { notes := note, progress }
      | depth + 1 =>
        if visibility.shows atom then
          match editList visibility atom children progress with
          | (some cause, slots, progress) =>
            let children := fill children slots
            { notes := { note with children }, progress, failure := some cause }
          | (none, slots, progress) =>
            let below := applyChildren visibility depth progress slots children
            { notes := { note with children := below.notes }
              progress := below.progress
              failure := below.failure }
        else if children.isEmpty then { notes := note, progress }
        else { notes := note, progress, failure := some (.invalidUpdate (.hidden atom.id)) }

/-- Brings the atoms in a list in line with their notes, in order, up to the first failure. -/
def applyChildren (visibility : Visibility) (depth : Nat) (progress : Progress)
    (slots : List Slot) : List Note → Outcome (List Note)
  | [] => { notes := [], progress }
  | child :: children =>
    match slots with
    | [] => { notes := child :: children, progress }
    | slot :: slots =>
      match slot.id with
      | none =>
        let notes := fill (child :: children) (slot :: slots)
        { notes, progress, failure := some (.invalidUpdate .unnamed) }
      | some id =>
        let levels := if slot.isInserted then 0 else depth
        let first := applyNote visibility id levels progress child
        let note := { first.notes with id := slot.id }
        match first.failure with
        | some cause =>
          let notes := note :: fill children slots
          { notes, progress := first.progress, failure := some cause }
        | none =>
          let rest := applyChildren visibility depth first.progress slots children
          { rest with notes := note :: rest.notes }

end

/-- The outcome of an update that fails before it changes anything. -/
def refused (log : Option (List Event)) (note : Note) (store : Store) (cause : NoteError) :
    Outcome Note where
  notes := note
  progress := { store, log }
  failure := some cause

/-- Updates an atom and everything below it down to the given depth. What happens is added to `log`,
if there is one. -/
def atAtomWith (log : Option (List Event)) (visibility : Visibility) (id : Option AtomId)
    (depth : Nat) (note : Note) (store : Store) : Outcome Note :=
  match id with
  | some id => applyNote visibility id depth { store, log } note
  | none => refused log note store (.invalidUpdate .noRoot)

/-- Updates the atom with the given identifier, which must exist, and everything below it. What
happens is added to `log`, if there is one. -/
def atRootWith (log : Option (List Event)) (visibility : Visibility) (id : AtomId) (depth : Nat)
    (note : Note) (store : Store) : Outcome Note :=
  match store.atom? id with
  | .error cause => refused log note store (.store cause)
  | .ok none => refused log note store (.invalidUpdate (.unknownRoot id))
  | .ok (some atom) => atAtomWith log visibility (some atom.id) depth note store

/-- Updates an atom, with a new log. -/
def atAtom (visibility : Visibility) (id : Option AtomId) (depth : Nat) (note : Note)
    (store : Store) : Outcome Note :=
  atAtomWith (some []) visibility id depth note store

/-- Updates the atom with the given identifier, which must exist, with a new log. -/
def atRoot (visibility : Visibility) (id : AtomId) (depth : Nat) (note : Note) (store : Store) :
    Outcome Note :=
  atRootWith (some []) visibility id depth note store

end Update

end Outline
