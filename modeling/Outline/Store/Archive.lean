import Outline.Json.Document
import Outline.Store.Basic

/-!
# Archives

The document in which a store is kept from one run to the next. A row is a list of its columns, and
an unset column is null. Whole numbers and texts stand for themselves; the other data are objects
with one member, which says how they are to be read.
-/

namespace Outline

namespace Datum

def toJson : Datum → Json
  | integer n => .ofInt n
  | single x => .record [("single", .ofInt x.bits.toNat)]
  | double x => .record [("double", .ofInt x.bits.toNat)]
  | text s => .text s
  | blob s => .record [("blob", .text s)]

def ofJson? (document : Json) : Option Datum :=
  match document with
  | .text s => some (text s)
  | .record [("single", bits)] =>
    bits.wholeNumber?.map fun n => single ⟨UInt32.ofNat n.toNat⟩
  | .record [("double", bits)] =>
    bits.wholeNumber?.map fun n => double ⟨UInt64.ofNat n.toNat⟩
  | .record [("blob", .text s)] => some (blob s)
  | document => document.wholeNumber?.map integer

/-- The document of a column that may be unset. -/
def optionToJson (x : Option Datum) : Json :=
  x.elim .null toJson

/-- The content of a column that may be unset. -/
def optionOfJson? (document : Json) : Option (Option Datum) :=
  match document with
  | .null => some none
  | document => (ofJson? document).map some

end Datum

namespace AtomRow

def toJson (row : AtomRow) : Json :=
  .list [row.id.toJson, Datum.optionToJson row.value, Datum.optionToJson row.byname,
    row.created.toJson, Datum.optionToJson row.priority, Datum.optionToJson row.sharability,
    Datum.optionToJson row.weight, Datum.optionToJson row.shortcut, Datum.optionToJson row.notes]

def ofJson? (document : Json) : Option AtomRow := do
  match document with
  | .list [id, value, byname, created, priority, sharability, weight, shortcut, notes] =>
    return {
      id := ← Datum.ofJson? id
      value := ← Datum.optionOfJson? value
      byname := ← Datum.optionOfJson? byname
      created := ← Datum.ofJson? created
      priority := ← Datum.optionOfJson? priority
      sharability := ← Datum.optionOfJson? sharability
      weight := ← Datum.optionOfJson? weight
      shortcut := ← Datum.optionOfJson? shortcut
      notes := ← Datum.optionOfJson? notes }
  | _ => none

end AtomRow

namespace CellRow

def toJson (row : CellRow) : Json :=
  .list [row.id.toJson, row.first.toJson, Datum.optionToJson row.rest]

def ofJson? (document : Json) : Option CellRow := do
  match document with
  | .list [id, first, rest] =>
    return {
      id := ← Datum.ofJson? id
      first := ← Datum.ofJson? first
      rest := ← Datum.optionOfJson? rest }
  | _ => none

end CellRow

namespace IndexRow

def toJson (row : IndexRow) : Json :=
  .list [.text row.atom, .text row.text]

def ofJson? : Json → Option IndexRow
  | .list [.text atom, .text text] => some { atom, text }
  | _ => none

end IndexRow

namespace Store

def toJson (store : Store) : Json :=
  .record [
    ("atoms", .list (store.atoms.map AtomRow.toJson)),
    ("cells", .list (store.cells.map CellRow.toJson)),
    ("index", store.index.elim .null fun rows => .list (rows.map IndexRow.toJson))]

/-- The store that is kept in an archive. References are checked when it is used again. -/
def ofJson? (document : Json) : Option Store := do
  let atoms ← (← (document.member "atoms").items?).mapM AtomRow.ofJson?
  let cells ← (← (document.member "cells").items?).mapM CellRow.ofJson?
  match document.member "index" with
  | .null => return { atoms, cells, index := none }
  | rows => return { atoms, cells, index := some (← (← rows.items?).mapM IndexRow.ofJson?) }

end Store

end Outline
