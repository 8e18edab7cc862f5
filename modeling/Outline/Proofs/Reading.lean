import Mathlib.Data.List.Nodup
import Outline.Proofs.Running

/-!
# Reading rows

What a row holds once it has been read.  `AtomRow.Reads` says column by column
which atom a row stores, so that a row with one column changed reads as the
atom with that property changed.
-/

namespace Outline

/-- A text or pointer that may be missing is stored in one way only. -/
theorem map_text_injective : Function.Injective (Option.map Datum.text) :=
  Option.map_injective fun _ _ => Datum.text.inj

namespace Column

variable {column : Column}

@[simp] theorem readText_eq_ok {x : Datum} {s : String} :
    column.readText x = .ok s ↔ x = .text s := by
  cases x <;> simp [readText]

@[simp] theorem readInteger_eq_ok {x : Datum} {n : Int} :
    column.readInteger x = .ok n ↔ x = .integer n := by
  cases x <;> simp [readInteger]

theorem readOptional_eq_ok {α : Type} {read : Datum → Except StoreError α} {x : Option Datum}
    {a : Option α} :
    readOptional read x = .ok a ↔
      (x = none ∧ a = none) ∨ ∃ d v, x = some d ∧ a = some v ∧ read d = .ok v := by
  cases x with
  | none => simp [readOptional, eq_comm]
  | some d => cases hd : read d <;> simp [readOptional, hd, Except.map, eq_comm]

@[simp] theorem readOptional_readText_eq_ok {x : Option Datum} {s : Option String} :
    readOptional column.readText x = .ok s ↔ x = s.map .text := by
  rw [readOptional_eq_ok]
  cases x <;> cases s <;> simp

end Column

namespace AtomRow

/-- What it means for a row to store an atom. -/
structure Reads (row : AtomRow) (atom : Atom) : Prop where
  id : row.id = .text atom.id
  value : row.value = atom.value.map .text
  byname : row.byname = atom.byname.map .text
  created : row.created = .integer atom.created
  priority :
    Column.readOptional (Column.readSingle (.atom .priority)) row.priority = .ok atom.priority
  sharability :
    Column.readOptional (Column.readSingle (.atom .sharability)) row.sharability =
      .ok atom.sharability
  weight : Column.readOptional (Column.readSingle (.atom .weight)) row.weight = .ok atom.weight
  shortcut : row.shortcut = atom.shortcut.map .text
  notes : row.notes = atom.notes.map .text
  valid : atom.validate = .ok ()

theorem toAtom_eq_ok {row : AtomRow} {atom : Atom} :
    row.toAtom = .ok atom ↔ row.Reads atom := by
  constructor
  · intro h
    simp only [toAtom, except_bind_eq_ok, Column.readText_eq_ok, Column.readInteger_eq_ok,
      Column.readOptional_readText_eq_ok] at h
    obtain ⟨id, hid, value, hvalue, byname, hbyname, created, hcreated, priority, hpriority,
      sharability, hsharability, weight, hweight, shortcut, hshortcut, notes, hnotes, hlast⟩ := h
    split at hlast
    next hvalid =>
      cases hlast
      exact ⟨hid, hvalue, hbyname, hcreated, hpriority, hsharability, hweight, hshortcut, hnotes,
        hvalid⟩
    next => cases hlast
  · intro h
    simp only [toAtom, except_bind_eq_ok, Column.readText_eq_ok, Column.readInteger_eq_ok,
      Column.readOptional_readText_eq_ok]
    refine ⟨_, h.id, _, h.value, _, h.byname, _, h.created, _, h.priority, _, h.sharability, _,
      h.weight, _, h.shortcut, _, h.notes, ?_⟩
    simp only [h.valid]
    rfl

/-- A row with another list pointer reads as the atom with that pointer. -/
theorem Reads.withNotes {row : AtomRow} {atom : Atom} (h : row.Reads atom)
    (head : Option CellId) :
    { row with notes := head.map .text }.Reads { atom with notes := head } where
  id := h.id
  value := h.value
  byname := h.byname
  created := h.created
  priority := h.priority
  sharability := h.sharability
  weight := h.weight
  shortcut := h.shortcut
  notes := rfl
  valid := h.valid

end AtomRow

namespace CellRow

@[simp] theorem toCell_ofCell (cell : Cell) : (ofCell cell).toCell = .ok cell := by
  obtain ⟨id, first, rest⟩ := cell
  cases rest <;> rfl

theorem toCell_eq_ok {row : CellRow} {cell : Cell} :
    row.toCell = .ok cell ↔ row = ofCell cell := by
  constructor
  · intro h
    simp only [toCell, except_bind_eq_ok, Column.readText_eq_ok,
      Column.readOptional_readText_eq_ok] at h
    obtain ⟨id, hid, first, hfirst, rest, hrest, hlast⟩ := h
    cases hlast
    cases row
    simp_all [ofCell]
  · rintro rfl
    exact toCell_ofCell cell

theorem ofCell_injective : Function.Injective ofCell := by
  intro a b h
  have hcell := toCell_ofCell a
  rw [h, toCell_ofCell] at hcell
  exact (Except.ok.inj hcell).symm

end CellRow

/-! ## Finding rows by their identifiers -/

theorem find?_key_eq_some {ρ : Type} {key : ρ → Datum} {rows : List ρ} {row : ρ}
    (hnodup : (rows.map key).Nodup) {d : Datum} :
    rows.find? (fun other => key other == d) = some row ↔ row ∈ rows ∧ key row = d := by
  constructor
  · intro h
    exact ⟨List.mem_of_find?_eq_some h, by simpa using List.find?_some h⟩
  · rintro ⟨hrow, rfl⟩
    cases hfind : rows.find? (fun other => key other == key row) with
    | none =>
        have hno := List.find?_eq_none.mp hfind row hrow
        simp at hno
    | some other =>
        have hkey : key other = key row := by simpa using List.find?_some hfind
        rw [List.inj_on_of_nodup_map hnodup (List.mem_of_find?_eq_some hfind) hrow hkey]

theorem find?_key_eq_none {ρ : Type} {key : ρ → Datum} {rows : List ρ} {d : Datum} :
    rows.find? (fun other => key other == d) = none ↔ ∀ row ∈ rows, key row ≠ d := by
  simp [List.find?_eq_none]

end Outline
