import Outline.Proofs.Places
import Outline.Proofs.Reading
import Outline.Store.ChildList

/-!
# Well-formed stores

A store is well formed if its rows can be read, its identifiers tell rows apart,
every pointer finds its target, and the cells are the disjoint union of the
lists of the atoms, each of which ends.
-/

namespace Outline.Store

/-- There is an atom with the given identifier. -/
def HasAtom (store : Store) (id : AtomId) : Prop :=
  ∃ row ∈ store.atoms, row.id = .text id

/-- There is a cell with the given identifier. -/
def HasCell (store : Store) (id : CellId) : Prop :=
  ∃ row ∈ store.cells, row.id = .text id

instance (store : Store) (id : AtomId) : Decidable (store.HasAtom id) :=
  inferInstanceAs (Decidable (∃ row ∈ store.atoms, row.id = .text id))

instance (store : Store) (id : CellId) : Decidable (store.HasCell id) :=
  inferInstanceAs (Decidable (∃ row ∈ store.cells, row.id = .text id))

/-- Some row stores the atom. -/
def StoresAtom (store : Store) (atom : Atom) : Prop :=
  ∃ row ∈ store.atoms, row.toAtom = .ok atom

/-- Some row stores the cell. -/
def StoresCell (store : Store) (cell : Cell) : Prop :=
  ∃ row ∈ store.cells, row.toCell = .ok cell

/-- Some cell with the identifier of a place holds the atom of that place. -/
def HasPlace (store : Store) (place : Place) : Prop :=
  ∃ cell, store.StoresCell cell ∧ cell.place = place

/-- The cells that are passed on the way from a pointer to the end of its
chain. -/
inductive Path (store : Store) : Option CellId → List Cell → Prop
  | nil : Path store none []
  | cons {cell : Cell} {cells : List Cell} :
      store.StoresCell cell → Path store cell.rest cells →
      Path store (some cell.id) (cell :: cells)

/-- The rows can be read, and the cells are the lists of the atoms. -/
structure WellFormed (store : Store) : Prop where
  atomsReadable : ∀ row ∈ store.atoms, ∃ atom, row.toAtom = .ok atom
  cellsReadable : ∀ row ∈ store.cells, ∃ cell, row.toCell = .ok cell
  atomIdsNodup : (store.atoms.map AtomRow.id).Nodup
  cellIdsNodup : (store.cells.map CellRow.id).Nodup
  notesResolve : ∀ atom, store.StoresAtom atom → ∀ id, atom.notes = some id → store.HasCell id
  restsResolve : ∀ cell, store.StoresCell cell → ∀ id, cell.rest = some id → store.HasCell id
  firstsResolve : ∀ cell, store.StoresCell cell → store.HasAtom cell.first
  /-- Every list ends, and meets no cell twice before. -/
  listsEnd : ∀ atom, store.StoresAtom atom →
    ∃ cells, store.Path atom.notes cells ∧ (cells.map Cell.id).Nodup
  /-- Lists of different atoms share no cell. -/
  listsDisjoint : ∀ a b cells cells' cell, store.StoresAtom a → store.StoresAtom b →
    store.Path a.notes cells → store.Path b.notes cells' → cell ∈ cells → cell ∈ cells' →
    a.id = b.id
  /-- Every cell stands in the list of an atom. -/
  cellsOwned : ∀ cell, store.StoresCell cell →
    ∃ atom cells, store.StoresAtom atom ∧ store.Path atom.notes cells ∧ cell ∈ cells

/-- The places of an atom's list; none if there is no such atom or its list
cannot be walked. -/
def places (store : Store) (id : AtomId) : List Place :=
  match store.atom id with
  | .ok atom =>
    match store.chain atom with
    | .ok cells => cells.map Cell.place
    | .error _ => []
  | .error _ => []

variable {store : Store}

theorem storesCell_iff {cell : Cell} :
    store.StoresCell cell ↔ CellRow.ofCell cell ∈ store.cells := by
  simp [StoresCell, CellRow.toCell_eq_ok]

theorem StoresAtom.hasAtom {atom : Atom} (h : store.StoresAtom atom) : store.HasAtom atom.id := by
  obtain ⟨row, hrow, hread⟩ := h
  exact ⟨row, hrow, (AtomRow.toAtom_eq_ok.mp hread).id⟩

/-- A path is the list of its own places. -/
theorem Path.eq_linkedTo {next : Option CellId} {cells : List Cell} (h : store.Path next cells) :
    start none (cells.map Cell.place) = next ∧ linkedTo none (cells.map Cell.place) = cells := by
  induction h with
  | nil => exact ⟨rfl, rfl⟩
  | cons _ _ ih =>
      obtain ⟨hstart, hcells⟩ := ih
      refine ⟨rfl, ?_⟩
      rw [List.map_cons, linkedTo_cons, hcells]
      simp only [Cell.place]
      rw [hstart]

theorem Path.storesCell {next : Option CellId} {cells : List Cell} (h : store.Path next cells) :
    ∀ cell ∈ cells, store.StoresCell cell := by
  induction h with
  | nil => simp
  | cons hcell _ ih =>
      intro other hother
      rcases List.mem_cons.mp hother with rfl | hother
      · exact hcell
      · exact ih other hother

/-- There is only one way to the end of a chain. -/
theorem Path.unique (hids : (store.cells.map CellRow.id).Nodup) {next : Option CellId}
    {cells cells' : List Cell} (h : store.Path next cells) (h' : store.Path next cells') :
    cells = cells' := by
  induction h generalizing cells' with
  | nil => cases h' with | nil => rfl
  | @cons cell cells hcell _ ih =>
      generalize hnext : some cell.id = next at h'
      cases h' with
      | nil => cases hnext
      | @cons cell' cells' hcell' hrest' =>
          have hrow : CellRow.ofCell cell = CellRow.ofCell cell' :=
            List.inj_on_of_nodup_map hids (storesCell_iff.mp hcell) (storesCell_iff.mp hcell')
              (congrArg Datum.text (Option.some.inj hnext))
          obtain rfl := CellRow.ofCell_injective hrow
          rw [ih hrest']

/-- Linked places that are stored are a path. -/
theorem path_linkedTo {places : List Place}
    (h : ∀ cell ∈ linkedTo none places, store.StoresCell cell) :
    store.Path (start none places) (linkedTo none places) := by
  induction places with
  | nil => exact .nil
  | cons place places ih =>
      rw [linkedTo_cons] at h ⊢
      have htail : ∀ cell ∈ linkedTo none places, store.StoresCell cell := fun cell hcell =>
        h cell (List.mem_cons_of_mem _ hcell)
      exact .cons (h _ List.mem_cons_self) (ih htail)

/-- One step of following a chain. -/
theorem follow_of_find? {owner : AtomId} {unpassed : List CellRow} {id : CellId} {cell : Cell}
    (hfind : unpassed.find? (fun row => row.id == .text id) = some (CellRow.ofCell cell)) :
    follow owner unpassed (some id) =
      (follow owner (unpassed.erase (CellRow.ofCell cell)) cell.rest).map (cell :: ·) := by
  rw [follow]
  split
  next hnone =>
    rw [hfind] at hnone
    cases hnone
  next row hsome =>
    rw [hfind] at hsome
    cases hsome
    rw [CellRow.toCell_ofCell]
    rfl

/-- Following linked places among rows that hold all of them finds exactly
them. -/
theorem follow_linkedTo (owner : AtomId) {unpassed : List CellRow} {places : List Place}
    (hids : (unpassed.map CellRow.id).Nodup) (hplaces : (places.map Place.cell).Nodup)
    (hcells : ∀ cell ∈ linkedTo none places, CellRow.ofCell cell ∈ unpassed) :
    follow owner unpassed (start none places) = .ok (linkedTo none places) := by
  induction places generalizing unpassed with
  | nil =>
      rw [start_nil, follow]
      rfl
  | cons place places ih =>
      rw [linkedTo_cons] at hcells
      rw [List.map_cons, List.nodup_cons] at hplaces
      have hfirst := hcells _ List.mem_cons_self
      have hfind := (find?_key_eq_some hids).mpr ⟨hfirst, rfl⟩
      rw [start_cons, follow_of_find? hfind,
        ih (hids.sublist (List.erase_sublist.map _)) hplaces.2]
      · rfl
      intro cell hcell
      have hne : CellRow.ofCell cell ≠ CellRow.ofCell
          { id := place.cell, first := place.atom, rest := start none places } := by
        intro heq
        rw [CellRow.ofCell_injective heq] at hcell
        exact hplaces.1 (List.mem_map_of_mem (place_mem_of_mem_linkedTo hcell))
      exact (List.mem_erase_of_ne hne).mpr (hcells cell (List.mem_cons_of_mem _ hcell))

/-! ## Looking atoms up -/

theorem atom?_eq_none {id : AtomId} : store.atom? id = .ok none ↔ ¬store.HasAtom id := by
  have hfind : store.atomRow? id = none ↔ ∀ row ∈ store.atoms, row.id ≠ .text id :=
    find?_key_eq_none
  cases h : store.atomRow? id with
  | none =>
      rw [atomRow?] at h
      simp only [atom?, atomRow?, h, true_iff]
      rintro ⟨row, hrow, hid⟩
      exact hfind.mp h row hrow hid
  | some row =>
      have hhas : store.HasAtom id :=
        ⟨row, List.mem_of_find?_eq_some h, by simpa using List.find?_some h⟩
      simp only [atom?, h, hhas, not_true_eq_false, iff_false]
      cases row.toAtom <;> simp [Except.map]

theorem atom?_eq_some {id : AtomId} {atom : Atom} (hids : (store.atoms.map AtomRow.id).Nodup) :
    store.atom? id = .ok (some atom) ↔ store.StoresAtom atom ∧ atom.id = id := by
  have hfind {row : AtomRow} :
      store.atomRow? id = some row ↔ row ∈ store.atoms ∧ row.id = .text id :=
    find?_key_eq_some hids
  constructor
  · intro h
    cases hrow : store.atomRow? id with
    | none => simp [atom?, hrow] at h
    | some row =>
        have hread : row.toAtom = .ok atom := by
          cases hatom : row.toAtom <;> simp_all [atom?, Except.map]
        obtain ⟨hmem, hid⟩ := hfind.mp hrow
        rw [(AtomRow.toAtom_eq_ok.mp hread).id] at hid
        exact ⟨⟨row, hmem, hread⟩, by simpa using hid⟩
  · rintro ⟨⟨row, hmem, hread⟩, rfl⟩
    have hrow : store.atomRow? atom.id = some row :=
      hfind.mpr ⟨hmem, (AtomRow.toAtom_eq_ok.mp hread).id⟩
    simp [atom?, hrow, hread, Except.map]

theorem atom_eq_ok {id : AtomId} {atom : Atom} :
    store.atom id = .ok atom ↔ store.atom? id = .ok (some atom) := by
  cases h : store.atom? id with
  | error cause => simp [Store.atom, h, bind, Except.bind]
  | ok found => cases found <;> simp [Store.atom, h, bind, Except.bind, pure, Except.pure, throw,
      throwThe, MonadExceptOf.throw]

theorem WellFormed.atom_eq_iff (h : store.WellFormed) {id : AtomId} {atom : Atom} :
    store.atom id = .ok atom ↔ store.StoresAtom atom ∧ atom.id = id :=
  atom_eq_ok.trans (atom?_eq_some h.atomIdsNodup)

theorem WellFormed.atom_eq (h : store.WellFormed) {atom : Atom} (hatom : store.StoresAtom atom) :
    store.atom atom.id = .ok atom :=
  h.atom_eq_iff.mpr ⟨hatom, rfl⟩

/-- Atoms are told apart by their identifiers. -/
theorem WellFormed.eq_of_id_eq (h : store.WellFormed) {a b : Atom} (ha : store.StoresAtom a)
    (hb : store.StoresAtom b) (hid : a.id = b.id) : a = b := by
  have hatom := h.atom_eq ha
  rw [hid, h.atom_eq hb] at hatom
  exact (Except.ok.inj hatom).symm

theorem atom_eq_noAtom {id : AtomId} (h : ¬store.HasAtom id) :
    store.atom id = .error (.noAtom id) := by
  rw [Store.atom, atom?_eq_none.mpr h]
  rfl

theorem hasAtom_of_atom {id : AtomId} {atom : Atom} (h : store.atom id = .ok atom) :
    store.HasAtom id := by
  by_contra hno
  rw [atom_eq_noAtom hno] at h
  cases h

end Outline.Store
