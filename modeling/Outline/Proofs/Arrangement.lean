import Outline.Proofs.WellFormed

/-!
# Arrangements of cells

While a list is edited, some of its cells are cut off.  An arrangement says
which places make up the list of each atom and which are loose; between edits
nothing is loose, and then an arrangement is the same as well-formedness.
-/

namespace Outline

/-- The places of the list of each atom and, under `none`, the loose ones. -/
abbrev Segments := Option AtomId → List Place

namespace Segments

/-- The segments of lists without anything loose. -/
def ofLists (lists : AtomId → List Place) : Segments
  | none => []
  | some id => lists id

/-- The segments with some more loose places, where there are none. -/
def loosen (segments : Segments) (places : List Place) : Segments
  | none => places
  | some id => segments (some id)

/-- The segments after the list of `owner` was cut behind `kept` and what was
loose put there; what was cut off is loose now. -/
def exchange (segments : Segments) (owner : AtomId) (kept cut : List Place) : Segments
  | none => cut
  | some id => if id = owner then kept ++ segments none else segments (some id)

variable {segments : Segments} {owner id : AtomId} {kept cut places : List Place}

@[simp] theorem ofLists_none (lists : AtomId → List Place) : ofLists lists none = [] := rfl

@[simp] theorem ofLists_some (lists : AtomId → List Place) :
    ofLists lists (some id) = lists id := rfl

@[simp] theorem loosen_none : segments.loosen places none = places := rfl

@[simp] theorem loosen_some : segments.loosen places (some id) = segments (some id) := rfl

@[simp] theorem exchange_none : segments.exchange owner kept cut none = cut := rfl

@[simp] theorem exchange_self :
    segments.exchange owner kept cut (some owner) = kept ++ segments none := by
  simp [exchange]

theorem exchange_of_ne (h : id ≠ owner) :
    segments.exchange owner kept cut (some id) = segments (some id) := by
  simp [exchange, h]

/-- Where a place is after an exchange tells where it was. -/
theorem origin_of_mem_exchange (hsplit : segments (some owner) = kept ++ cut)
    {key : Option AtomId} {place : Place} (hplace : place ∈ segments.exchange owner kept cut key) :
    (place ∈ cut ∧ place ∈ segments (some owner) ∧ key = none) ∨
      (place ∈ kept ∧ place ∈ segments (some owner) ∧ key = some owner) ∨
      (place ∈ segments none ∧ key = some owner) ∨
      ∃ id, id ≠ owner ∧ place ∈ segments (some id) ∧ key = some id := by
  cases key with
  | none =>
      have hcut : place ∈ cut := hplace
      exact Or.inl ⟨hcut, by simp [hsplit, hcut], rfl⟩
  | some id =>
      by_cases hid : id = owner
      · subst hid
        rw [exchange_self, List.mem_append] at hplace
        rcases hplace with hplace | hplace
        · exact Or.inr (Or.inl ⟨hplace, by simp [hsplit, hplace], rfl⟩)
        · exact Or.inr (Or.inr (Or.inl ⟨hplace, rfl⟩))
      · rw [exchange_of_ne hid] at hplace
        exact Or.inr (Or.inr (Or.inr ⟨id, hid, hplace, rfl⟩))

/-- No place is lost in an exchange, and none comes. -/
theorem exists_mem_exchange_iff (hsplit : segments (some owner) = kept ++ cut) {place : Place} :
    (∃ key, place ∈ segments.exchange owner kept cut key) ↔ ∃ key, place ∈ segments key := by
  constructor
  · rintro ⟨key, hplace⟩
    rcases origin_of_mem_exchange hsplit hplace with
      ⟨-, h, -⟩ | ⟨-, h, -⟩ | ⟨h, -⟩ | ⟨_, -, h, -⟩
    all_goals exact ⟨_, h⟩
  · rintro ⟨key, hplace⟩
    cases key with
    | none => exact ⟨some owner, by simp [hplace]⟩
    | some id =>
        by_cases hid : id = owner
        · subst hid
          rw [hsplit, List.mem_append] at hplace
          rcases hplace with hplace | hplace
          · exact ⟨some id, by simp [hplace]⟩
          · exact ⟨none, hplace⟩
        · exact ⟨some id, by rwa [exchange_of_ne hid]⟩

end Segments

namespace Store

/-- The atoms and cells of the store are arranged in the given segments. -/
structure Arranged (store : Store) (segments : Segments) : Prop where
  readable : ∀ row ∈ store.atoms, ∃ atom, row.toAtom = .ok atom
  atomIds : (store.atoms.map AtomRow.id).Nodup
  cellIds : (store.cells.map CellRow.id).Nodup
  heads : ∀ row ∈ store.atoms, ∀ id, row.id = .text id →
    row.notes = (start none (segments (some id))).map .text
  owned : ∀ id, segments (some id) ≠ [] → store.HasAtom id
  linked : ∀ key, ∀ cell ∈ linkedTo none (segments key), CellRow.ofCell cell ∈ store.cells
  covered : ∀ row ∈ store.cells, ∃ key, ∃ place ∈ segments key, row.id = .text place.cell
  distinct : ∀ key, ((segments key).map Place.cell).Nodup
  disjoint : ∀ {key key' place place'}, place ∈ segments key → place' ∈ segments key' →
    place.cell = place'.cell → key = key'
  held : ∀ key, ∀ place ∈ segments key, store.HasAtom place.atom

variable {store : Store} {segments : Segments}

/-- An arrangement is one of the rows of atoms and cells only. -/
theorem Arranged.of_rows (h : store.Arranged segments) {store' : Store}
    (hatoms : store'.atoms = store.atoms) (hcells : store'.cells = store.cells) :
    store'.Arranged segments := by
  obtain ⟨atoms, cells, index, references, supply⟩ := store
  obtain ⟨atoms', cells', index', references', supply'⟩ := store'
  cases hatoms
  cases hcells
  exact ⟨h.readable, h.atomIds, h.cellIds, h.heads, h.owned, h.linked, h.covered, h.distinct,
    h.disjoint, h.held⟩

namespace Arranged

theorem cellRow_eq (h : store.Arranged segments) {row row' : CellRow} (hrow : row ∈ store.cells)
    (hrow' : row' ∈ store.cells) (hid : row.id = row'.id) : row = row' :=
  List.inj_on_of_nodup_map h.cellIds hrow hrow' hid

/-- Every row of a cell belongs to a place of some segment. -/
theorem exists_linked (h : store.Arranged segments) {row : CellRow} (hrow : row ∈ store.cells) :
    ∃ key, ∃ cell ∈ linkedTo none (segments key), row = .ofCell cell := by
  obtain ⟨key, place, hplace, hid⟩ := h.covered row hrow
  obtain ⟨cell, hcell, rfl⟩ := exists_mem_linkedTo none hplace
  exact ⟨key, cell, hcell, h.cellRow_eq hrow (h.linked key cell hcell) hid⟩

theorem storesCell_iff_linked (h : store.Arranged segments) {cell : Cell} :
    store.StoresCell cell ↔ ∃ key, cell ∈ linkedTo none (segments key) := by
  rw [storesCell_iff]
  constructor
  · intro hcell
    obtain ⟨key, cell', hcell', heq⟩ := h.exists_linked hcell
    rw [CellRow.ofCell_injective heq]
    exact ⟨key, hcell'⟩
  · rintro ⟨key, hcell⟩
    exact h.linked key cell hcell

theorem hasCell_iff (h : store.Arranged segments) {id : CellId} :
    store.HasCell id ↔ ∃ key, ∃ place ∈ segments key, place.cell = id := by
  constructor
  · rintro ⟨row, hrow, hid⟩
    obtain ⟨key, place, hplace, hplaceId⟩ := h.covered row hrow
    rw [hid] at hplaceId
    exact ⟨key, place, hplace, (Datum.text.inj hplaceId).symm⟩
  · rintro ⟨key, place, hplace, rfl⟩
    obtain ⟨cell, hcell, rfl⟩ := exists_mem_linkedTo none hplace
    exact ⟨_, h.linked key cell hcell, rfl⟩

theorem hasPlace_iff (h : store.Arranged segments) {place : Place} :
    store.HasPlace place ↔ ∃ key, place ∈ segments key := by
  constructor
  · rintro ⟨cell, hcell, rfl⟩
    obtain ⟨key, hkey⟩ := h.storesCell_iff_linked.mp hcell
    exact ⟨key, place_mem_of_mem_linkedTo hkey⟩
  · rintro ⟨key, hplace⟩
    obtain ⟨cell, hcell, rfl⟩ := exists_mem_linkedTo none hplace
    exact ⟨cell, h.storesCell_iff_linked.mpr ⟨key, hcell⟩, rfl⟩

/-- An atom is read with the head of its list. -/
theorem notes_eq (h : store.Arranged segments) {atom : Atom} (hatom : store.StoresAtom atom) :
    atom.notes = start none (segments (some atom.id)) := by
  obtain ⟨row, hrow, hread⟩ := hatom
  have hreads := AtomRow.toAtom_eq_ok.mp hread
  have hhead := h.heads row hrow atom.id hreads.id
  rw [hreads.notes] at hhead
  exact map_text_injective hhead

/-- A list pointer leads to the first place of the list. -/
theorem exists_start_of_notes (h : store.Arranged segments) {row : AtomRow}
    (hrow : row ∈ store.atoms) {id : CellId} (hnotes : row.notes = some (.text id)) :
    ∃ owner, row.id = .text owner ∧ start none (segments (some owner)) = some id := by
  obtain ⟨atom, hread⟩ := h.readable row hrow
  have hid := (AtomRow.toAtom_eq_ok.mp hread).id
  rw [h.heads row hrow atom.id hid] at hnotes
  exact ⟨atom.id, hid, map_text_injective hnotes⟩

/-- The successor of a cell is a later place of the same segment. -/
theorem exists_next_of_rest (h : store.Arranged segments) {row : CellRow}
    (hrow : row ∈ store.cells) {id : CellId} (hrest : row.rest = some (.text id)) :
    ∃ key, ∃ cell ∈ linkedTo none (segments key), row = .ofCell cell ∧ cell.rest = some id ∧
      ∃ next ∈ (segments key).tail, next.cell = id := by
  obtain ⟨key, cell, hcell, rfl⟩ := h.exists_linked hrow
  have hcellRest : cell.rest = some id := map_text_injective hrest
  exact ⟨key, cell, hcell, rfl, hcellRest, exists_mem_tail_of_rest hcell hcellRest⟩

/-- The list of an atom can be walked, and consists of its places. -/
theorem chain_eq (h : store.Arranged segments) {atom : Atom} (hatom : store.StoresAtom atom) :
    store.chain atom = .ok (linkedTo none (segments (some atom.id))) := by
  rw [chain, h.notes_eq hatom]
  exact follow_linkedTo _ h.cellIds (h.distinct _) (h.linked _)

theorem exists_atom (h : store.Arranged segments) {id : AtomId} (hid : store.HasAtom id) :
    ∃ atom, store.atom id = .ok atom ∧ store.StoresAtom atom ∧ atom.id = id := by
  obtain ⟨row, hrow, hrowId⟩ := hid
  obtain ⟨atom, hread⟩ := h.readable row hrow
  have hatomId : atom.id = id := by
    have := (AtomRow.toAtom_eq_ok.mp hread).id
    rw [hrowId] at this
    exact (Datum.text.inj this).symm
  have hstored : store.StoresAtom atom := ⟨row, hrow, hread⟩
  exact ⟨atom, atom_eq_ok.mpr ((atom?_eq_some h.atomIds).mpr ⟨hstored, hatomId⟩), hstored, hatomId⟩

/-- The segments are those that the list pointers lead to. -/
theorem places_eq (h : store.Arranged segments) (id : AtomId) :
    store.places id = segments (some id) := by
  by_cases hid : store.HasAtom id
  · obtain ⟨atom, hatom, hstored, rfl⟩ := h.exists_atom hid
    simp [places, hatom, h.chain_eq hstored]
  · have hnone : segments (some id) = [] := by
      by_contra hne
      exact hid (h.owned id hne)
    simp [places, atom_eq_noAtom hid, hnone]

/-- The list of an atom is the only path from its list pointer. -/
theorem path_iff (h : store.Arranged segments) {atom : Atom} (hatom : store.StoresAtom atom)
    {cells : List Cell} :
    store.Path atom.notes cells ↔ cells = linkedTo none (segments (some atom.id)) := by
  have hpath : store.Path atom.notes (linkedTo none (segments (some atom.id))) := by
    rw [h.notes_eq hatom]
    exact path_linkedTo fun cell hcell => h.storesCell_iff_linked.mpr ⟨_, hcell⟩
  constructor
  · intro hcells
    exact hcells.unique h.cellIds hpath
  · rintro rfl
    exact hpath

/-- An arrangement without loose places is well formed. -/
theorem wellFormed (h : store.Arranged segments) (hloose : segments none = []) :
    store.WellFormed where
  atomsReadable := h.readable
  cellsReadable := by
    intro row hrow
    obtain ⟨_, cell, _, rfl⟩ := h.exists_linked hrow
    exact ⟨cell, CellRow.toCell_ofCell cell⟩
  atomIdsNodup := h.atomIds
  cellIdsNodup := h.cellIds
  notesResolve := by
    intro atom hatom id hnotes
    rw [h.notes_eq hatom] at hnotes
    exact h.hasCell_iff.mpr ⟨some atom.id, exists_mem_of_start hnotes⟩
  restsResolve := by
    intro cell hcell id hrest
    obtain ⟨key, hkey⟩ := h.storesCell_iff_linked.mp hcell
    obtain ⟨next, hnext, hid⟩ := exists_mem_tail_of_rest hkey hrest
    exact h.hasCell_iff.mpr ⟨key, next, List.mem_of_mem_tail hnext, hid⟩
  firstsResolve := by
    intro cell hcell
    obtain ⟨key, hkey⟩ := h.storesCell_iff_linked.mp hcell
    exact h.held key _ (place_mem_of_mem_linkedTo hkey)
  listsEnd := by
    intro atom hatom
    have hnodup := h.distinct (some atom.id)
    rw [← map_id_linkedTo none] at hnodup
    exact ⟨_, (h.path_iff hatom).mpr rfl, hnodup⟩
  listsDisjoint := by
    intro a b cells cells' cell ha hb hcells hcells' hmem hmem'
    rw [(h.path_iff ha).mp hcells] at hmem
    rw [(h.path_iff hb).mp hcells'] at hmem'
    have hkeys := h.disjoint (place_mem_of_mem_linkedTo hmem) (place_mem_of_mem_linkedTo hmem') rfl
    exact Option.some.inj hkeys
  cellsOwned := by
    intro cell hcell
    obtain ⟨key, hkey⟩ := h.storesCell_iff_linked.mp hcell
    cases key with
    | none => simp [hloose] at hkey
    | some id =>
        have hne : segments (some id) ≠ [] := by
          intro hnil
          simp [hnil] at hkey
        obtain ⟨atom, _, hstored, rfl⟩ := h.exists_atom (h.owned id hne)
        exact ⟨atom, _, hstored, (h.path_iff hstored).mpr rfl, hkey⟩

end Arranged

/-- In a well-formed store, the list of an atom is its places. -/
theorem WellFormed.path_places (h : store.WellFormed) {atom : Atom}
    (hatom : store.StoresAtom atom) :
    store.Path atom.notes (linkedTo none (store.places atom.id)) ∧
      ((store.places atom.id).map Place.cell).Nodup ∧
      atom.notes = start none (store.places atom.id) := by
  obtain ⟨cells, hpath, hnodup⟩ := h.listsEnd atom hatom
  obtain ⟨hstart, hlinked⟩ := hpath.eq_linkedTo
  have hplaces : ((cells.map Cell.place).map Place.cell).Nodup := by
    simpa [Function.comp_def, Cell.place] using hnodup
  have hchain : store.chain atom = .ok cells := by
    have hstored : ∀ cell ∈ linkedTo none (cells.map Cell.place),
        CellRow.ofCell cell ∈ store.cells := by
      rw [hlinked]
      exact fun cell hcell => storesCell_iff.mp (hpath.storesCell cell hcell)
    have hfollow := follow_linkedTo atom.id h.cellIdsNodup hplaces hstored
    rwa [hstart, hlinked] at hfollow
  have heq : store.places atom.id = cells.map Cell.place := by
    simp [places, h.atom_eq hatom, hchain]
  rw [heq, hlinked]
  exact ⟨hpath, hplaces, hstart.symm⟩

theorem places_eq_nil {id : AtomId} (h : ¬store.HasAtom id) : store.places id = [] := by
  simp [places, atom_eq_noAtom h]

theorem WellFormed.exists_atom (h : store.WellFormed) {id : AtomId} (hid : store.HasAtom id) :
    ∃ atom, store.StoresAtom atom ∧ atom.id = id := by
  obtain ⟨row, hrow, hrowId⟩ := hid
  obtain ⟨atom, hread⟩ := h.atomsReadable row hrow
  have hatomId := (AtomRow.toAtom_eq_ok.mp hread).id
  rw [hrowId] at hatomId
  exact ⟨atom, ⟨row, hrow, hread⟩, (Datum.text.inj hatomId).symm⟩

/-- Every place of an atom's list belongs to a stored atom and a stored cell. -/
theorem WellFormed.exists_of_mem_places (h : store.WellFormed) {id : AtomId} {place : Place}
    (hplace : place ∈ store.places id) :
    ∃ atom cell, store.StoresAtom atom ∧ atom.id = id ∧ store.StoresCell cell ∧
      cell ∈ linkedTo none (store.places id) ∧ cell.place = place := by
  have hid : store.HasAtom id := by
    by_contra hno
    simp [places_eq_nil hno] at hplace
  obtain ⟨atom, hatom, rfl⟩ := h.exists_atom hid
  obtain ⟨cell, hcell, rfl⟩ := exists_mem_linkedTo none hplace
  exact ⟨atom, cell, hatom, rfl, (h.path_places hatom).1.storesCell cell hcell, hcell, rfl⟩

/-- A well-formed store is arranged in the lists of its atoms. -/
theorem WellFormed.arranged (h : store.WellFormed) :
    store.Arranged (Segments.ofLists store.places) := by
  constructor
  case readable => exact h.atomsReadable
  case atomIds => exact h.atomIdsNodup
  case cellIds => exact h.cellIdsNodup
  case heads =>
    intro row hrow id hid
    obtain ⟨atom, hread⟩ := h.atomsReadable row hrow
    have hreads := AtomRow.toAtom_eq_ok.mp hread
    have hatomId : atom.id = id := Datum.text.inj (hreads.id.symm.trans hid)
    rw [hreads.notes, (h.path_places ⟨row, hrow, hread⟩).2.2, hatomId]
    rfl
  case owned =>
    intro id hne
    by_contra hno
    exact hne (places_eq_nil hno)
  case linked =>
    intro key cell hcell
    cases key with
    | none => simp [Segments.ofLists] at hcell
    | some id =>
        obtain ⟨atom, _, hatom, rfl, -⟩ := h.exists_of_mem_places (place_mem_of_mem_linkedTo hcell)
        exact storesCell_iff.mp ((h.path_places hatom).1.storesCell cell hcell)
  case covered =>
    intro row hrow
    obtain ⟨cell, hread⟩ := h.cellsReadable row hrow
    obtain rfl := CellRow.toCell_eq_ok.mp hread
    obtain ⟨atom, cells, hatom, hpath, hmem⟩ := h.cellsOwned cell (storesCell_iff.mpr hrow)
    rw [hpath.unique h.cellIdsNodup (h.path_places hatom).1] at hmem
    exact ⟨some atom.id, cell.place, place_mem_of_mem_linkedTo hmem, rfl⟩
  case distinct =>
    intro key
    cases key with
    | none => simp [Segments.ofLists]
    | some id =>
        by_cases hid : store.HasAtom id
        · obtain ⟨atom, hatom, rfl⟩ := h.exists_atom hid
          exact (h.path_places hatom).2.1
        · simp [Segments.ofLists, places_eq_nil hid]
  case disjoint =>
    intro key key' place place' hplace hplace' hid
    cases key with
    | none => simp [Segments.ofLists] at hplace
    | some id =>
        cases key' with
        | none => simp [Segments.ofLists] at hplace'
        | some id' =>
            obtain ⟨atom, cell, hatom, rfl, hcell, hmem, rfl⟩ := h.exists_of_mem_places hplace
            obtain ⟨atom', cell', hatom', rfl, hcell', hmem', rfl⟩ :=
              h.exists_of_mem_places hplace'
            have hrow : CellRow.ofCell cell = CellRow.ofCell cell' :=
              List.inj_on_of_nodup_map h.cellIdsNodup (storesCell_iff.mp hcell)
                (storesCell_iff.mp hcell') (congrArg Datum.text hid)
            obtain rfl := CellRow.ofCell_injective hrow
            rw [h.listsDisjoint atom atom' _ _ cell hatom hatom' (h.path_places hatom).1
              (h.path_places hatom').1 hmem hmem']
  case held =>
    intro key place hplace
    cases key with
    | none => simp [Segments.ofLists] at hplace
    | some id =>
        obtain ⟨_, cell, _, _, hcell, _, rfl⟩ := h.exists_of_mem_places hplace
        exact h.firstsResolve cell hcell

theorem WellFormed.hasPlace_iff (h : store.WellFormed) {place : Place} :
    store.HasPlace place ↔ ∃ id, place ∈ store.places id := by
  rw [h.arranged.hasPlace_iff]
  constructor
  · rintro ⟨key, hplace⟩
    cases key with
    | none => simp at hplace
    | some id => exact ⟨id, hplace⟩
  · rintro ⟨id, hplace⟩
    exact ⟨some id, hplace⟩

theorem WellFormed.hasCell_iff (h : store.WellFormed) {id : CellId} :
    store.HasCell id ↔ ∃ place, store.HasPlace place ∧ place.cell = id := by
  rw [h.arranged.hasCell_iff]
  simp only [h.arranged.hasPlace_iff]
  constructor
  · rintro ⟨key, place, hplace, hid⟩
    exact ⟨place, ⟨key, hplace⟩, hid⟩
  · rintro ⟨place, ⟨key, hplace⟩, hid⟩
    exact ⟨key, place, hplace, hid⟩

theorem WellFormed.hasAtom_of_mem_places (h : store.WellFormed) (id : AtomId) {place : Place}
    (hplace : place ∈ store.places id) : store.HasAtom place.atom :=
  h.arranged.held (some id) place hplace

/-- A cell stands in one list, and in one place of it. -/
theorem WellFormed.places_apart (h : store.WellFormed) {id id' : AtomId} {place place' : Place}
    (hplace : place ∈ store.places id) (hplace' : place' ∈ store.places id')
    (hcell : place.cell = place'.cell) : id = id' ∧ place = place' := by
  have hkey : some id = some id' :=
    h.arranged.disjoint hplace hplace' hcell
  obtain rfl := Option.some.inj hkey
  exact ⟨rfl, List.inj_on_of_nodup_map (h.arranged.distinct (some id)) hplace hplace' hcell⟩

end Store

end Outline
