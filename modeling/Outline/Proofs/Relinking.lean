import Outline.Proofs.Arrangement

/-!
# Moving one pointer

Moving the list pointer of an atom or the successor of a cell cuts off the rest
of one list and puts what was loose in its place.  No constraint of the tables
stands in the way: nothing else points to the start of what is loose.
-/

namespace Outline

/-- The row without its list pointer. -/
def AtomRow.withoutNotes (row : AtomRow) : AtomRow :=
  { row with notes := none }

namespace Store

/-- The store with another list pointer of an atom. -/
def withNotes (store : Store) (id : AtomId) (head : Option CellId) : Store :=
  { store with
    atoms := store.atoms.map fun row =>
      if row.id == .text id then { row with notes := head.map .text } else row }

/-- The store with another successor of a cell. -/
def withRest (store : Store) (id : CellId) (rest : Option CellId) : Store :=
  { store with
    cells := store.cells.map fun row =>
      if row.id == .text id then { row with rest := rest.map .text } else row }

/-- Nothing but cells and list pointers differs between two stores. -/
structure Relinked (before after : Store) : Prop where
  atoms : after.atoms.map AtomRow.withoutNotes = before.atoms.map AtomRow.withoutNotes
  index : after.index = before.index
  references : after.references = before.references

theorem Relinked.trans {a b c : Store} (hab : Relinked a b) (hbc : Relinked b c) :
    Relinked a c :=
  ⟨hbc.atoms.trans hab.atoms, hbc.index.trans hab.index, hbc.references.trans hab.references⟩

theorem map_withoutNotes_map_id {rows : List AtomRow} :
    (rows.map AtomRow.withoutNotes).map AtomRow.id = rows.map AtomRow.id := by
  rw [List.map_map]
  rfl

theorem Relinked.atomIds {before after : Store} (h : Relinked before after) :
    after.atoms.map AtomRow.id = before.atoms.map AtomRow.id := by
  rw [← map_withoutNotes_map_id, h.atoms, map_withoutNotes_map_id]

theorem hasAtom_iff_mem {store : Store} {id : AtomId} :
    store.HasAtom id ↔ Datum.text id ∈ store.atoms.map AtomRow.id := by
  simp [HasAtom]

theorem hasCell_iff_mem {store : Store} {id : CellId} :
    store.HasCell id ↔ Datum.text id ∈ store.cells.map CellRow.id := by
  simp [HasCell]

theorem Relinked.hasAtom_iff {before after : Store} (h : Relinked before after) {id : AtomId} :
    after.HasAtom id ↔ before.HasAtom id := by
  rw [hasAtom_iff_mem, hasAtom_iff_mem, h.atomIds]

variable {store : Store} {segments : Segments}

theorem relinked_withNotes (id : AtomId) (head : Option CellId) :
    Relinked store (store.withNotes id head) := by
  refine ⟨?_, rfl, rfl⟩
  rw [withNotes, List.map_map]
  apply List.map_congr_left
  intro row _
  simp only [Function.comp]
  split <;> rfl

theorem relinked_withRest (id : CellId) (rest : Option CellId) :
    Relinked store (store.withRest id rest) :=
  ⟨rfl, rfl, rfl⟩

@[simp] theorem map_id_withRest (id : CellId) (rest : Option CellId) :
    (store.withRest id rest).cells.map CellRow.id = store.cells.map CellRow.id := by
  rw [withRest, List.map_map]
  apply List.map_congr_left
  intro row _
  simp only [Function.comp]
  split <;> rfl

/-- A pointer that names a cell or nothing. -/
def Resolves (store : Store) (pointer : Option CellId) : Prop :=
  ∀ id, pointer = some id → store.HasCell id

/-- A pointer may move between cells that exist. -/
theorem movePointer_of_resolves {old new : Option CellId} (hold : store.Resolves old)
    (hnew : store.Resolves new) :
    store.movePointer (old.map .text) (new.map .text) = .ok store.references := by
  have hcount : ∀ pointer, store.Resolves pointer →
      store.danglingCount (pointer.map .text) = 0 := by
    intro pointer hpointer
    cases pointer with
    | none => rfl
    | some id =>
        obtain ⟨row, hrow, hid⟩ := hpointer id rfl
        have hany : (store.cells.any fun row => row.id == .text id) = true :=
          List.any_eq_true.mpr ⟨row, hrow, by simp [hid]⟩
        simp [danglingCount, isDangling, hany]
  rw [movePointer, hcount old hold, hcount new hnew]
  cases store.references <;> simp [ReferenceCheck.settle]

/-- A list pointer may move to a cell that no list pointer names. -/
theorem moveNotes_eq {row : AtomRow} {id : AtomId} {head : Option CellId}
    (hid : row.id = .text id)
    (hfree : ∀ target, head = some target → ∀ other ∈ store.atoms,
      other.notes ≠ some (.text target))
    (hmove : store.movePointer row.notes (head.map .text) = .ok store.references) :
    moveNotes row (head.map .text) store = .ok (store.withNotes id head) := by
  have hunique : ¬((head.map Datum.text).isSome = true ∧
      (store.atoms.any fun other =>
        other.id != row.id && other.notes == head.map .text) = true) := by
    rintro ⟨hsome, hany⟩
    obtain ⟨target, rfl⟩ := Option.isSome_iff_exists.mp (by simpa using hsome)
    obtain ⟨other, hother, hnotes⟩ := List.any_eq_true.mp hany
    exact hfree target rfl other hother (by simpa using (Bool.and_eq_true_iff.mp hnotes).2)
  simp only [moveNotes]
  rw [if_neg hunique]
  simp only [hmove, hid]
  rfl

/-- The successor of a cell may move to a cell that has no predecessor. -/
theorem moveRest_eq {row : CellRow} {id : CellId} {rest : Option CellId}
    (hid : row.id = .text id)
    (hfree : ∀ target, rest = some target → ∀ other ∈ store.cells,
      other.rest ≠ some (.text target))
    (hmove : store.movePointer row.rest (rest.map .text) = .ok store.references) :
    moveRest row (rest.map .text) store = .ok (store.withRest id rest) := by
  have hunique : ¬((rest.map Datum.text).isSome = true ∧
      (store.cells.any fun other =>
        other.id != row.id && other.rest == rest.map .text) = true) := by
    rintro ⟨hsome, hany⟩
    obtain ⟨target, rfl⟩ := Option.isSome_iff_exists.mp (by simpa using hsome)
    obtain ⟨other, hother, hrest⟩ := List.any_eq_true.mp hany
    exact hfree target rfl other hother (by simpa using (Bool.and_eq_true_iff.mp hrest).2)
  simp only [moveRest]
  rw [if_neg hunique]
  simp only [hmove, hid]
  rfl

namespace Arranged

/-- The start of some places of a segment is a cell. -/
theorem resolves_start (h : store.Arranged segments) (key : Option AtomId) (xs ys : List Place)
    (hsplit : segments key = xs ++ ys) : store.Resolves (start none ys) := by
  intro id hid
  obtain ⟨place, hplace, hcell⟩ := exists_mem_of_start hid
  exact h.hasCell_iff.mpr ⟨key, place, hsplit ▸ List.mem_append_right xs hplace, hcell⟩

/-- Exchanging the end of a list for what is loose keeps the places apart, so
only the pointers have to be looked at. -/
theorem exchange (h : store.Arranged segments) {store' : Store} {owner : AtomId}
    {kept cut : List Place} (howner : store.HasAtom owner)
    (hsplit : segments (some owner) = kept ++ cut)
    (hreadable : ∀ row ∈ store'.atoms, ∃ atom, row.toAtom = .ok atom)
    (hatomIds : store'.atoms.map AtomRow.id = store.atoms.map AtomRow.id)
    (hcellIds : store'.cells.map CellRow.id = store.cells.map CellRow.id)
    (hheads : ∀ row ∈ store'.atoms, ∀ id, row.id = .text id →
      row.notes = (start none (segments.exchange owner kept cut (some id))).map .text)
    (hlinked : ∀ key, ∀ cell ∈ linkedTo none (segments.exchange owner kept cut key),
      CellRow.ofCell cell ∈ store'.cells) :
    store'.Arranged (segments.exchange owner kept cut) := by
  have hatom : ∀ id, store'.HasAtom id ↔ store.HasAtom id := by
    intro id
    rw [hasAtom_iff_mem, hasAtom_iff_mem, hatomIds]
  have hnodup := h.distinct (some owner)
  rw [hsplit, List.map_append, List.nodup_append] at hnodup
  constructor
  case readable => exact hreadable
  case atomIds => rw [hatomIds]; exact h.atomIds
  case cellIds => rw [hcellIds]; exact h.cellIds
  case heads => exact hheads
  case linked => exact hlinked
  case owned =>
    intro id hne
    rw [hatom]
    by_cases hid : id = owner
    · exact hid ▸ howner
    · rw [Segments.exchange_of_ne hid] at hne
      exact h.owned id hne
  case covered =>
    intro row hrow
    have hid : row.id ∈ store.cells.map CellRow.id := hcellIds ▸ List.mem_map_of_mem hrow
    obtain ⟨row', hrow', hid'⟩ := List.mem_map.mp hid
    obtain ⟨key, place, hplace, hplaceId⟩ := h.covered row' hrow'
    obtain ⟨key', hplace'⟩ := (Segments.exists_mem_exchange_iff hsplit).mpr ⟨key, hplace⟩
    exact ⟨key', place, hplace', hid' ▸ hplaceId⟩
  case distinct =>
    intro key
    cases key with
    | none => exact hnodup.2.1
    | some id =>
        by_cases hid : id = owner
        · subst hid
          rw [Segments.exchange_self, List.map_append, List.nodup_append]
          refine ⟨hnodup.1, h.distinct none, ?_⟩
          intro c hc c' hc' heq
          obtain ⟨place, hplace, rfl⟩ := List.mem_map.mp hc
          obtain ⟨place', hplace', rfl⟩ := List.mem_map.mp hc'
          cases h.disjoint (show place ∈ segments (some id) by simp [hsplit, hplace]) hplace' heq
        · rw [Segments.exchange_of_ne hid]
          exact h.distinct (some id)
  case disjoint =>
    intro key key' place place' hplace hplace' heq
    have hkept : ∀ p ∈ kept, ∀ q ∈ cut, p.cell ≠ q.cell := fun p hp q hq =>
      hnodup.2.2 _ (List.mem_map_of_mem hp) _ (List.mem_map_of_mem hq)
    have hapart : ∀ k k', place ∈ segments k → place' ∈ segments k' → k = k' :=
      fun k k' hk hk' => h.disjoint hk hk' heq
    rcases Segments.origin_of_mem_exchange hsplit hplace with
      ⟨hp, hp', rfl⟩ | ⟨hp, hp', rfl⟩ | ⟨hp, rfl⟩ | ⟨id, hid, hp, rfl⟩ <;>
    rcases Segments.origin_of_mem_exchange hsplit hplace' with
      ⟨hq, hq', rfl⟩ | ⟨hq, hq', rfl⟩ | ⟨hq, rfl⟩ | ⟨id', hid', hq, rfl⟩
    all_goals grind
  case held =>
    intro key place hplace
    obtain ⟨key', hplace'⟩ := (Segments.exists_mem_exchange_iff hsplit).mp ⟨key, hplace⟩
    exact (hatom place.atom).mpr (h.held key' place hplace')

/-- No list pointer leads to what is loose. -/
theorem notes_ne_loose (h : store.Arranged segments) {row : AtomRow} (hrow : row ∈ store.atoms)
    {target : CellId} (htarget : start none (segments none) = some target) :
    row.notes ≠ some (.text target) := by
  intro hnotes
  obtain ⟨owner, -, hstart⟩ := h.exists_start_of_notes hrow hnotes
  obtain ⟨loose, hloose, rfl⟩ := exists_mem_of_start htarget
  obtain ⟨first, hfirst, hcell⟩ := exists_mem_of_start hstart
  cases h.disjoint hfirst hloose hcell

/-- No cell comes before what is loose. -/
theorem rest_ne_loose (h : store.Arranged segments) {row : CellRow} (hrow : row ∈ store.cells)
    {target : CellId} (htarget : start none (segments none) = some target) :
    row.rest ≠ some (.text target) := by
  intro hrest
  obtain ⟨place, places, hloose, rfl⟩ := start_eq_some.mp htarget
  obtain ⟨key, -, -, -, -, next, hnext, hnextCell⟩ := h.exists_next_of_rest hrow hrest
  have hkey : key = none :=
    h.disjoint (List.mem_of_mem_tail hnext) (by simp [hloose]) hnextCell
  subst hkey
  have hnodup := h.distinct none
  rw [hloose] at hnext hnodup
  rw [List.map_cons, List.nodup_cons] at hnodup
  exact hnodup.1 (List.mem_map.mpr ⟨next, hnext, hnextCell⟩)

/-- Moving the list pointer of an atom to what is loose. -/
theorem setNotes_loose (h : store.Arranged segments) {owner : AtomId}
    (howner : store.HasAtom owner) :
    setNotes owner (start none (segments none)) store =
        .ok () (store.withNotes owner (start none (segments none))) ∧
      (store.withNotes owner (start none (segments none))).Arranged
        (segments.exchange owner [] (segments (some owner))) := by
  obtain ⟨row, hrow, hid⟩ := howner
  have hfind : store.atomRow? owner = some row := (find?_key_eq_some h.atomIds).mpr ⟨hrow, hid⟩
  have hmove := movePointer_of_resolves
    (h.resolves_start (some owner) [] _ rfl)
    (h.resolves_start none [] _ rfl)
  rw [← h.heads row hrow owner hid] at hmove
  constructor
  · apply change_of_ok
    simp only [hfind]
    exact moveNotes_eq hid (fun _ htarget _ hother => h.notes_ne_loose hother htarget) hmove
  · apply h.exchange ⟨row, hrow, hid⟩ rfl
    case hatomIds => exact (relinked_withNotes _ _).atomIds
    case hcellIds => rfl
    case hreadable =>
      intro row' hrow'
      obtain ⟨old, hold, rfl⟩ := List.mem_map.mp hrow'
      obtain ⟨atom, hread⟩ := h.readable old hold
      split
      · exact ⟨_, AtomRow.toAtom_eq_ok.mpr ((AtomRow.toAtom_eq_ok.mp hread).withNotes _)⟩
      · exact ⟨atom, hread⟩
    case hheads =>
      intro row' hrow' id hid'
      obtain ⟨old, hold, rfl⟩ := List.mem_map.mp hrow'
      by_cases hself : old.id = .text owner
      · simp only [hself, BEq.rfl, if_true] at hid' ⊢
        obtain rfl := Datum.text.inj hid'
        simp
      · have hne : (old.id == .text owner) = false := by simpa using hself
        simp only [hne, Bool.false_eq_true, if_false] at hid' ⊢
        have hidne : id ≠ owner := by
          rintro rfl
          exact hself hid'
        rw [Segments.exchange_of_ne hidne]
        exact h.heads old hold id hid'
    case hlinked =>
      intro key cell hcell
      cases key with
      | none => exact h.linked (some owner) cell hcell
      | some id =>
          by_cases hidne : id = owner
          · subst hidne
            exact h.linked none cell (by simpa using hcell)
          · rw [Segments.exchange_of_ne hidne] at hcell
            exact h.linked (some id) cell hcell

/-- Moving the successor of a cell in the list of an atom to what is loose. -/
theorem setRest_loose (h : store.Arranged segments) (owner : AtomId) (xs : List Place)
    (place : Place) (cut : List Place) (hsplit : segments (some owner) = xs ++ place :: cut) :
    setRest place.cell (start none (segments none)) store =
        .ok () (store.withRest place.cell (start none (segments none))) ∧
      (store.withRest place.cell (start none (segments none))).Arranged
        (segments.exchange owner (xs ++ [place]) cut) := by
  have hlinked : linkedTo none (segments (some owner)) =
      linkedTo (some place.cell) xs ++
        { id := place.cell, first := place.atom, rest := start none cut } ::
          linkedTo none cut := by
    rw [hsplit, linkedTo_append]
    rfl
  have hrow := h.linked (some owner)
    { id := place.cell, first := place.atom, rest := start none cut } (by simp [hlinked])
  have hfind : store.cellRow? place.cell = some _ :=
    (find?_key_eq_some h.cellIds).mpr ⟨hrow, rfl⟩
  have hmove := movePointer_of_resolves
    (h.resolves_start (some owner) (xs ++ [place]) cut (by simp [hsplit]))
    (h.resolves_start none [] _ rfl)
  have hne : segments (some owner) ≠ [] := by simp [hsplit]
  have hplace : place ∈ segments (some owner) := by simp [hsplit]
  -- A cell of another place keeps its row.
  have hkeep : ∀ key, ∀ cell ∈ linkedTo none (segments key), cell.id ≠ place.cell →
      CellRow.ofCell cell ∈ (store.withRest place.cell (start none (segments none))).cells := by
    intro key cell hcell hid
    have hdatum : ((CellRow.ofCell cell).id == Datum.text place.cell) = false := by
      simpa [CellRow.ofCell] using hid
    exact List.mem_map.mpr ⟨_, h.linked key cell hcell, by simp [hdatum]⟩
  have hself : CellRow.ofCell
      { id := place.cell, first := place.atom, rest := start none (segments none) } ∈
      (store.withRest place.cell (start none (segments none))).cells :=
    List.mem_map.mpr ⟨_, hrow, by simp [CellRow.ofCell]⟩
  have hnodup := h.distinct (some owner)
  rw [hsplit, List.map_append, List.map_cons, List.nodup_append, List.nodup_cons] at hnodup
  constructor
  · apply change_of_ok
    simp only [hfind]
    exact moveRest_eq rfl (fun _ htarget _ hother => h.rest_ne_loose hother htarget) hmove
  · apply h.exchange (h.owned owner hne) (by simp [hsplit])
    case hatomIds => rfl
    case hcellIds => exact map_id_withRest _ _
    case hreadable => exact h.readable
    case hheads =>
      intro row hrow id hid
      by_cases hidne : id = owner
      · subst hidne
        rw [h.heads row hrow id hid, hsplit, Segments.exchange_self]
        cases xs <;> rfl
      · rw [Segments.exchange_of_ne hidne]
        exact h.heads row hrow id hid
    case hlinked =>
      intro key cell hcell
      cases key with
      | none =>
          have hcut : cell ∈ linkedTo none cut := hcell
          apply hkeep (some owner) cell (by simp [hlinked, hcut])
          intro hid
          exact hnodup.2.1.1 (hid ▸ List.mem_map_of_mem (place_mem_of_mem_linkedTo hcell))
      | some id =>
          by_cases hidne : id = owner
          · subst hidne
            rw [Segments.exchange_self, List.append_assoc, linkedTo_append, List.mem_append,
              List.singleton_append, start_cons, linkedTo_cons, List.mem_cons] at hcell
            rcases hcell with hcell | rfl | hcell
            · apply hkeep (some id) cell (by simp [hlinked, hcell])
              intro hid
              exact hnodup.2.2 cell.id (List.mem_map_of_mem (place_mem_of_mem_linkedTo hcell))
                place.cell List.mem_cons_self hid
            · exact hself
            · apply hkeep none cell hcell
              intro hid
              cases h.disjoint (place_mem_of_mem_linkedTo hcell) hplace hid
          · rw [Segments.exchange_of_ne hidne] at hcell
            apply hkeep (some id) cell hcell
            intro hid
            exact hidne (Option.some.inj
              (h.disjoint (place_mem_of_mem_linkedTo hcell) hplace hid))

end Arranged

end Store

end Outline
