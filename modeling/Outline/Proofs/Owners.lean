import Mathlib.Data.List.Induction
import Outline.Adjacency
import Outline.Proofs.Splicing

/-!
# Finding the owner of a cell

The list of an atom is walked forwards from its first cell.  To find the atom in whose
list a cell stands, the way is gone back: from each cell to the one that names it, and
from the first cell to the atom whose list begins there.  In a well-formed store the
way back meets each of these once, and ends at the atom in whose places the cell is.
-/

namespace Outline

/-- The successors of the cells of a list. -/
theorem map_rest_linkedTo (stop : Option CellId) (place : Place) (places : List Place) :
    (linkedTo stop (place :: places)).map Cell.rest =
      places.map (fun place => some place.cell) ++ [stop] := by
  induction places generalizing place with
  | nil => rfl
  | cons next places ih =>
      rw [linkedTo_cons, List.map_cons, ih]
      rfl

/-- Two cells of a list that have the same successor are the same cell. -/
theorem eq_of_rest_eq {places : List Place} (hnodup : (places.map Place.cell).Nodup)
    {a b : Cell} (ha : a ∈ linkedTo none places) (hb : b ∈ linkedTo none places)
    (hrest : a.rest = b.rest) : a = b := by
  cases places with
  | nil => simp at ha
  | cons place places =>
      have hrests : ((linkedTo none (place :: places)).map Cell.rest).Nodup := by
        have hnames : (places.map fun place => some place.cell).Nodup := by
          have htail := (List.nodup_cons.mp hnodup).2.map (fun _ _ => Option.some.inj)
          rwa [List.map_map] at htail
        rw [map_rest_linkedTo]
        refine hnames.append (List.nodup_singleton none) ?_
        simp [List.Disjoint]
      exact List.inj_on_of_nodup_map hrests ha hb hrest

/-- A cell of a list has places before it and after it. -/
theorem exists_split_of_mem_linkedTo {places : List Place} {cell : Cell}
    (h : cell ∈ linkedTo none places) :
    ∃ xs place ys, places = xs ++ place :: ys ∧
      cell = { id := place.cell, first := place.atom, rest := start none ys } := by
  induction places with
  | nil => simp at h
  | cons first places ih =>
      rw [linkedTo_cons, List.mem_cons] at h
      rcases h with rfl | h
      · exact ⟨[], first, places, rfl, rfl⟩
      · obtain ⟨xs, place, ys, rfl, heq⟩ := ih h
        exact ⟨first :: xs, place, ys, rfl, heq⟩

/-- The only member of a list with some property is found by it. -/
theorem find?_eq_some_of_unique {α : Type} {isWanted : α → Bool} {xs : List α} {x : α}
    (hx : x ∈ xs) (hwanted : isWanted x) (hunique : ∀ y ∈ xs, isWanted y → y = x) :
    xs.find? isWanted = some x := by
  cases hfind : xs.find? isWanted with
  | none => exact absurd hwanted (List.find?_eq_none.mp hfind x hx)
  | some y => rw [hunique y (List.mem_of_find?_eq_some hfind) (List.find?_some hfind)]

namespace Store

variable {store : Store} {atom : Atom} {owner child : AtomId} {place : Place}
  {xs ys : List Place} {cell : Cell}

/-! ## One step back -/

/-- A cell that names a place as its successor stands in the same list. -/
theorem WellFormed.owner_of_rest (h : store.WellFormed) (hplace : place ∈ store.places owner)
    {row : CellRow} (hrow : row ∈ store.cells) (hrest : row.rest = some (.text place.cell)) :
    ∃ cell ∈ linkedTo none (store.places owner), row = .ofCell cell ∧
      cell.rest = some place.cell ∧ place ∈ (store.places owner).tail := by
  obtain ⟨key, cell, hcell, rfl, hrest', next, hnext, hid⟩ :=
    h.arranged.exists_next_of_rest hrow hrest
  cases key with
  | none => simp at hcell
  | some other =>
      obtain ⟨rfl, rfl⟩ := h.places_apart (List.mem_of_mem_tail hnext) hplace hid
      exact ⟨cell, hcell, rfl, hrest', hnext⟩

/-- The cell before a place is the last one of those before it. -/
theorem WellFormed.predecessor?_eq (h : store.WellFormed)
    (hsplit : store.places owner = xs ++ place :: ys) :
    store.predecessor? place.cell = .ok (linkedTo (some place.cell) xs).getLast? := by
  have hplace : place ∈ store.places owner := by simp [hsplit]
  have hnodup : ((store.places owner).map Place.cell).Nodup := h.arranged.distinct (some owner)
  cases hlast : (linkedTo (some place.cell) xs).getLast? with
  | none =>
      have hnone : store.cells.find? (fun row => row.rest == some (.text place.cell)) = none := by
        refine List.find?_eq_none.mpr fun row hrow hrest => ?_
        obtain ⟨-, -, -, -, htail⟩ := h.owner_of_rest hplace hrow (by simpa using hrest)
        obtain rfl : xs = [] := by
          cases xs with
          | nil => rfl
          | cons x xs => simp at hlast
        rw [hsplit] at htail hnodup
        exact (List.nodup_cons.mp hnodup).1 (List.mem_map_of_mem htail)
      rw [predecessor?, hnone]
  | some cell =>
      have hrest := rest_of_getLast?_linkedTo hlast
      have hcell : cell ∈ linkedTo none (store.places owner) := by
        rw [hsplit, linkedTo_append]
        exact List.mem_append_left _ (List.mem_of_getLast? hlast)
      have hfind : store.cells.find? (fun row => row.rest == some (.text place.cell)) =
          some (.ofCell cell) := by
        apply find?_eq_some_of_unique (h.arranged.linked (some owner) cell hcell)
        · simp [CellRow.ofCell, hrest]
        · intro row hrow hwanted
          obtain ⟨other, hother, rfl, hrest', -⟩ :=
            h.owner_of_rest hplace hrow (by simpa using hwanted)
          rw [eq_of_rest_eq hnodup hother hcell (hrest'.trans hrest.symm)]
      rw [predecessor?, hfind]
      simp [Except.map]

/-- The list that begins with a cell is found. -/
theorem WellFormed.headOwner?_eq (h : store.WellFormed) (hatom : store.StoresAtom atom)
    {id : CellId} (hstart : start none (store.places atom.id) = some id) :
    store.headOwner? id = .ok (some atom) := by
  obtain ⟨row, hrow, hread⟩ := hatom
  have hreads := AtomRow.toAtom_eq_ok.mp hread
  have hfind : store.atoms.find? (fun row => row.notes == some (.text id)) = some row := by
    apply find?_eq_some_of_unique hrow
    · simp [hreads.notes, h.notes_eq ⟨row, hrow, hread⟩, hstart]
    · intro other hother hwanted
      obtain ⟨owner, hid, hstart'⟩ :=
        h.arranged.exists_start_of_notes hother (by simpa using hwanted)
      obtain ⟨place, hplace, rfl⟩ := exists_mem_of_start hstart
      obtain ⟨place', hplace', hcell⟩ := exists_mem_of_start hstart'
      obtain ⟨rfl, -⟩ := h.places_apart hplace' hplace hcell
      exact List.inj_on_of_nodup_map h.atomIdsNodup hother hrow (hid.trans hreads.id.symm)
  rw [headOwner?, hfind]
  simp [hread, Except.map]

/-! ## All the way back -/

theorem retrace_of_none {unpassed : List CellRow} (h : store.predecessor? cell.id = .ok none) :
    store.retrace child unpassed cell = .ok cell := by
  rw [retrace, h]
  rfl

theorem retrace_of_some {unpassed : List CellRow} {previous : Cell}
    (h : store.predecessor? cell.id = .ok (some previous))
    (hfind : unpassed.find? (fun row => row.id == .text previous.id) = some (.ofCell previous)) :
    store.retrace child unpassed cell =
      store.retrace child (unpassed.erase (.ofCell previous)) previous := by
  rw [retrace, h]
  simp only [bind, Except.bind]
  split
  next hnone =>
    rw [hfind] at hnone
    cases hnone
  next row hsome =>
    rw [hfind] at hsome
    cases hsome
    rfl

/-- Going back from a place among rows that hold all cells before it ends at the first
cell of the list. -/
theorem WellFormed.retrace_eq (h : store.WellFormed) (child : AtomId) {unpassed : List CellRow}
    (hids : (unpassed.map CellRow.id).Nodup)
    (hcells : ∀ cell ∈ linkedTo (some place.cell) xs, CellRow.ofCell cell ∈ unpassed)
    (hsplit : store.places owner = xs ++ place :: ys) :
    ∃ head, store.retrace child unpassed
        { id := place.cell, first := place.atom, rest := start none ys } = .ok head ∧
      start none (store.places owner) = some head.id := by
  induction xs using List.reverseRecOn generalizing place ys unpassed with
  | nil =>
      have hprevious := h.predecessor?_eq hsplit
      exact ⟨_, retrace_of_none hprevious, by rw [hsplit]; rfl⟩
  | append_singleton xs before ih =>
      have hprevious := h.predecessor?_eq hsplit
      rw [linkedTo_append, List.getLast?_append] at hprevious
      rw [linkedTo_append] at hcells
      let previous : Cell := { id := before.cell, first := before.atom, rest := some place.cell }
      have hsplit' : store.places owner = xs ++ before :: place :: ys := by
        rw [hsplit, List.append_assoc, List.singleton_append]
      have hnodup : ((store.places owner).map Place.cell).Nodup := h.arranged.distinct (some owner)
      have hfound : CellRow.ofCell previous ∈ unpassed :=
        hcells previous (List.mem_append_right _ (List.mem_singleton_self _))
      have hfind := (find?_key_eq_some hids).mpr ⟨hfound, rfl⟩
      rw [retrace_of_some hprevious hfind]
      apply ih (hids.sublist (List.erase_sublist.map _)) _ hsplit'
      intro cell hcell
      have hne : CellRow.ofCell cell ≠ .ofCell previous := by
        intro heq
        rw [CellRow.ofCell_injective heq] at hcell
        rw [hsplit', List.map_append, List.nodup_append'] at hnodup
        refine hnodup.2.2 (List.mem_map_of_mem (place_mem_of_mem_linkedTo hcell)) ?_
        simp [previous, Cell.place]
      exact (List.mem_erase_of_ne hne).mpr (hcells cell (List.mem_append_left _ hcell))

/-- The owner of a cell is the atom in whose list it stands. -/
theorem WellFormed.owner_eq (h : store.WellFormed) (child : AtomId)
    (hatom : store.StoresAtom atom) (hcell : cell ∈ linkedTo none (store.places atom.id)) :
    store.owner child cell = .ok atom := by
  obtain ⟨xs, place, ys, hsplit, rfl⟩ := exists_split_of_mem_linkedTo hcell
  have hnodup : ((store.places atom.id).map Place.cell).Nodup :=
    h.arranged.distinct (some atom.id)
  have hcells : ∀ cell ∈ linkedTo (some place.cell) xs,
      CellRow.ofCell cell ∈ store.cells.filter fun row => row.id != .text place.cell := by
    intro cell hcell
    have hlinked : cell ∈ linkedTo none (store.places atom.id) := by
      rw [hsplit, linkedTo_append]
      exact List.mem_append_left _ hcell
    have hne : cell.id ≠ place.cell := by
      rw [hsplit, List.map_append, List.nodup_append'] at hnodup
      refine fun heq => hnodup.2.2 (List.mem_map_of_mem (place_mem_of_mem_linkedTo hcell)) ?_
      simp [Cell.place, heq]
    exact List.mem_filter.mpr
      ⟨h.arranged.linked (some atom.id) cell hlinked, by simpa [CellRow.ofCell] using hne⟩
  obtain ⟨head, hretrace, hstart⟩ :=
    h.retrace_eq child (h.cellIdsNodup.sublist (List.filter_sublist.map _)) hcells hsplit
  rw [Store.owner]
  simp only [hretrace, h.headOwner?_eq hatom hstart, bind, Except.bind]
  rfl

/-! ## All owners -/

theorem holders_eq_ok (hread : ∀ row ∈ store.cells, ∃ cell, row.toCell = .ok cell)
    (child : AtomId) :
    ∃ cells, store.holders child = .ok cells ∧
      ∀ cell, cell ∈ cells ↔ store.StoresCell cell ∧ cell.first = child := by
  have hread : ∀ row ∈ (store.cells.filter fun row => row.first == .text child).mergeSort
      fun a b => a.id.le b.id, ∃ cell, row.toCell = .ok cell := fun row hrow =>
    hread row (List.mem_filter.mp (List.mem_mergeSort.mp hrow)).1
  obtain ⟨cells, hcells⟩ := exists_mapM_eq_ok hread
  refine ⟨cells, hcells, fun cell => ?_⟩
  rw [mem_of_mapM_eq_ok hcells, storesCell_iff]
  constructor
  · rintro ⟨row, hrow, hread⟩
    obtain rfl := CellRow.toCell_eq_ok.mp hread
    obtain ⟨hmem, hfirst⟩ := List.mem_filter.mp (List.mem_mergeSort.mp hrow)
    exact ⟨hmem, by simpa [CellRow.ofCell] using hfirst⟩
  · rintro ⟨hmem, rfl⟩
    refine ⟨.ofCell cell, List.mem_mergeSort.mpr (List.mem_filter.mpr ⟨hmem, ?_⟩), ?_⟩
    · simp [CellRow.ofCell]
    · exact CellRow.toCell_ofCell cell

/-- A stored cell stands in the list of some stored atom. -/
theorem WellFormed.exists_owner (h : store.WellFormed) (hcell : store.StoresCell cell) :
    ∃ atom, store.StoresAtom atom ∧ cell ∈ linkedTo none (store.places atom.id) := by
  obtain ⟨key, hlinked⟩ := h.arranged.storesCell_iff_linked.mp hcell
  cases key with
  | none => simp at hlinked
  | some id =>
      obtain ⟨atom, _, hatom, rfl, -⟩ :=
        h.exists_of_mem_places (place_mem_of_mem_linkedTo hlinked)
      exact ⟨atom, hatom, hlinked⟩

theorem nodup_eraseDups {α : Type} [BEq α] [LawfulBEq α] (xs : List α) : xs.eraseDups.Nodup := by
  cases xs with
  | nil => exact List.nodup_nil
  | cons x xs =>
      rw [List.eraseDups_cons, List.nodup_cons]
      refine ⟨fun hmem => ?_, nodup_eraseDups _⟩
      simp [List.mem_eraseDups] at hmem
termination_by xs.length
decreasing_by exact Nat.lt_succ_of_le (List.length_filter_le _ xs)

theorem isOlder_iff {a b : Atom} :
    isOlder a b ↔ a.created < b.created ∨ a.created = b.created ∧ a.id ≤ b.id := by
  simp [isOlder]

theorem isOlder_trans (a b c : Atom) (hab : isOlder a b) (hbc : isOlder b c) : isOlder a c := by
  rw [isOlder_iff] at hab hbc ⊢
  rcases hab with hab | ⟨hab, hid⟩
  · rcases hbc with hbc | ⟨hbc, -⟩ <;> omega
  · rcases hbc with hbc | ⟨hbc, hid'⟩
    · omega
    · exact Or.inr ⟨hab.trans hbc, String.le_trans hid hid'⟩

theorem isOlder_total (a b : Atom) : (isOlder a b || isOlder b a) = true := by
  rw [Bool.or_eq_true, isOlder_iff, isOlder_iff]
  rcases Int.lt_trichotomy a.created b.created with hlt | heq | hlt
  · exact Or.inl (Or.inl hlt)
  · rcases String.le_total a.id b.id with hid | hid
    · exact Or.inl (Or.inr ⟨heq, hid⟩)
    · exact Or.inr (Or.inr ⟨heq.symm, hid⟩)
  · exact Or.inr (Or.inl hlt)

/-- The owners of an atom are found: those in whose lists it stands, each once, by age. -/
theorem WellFormed.owners_eq_ok (h : store.WellFormed) (child : AtomId) :
    ∃ owners, store.owners child = .ok owners ∧ owners.Nodup ∧
      owners.Pairwise (fun a b => isOlder a b) ∧
      ∀ atom, atom ∈ owners ↔
        store.StoresAtom atom ∧ ∃ place ∈ store.places atom.id, place.atom = child := by
  obtain ⟨cells, hcells, hmem⟩ := holders_eq_ok h.cellsReadable child
  have howner : ∀ cell ∈ cells, ∃ atom, store.owner child cell = .ok atom := by
    intro cell hcell
    obtain ⟨atom, hatom, hlinked⟩ := h.exists_owner ((hmem cell).mp hcell).1
    exact ⟨atom, h.owner_eq child hatom hlinked⟩
  obtain ⟨found, hfound⟩ := exists_mapM_eq_ok howner
  refine ⟨found.eraseDups.mergeSort isOlder, ?_, ?_, ?_, fun atom => ?_⟩
  · rw [owners]
    simp only [hcells, hfound, bind, Except.bind]
    rfl
  · exact (List.mergeSort_perm _ _).nodup_iff.mpr (nodup_eraseDups found)
  · exact List.pairwise_mergeSort isOlder_trans isOlder_total _
  · rw [List.mem_mergeSort, List.mem_eraseDups, mem_of_mapM_eq_ok hfound]
    constructor
    · rintro ⟨cell, hcell, hrun⟩
      obtain ⟨hstored, hfirst⟩ := (hmem cell).mp hcell
      obtain ⟨other, hother, hlinked⟩ := h.exists_owner hstored
      cases (h.owner_eq child hother hlinked).symm.trans hrun
      exact ⟨hother, cell.place, place_mem_of_mem_linkedTo hlinked, hfirst⟩
    · rintro ⟨hatom, place, hplace, rfl⟩
      obtain ⟨cell, hlinked, rfl⟩ := exists_mem_linkedTo none hplace
      have hstored : store.StoresCell cell :=
        storesCell_iff.mpr (h.arranged.linked (some atom.id) cell hlinked)
      exact ⟨cell, (hmem cell).mpr ⟨hstored, rfl⟩, h.owner_eq _ hatom hlinked⟩

end Store

end Outline
