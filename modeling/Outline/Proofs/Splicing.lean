import Outline.Proofs.Relinking

/-!
# Inserting into lists and deleting from them

Inserting and deleting at a position are sequences of pointer moves.  On a
well-formed store each move succeeds, and together they do to the places of the
list what insertion and deletion do to a plain list.
-/

namespace Outline.Store

variable {store : Store} {segments : Segments}

/-! ## Creating and removing loose cells -/

/-- The store with a new cell that nothing points to. -/
def withLooseCell (store : Store) (child : AtomId) : Store :=
  { store with
    cells := store.cells ++ [.ofCell { id := store.supply.nextIdentifier, first := child }]
    supply := store.supply.afterDraw }

/-- The store without a cell. -/
def withoutCell (store : Store) (id : CellId) : Store :=
  { store with cells := store.cells.filter fun row => row.id != .text id }

namespace Arranged

/-- Nothing points to a cell that does not exist. -/
theorem not_pointed (h : store.Arranged segments) {id : CellId} (hid : ¬store.HasCell id) :
    (∀ row ∈ store.atoms, row.notes ≠ some (.text id)) ∧
      ∀ row ∈ store.cells, row.rest ≠ some (.text id) := by
  constructor
  · intro row hrow hnotes
    obtain ⟨owner, -, hstart⟩ := h.exists_start_of_notes hrow hnotes
    exact hid (h.hasCell_iff.mpr ⟨some owner, exists_mem_of_start hstart⟩)
  · intro row hrow hrest
    obtain ⟨key, -, -, -, -, next, hnext, hcell⟩ := h.exists_next_of_rest hrow hrest
    exact hid (h.hasCell_iff.mpr ⟨key, next, List.mem_of_mem_tail hnext, hcell⟩)

theorem insertCell_ok (h : store.Arranged segments) (cell : Cell) (hid : ¬store.HasCell cell.id) :
    insertCell cell store = .ok { store with cells := store.cells ++ [.ofCell cell] } := by
  obtain ⟨hnotes, hrests⟩ := h.not_pointed hid
  have hunused : ¬(store.cells.any fun other => other.id == (CellRow.ofCell cell).id) = true := by
    intro hany
    obtain ⟨row, hrow, hrowId⟩ := List.any_eq_true.mp hany
    exact hid ⟨row, hrow, by simpa [CellRow.ofCell] using hrowId⟩
  have hmended :
      (store.atoms.filter fun other => other.notes == some (CellRow.ofCell cell).id).length +
        (store.cells.filter fun other => other.rest == some (CellRow.ofCell cell).id).length =
          0 := by
    simp only [Nat.add_eq_zero_iff, List.length_eq_zero_iff, List.filter_eq_nil_iff, beq_iff_eq]
    exact ⟨hnotes, hrests⟩
  have hsettle : store.references.settle (· - 0) = .ok store.references := by
    cases store.references <;> simp [ReferenceCheck.settle]
  simp only [insertCell]
  rw [if_neg hunused]
  simp only [hmended, hsettle]
  rfl

theorem withLooseCell (h : store.Arranged segments) (hloose : segments none = [])
    {child : AtomId} (hchild : store.HasAtom child)
    (hfresh : ¬store.HasCell store.supply.nextIdentifier) :
    (store.withLooseCell child).Arranged
      (segments.loosen [⟨store.supply.nextIdentifier, child⟩]) := by
  have hnew : ∀ key, ∀ place ∈ segments key, place.cell ≠ store.supply.nextIdentifier := by
    intro key place hplace hcell
    exact hfresh (h.hasCell_iff.mpr ⟨key, place, hplace, hcell⟩)
  constructor
  case readable => exact h.readable
  case atomIds => exact h.atomIds
  case heads => exact h.heads
  case owned => exact h.owned
  case cellIds =>
    simp only [Store.withLooseCell, List.map_append, List.map_singleton]
    rw [List.nodup_append]
    refine ⟨h.cellIds, List.nodup_singleton _, ?_⟩
    intro d hd d' hd' heq
    rw [heq, List.mem_singleton.mp hd'] at hd
    exact hfresh (hasCell_iff_mem.mpr hd)
  case linked =>
    intro key cell hcell
    cases key with
    | none =>
        obtain rfl := List.mem_singleton.mp hcell
        simp [Store.withLooseCell]
    | some id => exact List.mem_append_left _ (h.linked (some id) cell hcell)
  case covered =>
    intro row hrow
    rcases List.mem_append.mp hrow with hrow | hrow
    · obtain ⟨key, place, hplace, hid⟩ := h.covered row hrow
      cases key with
      | none => simp [hloose] at hplace
      | some id => exact ⟨some id, place, hplace, hid⟩
    · obtain rfl := List.mem_singleton.mp hrow
      exact ⟨none, ⟨store.supply.nextIdentifier, child⟩, by simp, rfl⟩
  case distinct =>
    intro key
    cases key with
    | none => simp
    | some id => exact h.distinct (some id)
  case disjoint =>
    intro key key' place place' hplace hplace' heq
    cases key <;> cases key'
    case none.none => rfl
    case none.some id =>
      obtain rfl := List.mem_singleton.mp hplace
      exact absurd heq.symm (hnew _ place' hplace')
    case some.none id =>
      obtain rfl := List.mem_singleton.mp hplace'
      exact absurd heq (hnew _ place hplace)
    case some.some id id' => exact h.disjoint hplace hplace' heq
  case held =>
    intro key place hplace
    cases key with
    | none =>
        obtain rfl := List.mem_singleton.mp hplace
        exact hchild
    | some id => exact h.held (some id) place hplace

theorem createCell_ok (h : store.Arranged segments) {child : AtomId}
    (hchild : store.HasAtom child) (hfresh : ¬store.HasCell store.supply.nextIdentifier) :
    createCell child store =
      .ok { id := store.supply.nextIdentifier, first := child } (store.withLooseCell child) := by
  obtain ⟨atom, hatom, -, -⟩ := h.exists_atom hchild
  have hdrawn : { store with supply := store.supply.afterDraw }.Arranged segments :=
    h.of_rows rfl rfl
  have hinsert :=
    hdrawn.insertCell_ok { id := store.supply.nextIdentifier, first := child } hfresh
  rw [createCell, bind_of_ok (look_of_ok (atom_eq_ok.mp hatom))]
  change (drawIdentifier >>= _) store = _
  rw [bind_of_ok (drawIdentifier_eq store), bind_of_ok (change_of_ok hinsert)]
  rfl

theorem removeCell_ok (h : store.Arranged segments) {place : Place}
    (hloose : segments none = [place]) :
    removeCell place.cell store = .ok () (store.withoutCell place.cell) := by
  have hrow := h.linked none { id := place.cell, first := place.atom } (by simp [hloose])
  have hstart : start none (segments none) = some place.cell := by rw [hloose, start_cons]
  have hcell : store.cell? place.cell = .ok (some { id := place.cell, first := place.atom }) := by
    have hfind : store.cellRow? place.cell = some _ :=
      (find?_key_eq_some h.cellIds).mpr ⟨hrow, rfl⟩
    simp [cell?, hfind, Except.map]
  have hprevious : store.predecessor? place.cell = .ok none := by
    have hfind : (store.cells.find? fun row => row.rest == some (.text place.cell)) = none := by
      rw [List.find?_eq_none]
      intro row hrow hrest
      exact h.rest_ne_loose hrow hstart (by simpa using hrest)
    simp [predecessor?, hfind]
  have howner : store.headOwner? place.cell = .ok none := by
    have hfind : (store.atoms.find? fun row => row.notes == some (.text place.cell)) = none := by
      rw [List.find?_eq_none]
      intro row hrow hnotes
      exact h.notes_ne_loose hrow hstart (by simpa using hnotes)
    simp [headOwner?, hfind]
  rw [removeCell, bind_of_ok (look_of_ok hcell)]
  change (look (·.predecessor? place.cell) >>= _) store = _
  rw [bind_of_ok (look_of_ok hprevious)]
  change (look (·.headOwner? place.cell) >>= _) store = _
  rw [bind_of_ok (look_of_ok howner)]
  rfl

theorem withoutCell (h : store.Arranged segments) {place : Place}
    (hloose : segments none = [place]) :
    (store.withoutCell place.cell).Arranged (segments.loosen []) := by
  have hother : ∀ id, ∀ place' ∈ segments (some id), place'.cell ≠ place.cell := by
    intro id place' hplace' heq
    have hmem : place ∈ segments none := by simp [hloose]
    cases h.disjoint hplace' hmem heq
  constructor
  case readable => exact h.readable
  case atomIds => exact h.atomIds
  case heads => exact h.heads
  case owned => exact h.owned
  case cellIds => exact h.cellIds.sublist (List.filter_sublist.map _)
  case linked =>
    intro key cell hcell
    cases key with
    | none => simp at hcell
    | some id =>
        have hne : cell.id ≠ place.cell := hother id _ (place_mem_of_mem_linkedTo hcell)
        exact List.mem_filter.mpr ⟨h.linked (some id) cell hcell, by simpa [CellRow.ofCell]⟩
  case covered =>
    intro row hrow
    obtain ⟨hrow, hid⟩ := List.mem_filter.mp hrow
    obtain ⟨key, place', hplace', hrowId⟩ := h.covered row hrow
    cases key with
    | none =>
        rw [hloose, List.mem_singleton] at hplace'
        simp [hrowId, hplace'] at hid
    | some id => exact ⟨some id, place', hplace', hrowId⟩
  case distinct =>
    intro key
    cases key with
    | none => simp
    | some id => exact h.distinct (some id)
  case disjoint =>
    intro key key' place' place'' hplace' hplace'' heq
    cases key <;> cases key'
    case some.some id id' => exact h.disjoint hplace' hplace'' heq
    all_goals simp at hplace' hplace''
  case held =>
    intro key place' hplace'
    cases key with
    | none => simp at hplace'
    | some id => exact h.held (some id) place' hplace'

/-! ## Moving the pointer behind the places that are kept -/

/-- Linking what is loose behind the places of a list that are kept. -/
theorem link_loose (h : store.Arranged segments) (owner : AtomId) (kept cut : List Place)
    (howner : store.HasAtom owner) (hsplit : segments (some owner) = kept ++ cut) :
    ∃ store', link owner (linkedTo (start none cut) kept).getLast? (start none (segments none))
        store = .ok () store' ∧
      store'.Arranged (segments.exchange owner kept cut) ∧ Relinked store store' ∧
      store'.supply = store.supply := by
  rcases List.eq_nil_or_concat kept with rfl | ⟨xs, place, rfl⟩
  · obtain ⟨hrun, harranged⟩ := h.setNotes_loose howner
    rw [hsplit] at harranged
    exact ⟨_, hrun, harranged, relinked_withNotes _ _, rfl⟩
  · rw [List.concat_eq_append] at hsplit ⊢
    obtain ⟨hrun, harranged⟩ := h.setRest_loose owner xs place cut (by simpa using hsplit)
    have hlast : (linkedTo (start none cut) (xs ++ [place])).getLast? =
        some { id := place.cell, first := place.atom, rest := start none cut } := by
      rw [linkedTo_append]
      simp
    rw [hlast]
    exact ⟨_, hrun, harranged, relinked_withRest _ _, rfl⟩

end Arranged

/-! ## Inserting and deleting -/

/-- After a change to the list of `owner`, its places are the given ones, and
nothing else has changed but pointers. -/
structure Relisted (before after : Store) (owner : AtomId) (places : List Place) : Prop where
  relinked : Relinked before after
  wellFormed : after.WellFormed
  places_eq : after.places = Function.update before.places owner places

theorem Arranged.relisted {before after : Store} (h : after.Arranged segments) (owner : AtomId)
    (hloose : segments none = []) (hrelinked : Relinked before after)
    (hother : ∀ id, id ≠ owner → segments (some id) = before.places id) :
    Relisted before after owner (segments (some owner)) := by
  refine ⟨hrelinked, h.wellFormed hloose, ?_⟩
  funext id
  rw [h.places_eq]
  by_cases hid : id = owner
  · rw [hid, Function.update_self]
  · rw [Function.update_of_ne hid, hother id hid]

theorem WellFormed.chain_eq (h : store.WellFormed) {atom : Atom} (hatom : store.StoresAtom atom) :
    store.chain atom = .ok (linkedTo none (store.places atom.id)) :=
  h.arranged.chain_eq hatom

theorem WellFormed.notes_eq (h : store.WellFormed) {atom : Atom} (hatom : store.StoresAtom atom) :
    atom.notes = start none (store.places atom.id) :=
  h.arranged.notes_eq hatom

/-- Inserting behind the first places of a list. -/
theorem insertAt_ok (h : store.WellFormed) {owner child : AtomId} (howner : store.HasAtom owner)
    (hchild : store.HasAtom child) (hfresh : ¬store.HasCell store.supply.nextIdentifier)
    {xs ys : List Place} (hsplit : store.places owner = xs ++ ys) :
    ∃ store',
      insertAt owner xs.length child store =
        .ok { id := store.supply.nextIdentifier, first := child, rest := start none ys } store' ∧
      Relisted store store' owner (xs ++ ⟨store.supply.nextIdentifier, child⟩ :: ys) ∧
      store'.supply = store.supply.afterDraw := by
  obtain ⟨atom, hatom, hstored, rfl⟩ := h.arranged.exists_atom howner
  have hcreated := h.arranged.createCell_ok hchild hfresh
  have hloosened := h.arranged.withLooseCell rfl hchild hfresh
  -- The new cell takes the place of the cells behind the kept ones, which become loose.
  obtain ⟨linked, hlink, hlinked, hrelinked, hsupply⟩ :=
    hloosened.link_loose atom.id xs ys howner hsplit
  have hkept : ((linkedTo none (store.places atom.id)).take xs.length).getLast? =
      (linkedTo (start none ys) xs).getLast? := by
    rw [hsplit, take_linkedTo_append]
  have hrest : (linkedTo (start none ys) xs).getLast?.elim atom.notes Cell.rest =
      start none ys := by
    rw [h.notes_eq hstored, hsplit]
    exact getLast?_linkedTo_elim xs ys
  have hrange : ¬(linkedTo none (store.places atom.id)).length < xs.length := by
    rw [length_linkedTo, hsplit, List.length_append]
    omega
  rw [Segments.loosen_none, start_cons] at hlink
  rw [insertAt, bind_of_ok (look_of_ok hatom), bind_of_ok (look_of_ok (h.chain_eq hstored))]
  simp only [if_neg hrange, hkept]
  rw [bind_of_ok hcreated, bind_of_ok hlink]
  simp only [hrest]
  have hbefore : Relinked store linked :=
    ⟨hrelinked.atoms, hrelinked.index, hrelinked.references⟩
  cases ys with
  | nil =>
      have hrelisted := hlinked.relisted atom.id rfl hbefore fun id hid => by
        rw [Segments.exchange_of_ne hid]
        rfl
      refine ⟨linked, by simp; rfl, ?_, hsupply⟩
      simpa using hrelisted
  | cons y ys =>
      -- The loose cells come back behind the new one.
      obtain ⟨hrun, hjoined⟩ := hlinked.setRest_loose atom.id xs
        ⟨store.supply.nextIdentifier, child⟩ [] (by simp)
      have hrelisted := hjoined.relisted atom.id rfl (hbefore.trans (relinked_withRest _ _))
        fun id hid => by
          rw [Segments.exchange_of_ne hid, Segments.exchange_of_ne hid]
          rfl
      refine ⟨linked.withRest store.supply.nextIdentifier (some y.cell), ?_,
        by simpa using hrelisted, hsupply⟩
      simp only [start_cons, Option.isSome_some, ↓reduceIte]
      rw [Segments.exchange_none, start_cons] at hrun
      rw [bind_of_ok hrun]
      rfl

/-- The end of a deletion: the last place of a list gives way to what is loose,
and its cell is removed. -/
theorem Arranged.unlink_last (h : store.Arranged segments) (owner : AtomId) (xs : List Place)
    (place : Place) (howner : store.HasAtom owner)
    (hsplit : segments (some owner) = xs ++ [place]) :
    ∃ store',
      (do
        link owner (linkedTo (some place.cell) xs).getLast? (start none (segments none))
        removeCell place.cell
        return place.atom : StoreM AtomId) store = .ok place.atom store' ∧
      store'.Arranged ((segments.exchange owner xs [place]).loosen []) ∧
      Relinked store store' ∧ store'.supply = store.supply := by
  obtain ⟨linked, hlink, hlinked, hrelinked, hsupply⟩ := h.link_loose owner xs [place] howner hsplit
  rw [start_cons] at hlink
  refine ⟨linked.withoutCell place.cell, ?_, hlinked.withoutCell rfl,
    ⟨hrelinked.atoms, hrelinked.index, hrelinked.references⟩, hsupply⟩
  rw [bind_of_ok hlink, bind_of_ok (hlinked.removeCell_ok rfl)]
  rfl

/-- Deleting the place behind the first places of a list. -/
theorem deleteAt_ok (h : store.WellFormed) {owner : AtomId} (howner : store.HasAtom owner)
    {xs ys : List Place} {place : Place} (hsplit : store.places owner = xs ++ place :: ys) :
    ∃ store',
      deleteAt owner xs.length store = .ok place.atom store' ∧
      Relisted store store' owner (xs ++ ys) ∧ store'.supply = store.supply := by
  obtain ⟨atom, hatom, hstored, rfl⟩ := h.arranged.exists_atom howner
  have htarget : (linkedTo none (store.places atom.id))[xs.length]? =
      some { id := place.cell, first := place.atom, rest := start none ys } := by
    rw [hsplit]
    exact getElem?_linkedTo_append_cons xs ys place
  have hkept : ((linkedTo none (store.places atom.id)).take xs.length).getLast? =
      (linkedTo (some place.cell) xs).getLast? := by
    rw [hsplit, take_linkedTo_append, start_cons]
  rw [deleteAt, bind_of_ok (look_of_ok hatom), bind_of_ok (look_of_ok (h.chain_eq hstored))]
  simp only [htarget, hkept]
  cases ys with
  | nil =>
      obtain ⟨store', hrun, harranged, hrelinked, hsupply⟩ :=
        h.arranged.unlink_last atom.id xs place howner hsplit
      have hrelisted := harranged.relisted atom.id rfl hrelinked fun id hid => by
        rw [Segments.loosen_some, Segments.exchange_of_ne hid]
        rfl
      exact ⟨store', hrun, by simpa using hrelisted, hsupply⟩
  | cons y ys =>
      -- The cells behind the target become loose first.
      obtain ⟨hcut, hloosened⟩ := h.arranged.setRest_loose atom.id xs place (y :: ys) hsplit
      obtain ⟨store', hrun, harranged, hrelinked, hsupply⟩ :=
        hloosened.unlink_last atom.id xs place howner (by simp)
      have hrelisted := harranged.relisted atom.id rfl ((relinked_withRest _ _).trans hrelinked)
        fun id hid => by
          rw [Segments.loosen_some, Segments.exchange_of_ne hid, Segments.exchange_of_ne hid]
          rfl
      refine ⟨store', ?_, by simpa using hrelisted, hsupply⟩
      simp only [start_cons, Option.isSome_some, ↓reduceIte]
      rw [Segments.ofLists_none, start_nil] at hcut hrun
      rw [bind_of_ok hcut]
      exact hrun

/-! ## Failures -/

theorem insertAt_noOwner {owner child : AtomId} {position : Nat} (howner : ¬store.HasAtom owner) :
    insertAt owner position child store = .error (.noAtom owner) store := by
  rw [insertAt, bind_of_error (look_of_error (atom_eq_noAtom howner))]

theorem deleteAt_noOwner {owner : AtomId} {position : Nat} (howner : ¬store.HasAtom owner) :
    deleteAt owner position store = .error (.noAtom owner) store := by
  rw [deleteAt, bind_of_error (look_of_error (atom_eq_noAtom howner))]

theorem insertAt_outOfRange (h : store.WellFormed) {owner child : AtomId} {position : Nat}
    (howner : store.HasAtom owner) (hposition : (store.places owner).length < position) :
    insertAt owner position child store =
      .error (.outOfRange position (store.places owner).length) store := by
  obtain ⟨atom, hatom, hstored, rfl⟩ := h.arranged.exists_atom howner
  rw [insertAt, bind_of_ok (look_of_ok hatom), bind_of_ok (look_of_ok (h.chain_eq hstored))]
  simp only [length_linkedTo, if_pos hposition]
  rfl

theorem deleteAt_outOfRange (h : store.WellFormed) {owner : AtomId} {position : Nat}
    (howner : store.HasAtom owner) (hposition : (store.places owner).length ≤ position) :
    deleteAt owner position store =
      .error (.outOfRange position (store.places owner).length) store := by
  obtain ⟨atom, hatom, hstored, rfl⟩ := h.arranged.exists_atom howner
  have hnone : (linkedTo none (store.places atom.id))[position]? = none :=
    List.getElem?_eq_none (by rwa [length_linkedTo])
  rw [deleteAt, bind_of_ok (look_of_ok hatom), bind_of_ok (look_of_ok (h.chain_eq hstored))]
  simp only [hnone, length_linkedTo]
  rfl

theorem insertAt_noChild (h : store.WellFormed) {owner child : AtomId} {position : Nat}
    (howner : store.HasAtom owner) (hposition : position ≤ (store.places owner).length)
    (hchild : ¬store.HasAtom child) :
    insertAt owner position child store = .error (.noAtom child) store := by
  obtain ⟨atom, hatom, hstored, rfl⟩ := h.arranged.exists_atom howner
  have hcreate : createCell child store = .error (.noAtom child) store := by
    rw [createCell, bind_of_ok (look_of_ok (atom?_eq_none.mpr hchild))]
    rfl
  rw [insertAt, bind_of_ok (look_of_ok hatom), bind_of_ok (look_of_ok (h.chain_eq hstored))]
  simp only [length_linkedTo, if_neg (Nat.not_lt.mpr hposition)]
  rw [bind_of_error hcreate]

theorem insertCell_taken {cell : Cell} (h : store.HasCell cell.id) :
    insertCell cell store = .error (.database (.notUnique (.cell .id))) := by
  have hused : (store.cells.any fun other => other.id == (CellRow.ofCell cell).id) = true := by
    obtain ⟨row, hrow, hid⟩ := h
    exact List.any_eq_true.mpr ⟨row, hrow, by simp [hid, CellRow.ofCell]⟩
  simp only [insertCell]
  rw [if_pos hused]
  rfl

/-- An identifier that is in use is not taken for a new cell. -/
theorem insertAt_taken (h : store.WellFormed) {owner child : AtomId} {position : Nat}
    (howner : store.HasAtom owner) (hposition : position ≤ (store.places owner).length)
    (hchild : store.HasAtom child) (htaken : store.HasCell store.supply.nextIdentifier) :
    insertAt owner position child store =
      .error (.database (.notUnique (.cell .id)))
        { store with supply := store.supply.afterDraw } := by
  obtain ⟨atom, hatom, hstored, rfl⟩ := h.arranged.exists_atom howner
  obtain ⟨childAtom, hchildAtom, -, -⟩ := h.arranged.exists_atom hchild
  have hcreate : createCell child store = .error (.database (.notUnique (.cell .id)))
      { store with supply := store.supply.afterDraw } := by
    rw [createCell, bind_of_ok (look_of_ok (atom_eq_ok.mp hchildAtom))]
    change (drawIdentifier >>= _) store = _
    rw [bind_of_ok (drawIdentifier_eq store)]
    exact bind_of_error (change_of_error (insertCell_taken htaken))
  rw [insertAt, bind_of_ok (look_of_ok hatom), bind_of_ok (look_of_ok (h.chain_eq hstored))]
  simp only [length_linkedTo, if_neg (Nat.not_lt.mpr hposition)]
  rw [bind_of_error hcreate]

/-- An insertion either changes the list of its owner, or fails and changes nothing but
the supply. -/
theorem insertAt_cases (h : store.WellFormed) (owner : AtomId) (position : Nat) (child : AtomId) :
    (∃ xs ys cell store', store.places owner = xs ++ ys ∧
      insertAt owner position child store = .ok cell store' ∧
      Relisted store store' owner (xs ++ ⟨store.supply.nextIdentifier, child⟩ :: ys)) ∨
    ∃ cause supply, insertAt owner position child store = .error cause { store with supply } := by
  by_cases howner : store.HasAtom owner
  swap
  · exact Or.inr ⟨_, _, insertAt_noOwner howner⟩
  by_cases hposition : position ≤ (store.places owner).length
  swap
  · exact Or.inr ⟨_, _, insertAt_outOfRange h howner (Nat.lt_of_not_le hposition)⟩
  by_cases hchild : store.HasAtom child
  swap
  · exact Or.inr ⟨_, _, insertAt_noChild h howner hposition hchild⟩
  by_cases hfresh : store.HasCell store.supply.nextIdentifier
  · exact Or.inr ⟨_, _, insertAt_taken h howner hposition hchild hfresh⟩
  obtain ⟨xs, ys, hsplit, rfl⟩ : ∃ xs ys,
      store.places owner = xs ++ ys ∧ xs.length = position :=
    ⟨_, _, (List.take_append_drop position _).symm, List.length_take_of_le hposition⟩
  obtain ⟨store', hrun, hrelisted, -⟩ := insertAt_ok h howner hchild hfresh hsplit
  exact Or.inl ⟨xs, ys, _, store', hsplit, hrun, hrelisted⟩

/-- A deletion either changes the list of its owner, or fails and changes nothing. -/
theorem deleteAt_cases (h : store.WellFormed) (owner : AtomId) (position : Nat) :
    (∃ xs place ys store', store.places owner = xs ++ place :: ys ∧
      deleteAt owner position store = .ok place.atom store' ∧
      Relisted store store' owner (xs ++ ys)) ∨
    ∃ cause, deleteAt owner position store = .error cause store := by
  by_cases howner : store.HasAtom owner
  swap
  · exact Or.inr ⟨_, deleteAt_noOwner howner⟩
  by_cases hposition : position < (store.places owner).length
  swap
  · exact Or.inr ⟨_, deleteAt_outOfRange h howner (Nat.le_of_not_lt hposition)⟩
  obtain ⟨xs, place, ys, hsplit, rfl⟩ : ∃ xs place ys,
      store.places owner = xs ++ place :: ys ∧ xs.length = position := by
    have hsplit := (List.take_append_drop position (store.places owner)).symm
    rw [List.drop_eq_getElem_cons hposition] at hsplit
    exact ⟨_, _, _, hsplit, List.length_take_of_le (Nat.le_of_lt hposition)⟩
  obtain ⟨store', hrun, hrelisted, -⟩ := deleteAt_ok h howner hsplit
  exact Or.inl ⟨xs, place, ys, store', hsplit, hrun, hrelisted⟩

/-! ## Rows after a change to a list -/

/-- The rows of an atom before and after pointers were moved. -/
theorem Relinked.withoutNotes_atomRow? {before after : Store} (h : Relinked before after)
    (id : AtomId) : (after.atomRow? id).map AtomRow.withoutNotes =
      (before.atomRow? id).map AtomRow.withoutNotes := by
  have hrows := congrArg (List.find? fun row => row.id == .text id) h.atoms
  rw [List.find?_map, List.find?_map] at hrows
  exact hrows

/-- The list pointer of a row begins the list of its atom. -/
theorem WellFormed.notes_atomRow? (h : store.WellFormed) {id : AtomId} {row : AtomRow}
    (hrow : store.atomRow? id = some row) :
    row.notes = (start none (store.places id)).map .text :=
  h.arranged.heads row (List.mem_of_find?_eq_some hrow) id (by simpa using List.find?_some hrow)

/-- Rows that agree but for the list pointer agree if the lists do. -/
theorem atomRow?_eq_of_places {before after : Store} (hbefore : before.WellFormed)
    (hafter : after.WellFormed) {id : AtomId}
    (hrow : (after.atomRow? id).map AtomRow.withoutNotes =
      (before.atomRow? id).map AtomRow.withoutNotes)
    (hplaces : after.places id = before.places id) : after.atomRow? id = before.atomRow? id := by
  cases hold : before.atomRow? id with
  | none => simpa [hold] using hrow
  | some old =>
      rw [hold, Option.map_some, Option.map_eq_some_iff] at hrow
      obtain ⟨new, hnew, heq⟩ := hrow
      have hnotes : new.notes = old.notes := by
        rw [hafter.notes_atomRow? hnew, hbefore.notes_atomRow? hold, hplaces]
      rw [hnew]
      cases new
      cases old
      simp_all [AtomRow.withoutNotes]

theorem Relisted.places_self {before after : Store} {owner : AtomId} {places : List Place}
    (h : Relisted before after owner places) : after.places owner = places := by
  rw [h.places_eq, Function.update_self]

theorem Relisted.places_of_ne {before after : Store} {owner id : AtomId} {places : List Place}
    (h : Relisted before after owner places) (hid : id ≠ owner) :
    after.places id = before.places id := by
  rw [h.places_eq, Function.update_of_ne hid]

theorem Relisted.atomRow?_of_ne {before after : Store} {owner id : AtomId} {places : List Place}
    (h : Relisted before after owner places) (hbefore : before.WellFormed) (hid : id ≠ owner) :
    after.atomRow? id = before.atomRow? id :=
  atomRow?_eq_of_places hbefore h.wellFormed (h.relinked.withoutNotes_atomRow? id)
    (h.places_of_ne hid)

end Outline.Store
