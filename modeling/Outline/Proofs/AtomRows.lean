import Outline.Listing
import Outline.Proofs.Splicing

/-!
# Creating, updating and removing atoms

These operations touch one row of the atoms and leave every list as it is.  An
atom comes back from its row as it went in, but for the sign of a zero.
-/

namespace Outline

namespace Single

variable {x : Single}

theorem isFinite_stored (h : x.isFinite) : x.stored.isFinite := by
  rw [stored]
  split
  · decide
  · exact h

end Single

/-- An atom with its numbers as they are stored. -/
def Atom.asStored (atom : Atom) : Atom :=
  { atom with
    priority := atom.priority.map Single.stored
    sharability := atom.sharability.map Single.stored
    weight := atom.weight.map Single.stored }

/-- An atom as it is created. -/
def Atom.ofDefaults (id : AtomId) (created : Int) (defaults : Defaults) : Atom where
  id := id
  created := created
  weight := defaults.weight
  sharability := defaults.sharability

namespace Atom

variable {atom : Atom}

theorem validate_eq_ok :
    atom.validate = .ok () ↔
      ¬Text.isBlankText atom.id = true ∧ ¬atom.created < 0 ∧ isUnsetOrFinite atom.priority ∧
        isUnsetOrFinite atom.sharability ∧ isUnsetOrFinite atom.weight := by
  rw [validate]
  split_ifs <;> simp_all

end Atom

theorem isUnsetOrFinite_stored {x : Option Single} (h : isUnsetOrFinite x) :
    isUnsetOrFinite (x.map Single.stored) := by
  cases x with
  | none => rfl
  | some x => exact Single.isFinite_stored h

namespace AtomRow

theorem readOptional_numberDatum (column : Column) (x : Option Single) :
    Column.readOptional column.readSingle (x.map numberDatum) = .ok (x.map Single.stored) := by
  cases x <;> rfl

/-- The row of an atom reads as that atom. -/
theorem reads_ofAtom {atom : Atom} (h : atom.validate = .ok ()) :
    (ofAtom atom).Reads atom.asStored where
  id := rfl
  value := rfl
  byname := rfl
  created := rfl
  priority := readOptional_numberDatum _ _
  sharability := readOptional_numberDatum _ _
  weight := readOptional_numberDatum _ _
  shortcut := rfl
  notes := rfl
  valid := by
    rw [Atom.validate_eq_ok] at h ⊢
    obtain ⟨hid, hcreated, hpriority, hsharability, hweight⟩ := h
    exact ⟨hid, hcreated, isUnsetOrFinite_stored hpriority, isUnsetOrFinite_stored hsharability,
      isUnsetOrFinite_stored hweight⟩

/-- A row with the properties of an atom reads as that atom, but for what an
update leaves alone. -/
theorem Reads.withProperties {row : AtomRow} {old atom : Atom} (h : row.Reads old)
    (hvalid : atom.validate = .ok ()) :
    (row.withProperties atom).Reads
      { atom.asStored with id := old.id, created := old.created, notes := old.notes } where
  id := h.id
  value := rfl
  byname := rfl
  created := h.created
  priority := readOptional_numberDatum _ _
  sharability := readOptional_numberDatum _ _
  weight := readOptional_numberDatum _ _
  shortcut := rfl
  notes := h.notes
  valid := by
    have hold := Atom.validate_eq_ok.mp h.valid
    rw [Atom.validate_eq_ok] at hvalid ⊢
    obtain ⟨-, -, hpriority, hsharability, hweight⟩ := hvalid
    exact ⟨hold.1, hold.2.1, isUnsetOrFinite_stored hpriority, isUnsetOrFinite_stored hsharability,
      isUnsetOrFinite_stored hweight⟩

end AtomRow

namespace Store

variable {store : Store} {segments : Segments}

/-! ## One row more -/

theorem atomRow?_eq_none {id : AtomId} : store.atomRow? id = none ↔ ¬store.HasAtom id := by
  have hfind : store.atomRow? id = none ↔ ∀ row ∈ store.atoms, row.id ≠ .text id :=
    find?_key_eq_none
  rw [hfind]
  simp [HasAtom]

/-- The store with another row of an atom. -/
def withAtom (store : Store) (atom : Atom) : Store :=
  { store with atoms := store.atoms ++ [.ofAtom atom] }

theorem hasAtom_withAtom {atom : Atom} {id : AtomId} :
    (store.withAtom atom).HasAtom id ↔ store.HasAtom id ∨ id = atom.id := by
  simp [hasAtom_iff_mem, withAtom, AtomRow.ofAtom]

theorem insertAtom_eq_ok {atom : Atom} {store' : Store} :
    insertAtom atom store = .ok store' ↔
      ¬store.HasAtom atom.id ∧ store' = store.withAtom atom := by
  rw [insertAtom]
  by_cases hid : store.HasAtom atom.id
  · have hany : (store.atoms.any fun other => other.id == (AtomRow.ofAtom atom).id) = true := by
      obtain ⟨row, hrow, hrowId⟩ := hid
      exact List.any_eq_true.mpr ⟨row, hrow, by simp [hrowId, AtomRow.ofAtom]⟩
    simp [hany, hid]
  · have hany : ¬(store.atoms.any fun other => other.id == (AtomRow.ofAtom atom).id) = true := by
      intro hany
      obtain ⟨row, hrow, hrowId⟩ := List.any_eq_true.mp hany
      exact hid ⟨row, hrow, by simpa [AtomRow.ofAtom] using hrowId⟩
    simp [hany, hid, withAtom, eq_comm]

/-- A new atom without a list leaves the lists as they are. -/
theorem Arranged.withAtom (h : store.Arranged segments) {atom : Atom}
    (hnew : ¬store.HasAtom atom.id) (hvalid : atom.validate = .ok ()) (hnotes : atom.notes = none) :
    (store.withAtom atom).Arranged segments where
  readable := by
    intro row hrow
    rcases List.mem_append.mp hrow with hrow | hrow
    · exact h.readable row hrow
    · rw [List.mem_singleton.mp hrow]
      exact ⟨_, AtomRow.toAtom_eq_ok.mpr (AtomRow.reads_ofAtom hvalid)⟩
  atomIds := by
    rw [Store.withAtom, List.map_append, List.map_singleton, ← List.concat_eq_append,
      List.nodup_concat]
    exact ⟨fun hmem => hnew (hasAtom_iff_mem.mpr hmem), h.atomIds⟩
  cellIds := h.cellIds
  heads := by
    intro row hrow id hid
    rcases List.mem_append.mp hrow with hrow | hrow
    · exact h.heads row hrow id hid
    · rw [List.mem_singleton.mp hrow] at hid ⊢
      obtain rfl := Datum.text.inj hid
      have hnone : segments (some atom.id) = [] := by
        by_contra hne
        exact hnew (h.owned _ hne)
      simp [AtomRow.ofAtom, hnotes, hnone]
  owned id hne := hasAtom_withAtom.mpr (Or.inl (h.owned id hne))
  linked := h.linked
  covered := h.covered
  distinct := h.distinct
  disjoint := h.disjoint
  held key place hplace := hasAtom_withAtom.mpr (Or.inl (h.held key place hplace))

theorem WellFormed.places_withAtom (h : store.WellFormed) {atom : Atom}
    (hnew : ¬store.HasAtom atom.id) (hvalid : atom.validate = .ok ()) (hnotes : atom.notes = none) :
    (store.withAtom atom).places = store.places :=
  funext fun id => (h.arranged.withAtom hnew hvalid hnotes).places_eq id

theorem atomRow?_withAtom_of_hasAtom {atom : Atom} {id : AtomId} (hid : store.HasAtom id) :
    (store.withAtom atom).atomRow? id = store.atomRow? id := by
  rw [atomRow?, withAtom, List.find?_append]
  exact Option.or_of_isSome (by simpa [HasAtom] using hid)

theorem atomRow?_withAtom_self {atom : Atom} (hnew : ¬store.HasAtom atom.id) :
    (store.withAtom atom).atomRow? atom.id = some (.ofAtom atom) := by
  have hnone := atomRow?_eq_none.mpr hnew
  rw [atomRow?] at hnone
  rw [atomRow?, withAtom, List.find?_append, hnone]
  simp [AtomRow.ofAtom]

theorem accept_eq_ok {atom : Atom} : accept atom = .ok () ↔ atom.validate = .ok () := by
  rw [accept]
  cases atom.validate <;> simp

/-- What creating an atom does when it succeeds. -/
theorem createAtom_eq_ok {id : Option AtomId} {defaults : Defaults} {atom : Atom} {store' : Store}
    (hrun : createAtom id defaults store = .ok atom store') :
    atom = .ofDefaults (id.getD store.supply.nextIdentifier) store.supply.time defaults ∧
      atom.validate = .ok () ∧ ¬store.HasAtom atom.id ∧
      store' = { store.withAtom atom with
        supply := (if id.isSome then store.supply else store.supply.afterDraw).afterReading } := by
  rw [createAtom, bind_eq_ok] at hrun
  obtain ⟨chosen, store₁, hchoose, hrun⟩ := hrun
  have hchosen : chosen = id.getD store.supply.nextIdentifier ∧ store₁ = { store with
      supply := if id.isSome then store.supply else store.supply.afterDraw } := by
    cases id with
    | none =>
        rw [chooseIdentifier, drawIdentifier_eq] at hchoose
        cases hchoose
        exact ⟨rfl, rfl⟩
    | some id =>
        rw [chooseIdentifier, bind_eq_ok] at hchoose
        obtain ⟨found, store₂, hlook, hchoose⟩ := hchoose
        obtain ⟨-, rfl⟩ := look_eq_ok.mp hlook
        split at hchoose
        · cases hchoose
        · cases hchoose
          exact ⟨rfl, rfl⟩
  obtain ⟨rfl, rfl⟩ := hchosen
  rw [bind_of_ok (readClock_eq _), bind_eq_ok] at hrun
  obtain ⟨_, store₂, hlook, hrun⟩ := hrun
  obtain ⟨haccept, rfl⟩ := look_eq_ok.mp hlook
  rw [bind_eq_ok] at hrun
  obtain ⟨_, store₃, hchange, hrun⟩ := hrun
  obtain ⟨hnew, rfl⟩ := insertAtom_eq_ok.mp (change_eq_ok.mp hchange)
  have htime : (if id.isSome then store.supply else store.supply.afterDraw).time =
      store.supply.time := by
    split <;> rfl
  cases hrun
  rw [htime] at haccept ⊢
  exact ⟨rfl, accept_eq_ok.mp haccept, hnew, rfl⟩

/-- Creating an atom changes nothing but the supply when it fails. -/
theorem createAtom_eq_error {id : Option AtomId} {defaults : Defaults} {cause : StoreError}
    {store' : Store} (hrun : createAtom id defaults store = .error cause store') :
    ∃ supply, store' = { store with supply } := by
  have hchoose : Keeps (fun s => ∃ supply, s = { store with supply }) (chooseIdentifier id) := by
    cases id with
    | none =>
        rintro _ ⟨supply, rfl⟩
        exact ⟨supply.afterDraw, rfl⟩
    | some id => exact (keeps_look _).bind fun _ => (Keeps.throw _).ite (Keeps.pure _)
  have hchosen := hchoose store ⟨store.supply, rfl⟩
  rcases bind_eq_error.mp hrun with hstop | ⟨chosen, store₁, hgo, hrun⟩
  · rwa [hstop] at hchosen
  rw [hgo] at hchosen
  obtain ⟨supply, rfl⟩ := hchosen
  rcases bind_eq_error.mp hrun with hstop | ⟨_, store₂, hgo, hrun⟩
  · cases hstop
  cases hgo
  rcases bind_eq_error.mp hrun with hstop | ⟨_, store₃, hgo, hrun⟩
  · exact ⟨supply.afterReading, look_eq_error hstop⟩
  obtain ⟨-, rfl⟩ := look_eq_ok.mp hgo
  rcases bind_eq_error.mp hrun with hstop | ⟨_, store₄, -, hrun⟩
  · exact ⟨supply.afterReading, change_eq_error hstop⟩
  · cases hrun

/-! ## Other properties of one row -/

/-- The store with other properties of an atom. -/
def withProperties (store : Store) (atom : Atom) : Store :=
  { store with
    atoms := store.atoms.map fun row =>
      if row.id == .text atom.id then row.withProperties atom else row }

@[simp] theorem map_id_withProperties (atom : Atom) :
    (store.withProperties atom).atoms.map AtomRow.id = store.atoms.map AtomRow.id := by
  rw [withProperties, List.map_map]
  apply List.map_congr_left
  intro row _
  simp only [Function.comp]
  split <;> rfl

theorem hasAtom_withProperties {atom : Atom} {id : AtomId} :
    (store.withProperties atom).HasAtom id ↔ store.HasAtom id := by
  rw [hasAtom_iff_mem, hasAtom_iff_mem, map_id_withProperties]

theorem updateAtom_eq_ok {atom : Atom} {store' : Store} :
    updateAtom atom store = .ok () store' ↔
      atom.validate = .ok () ∧ store.HasAtom atom.id ∧ store' = store.withProperties atom := by
  have hstatement {store store' : Store} :
      (if (store.atomRow? atom.id).isNone then Except.error (StoreError.noAtom atom.id)
        else .ok (store.withProperties atom)) = .ok store' ↔
        store.HasAtom atom.id ∧ store' = store.withProperties atom := by
    have hnone : (store.atomRow? atom.id).isNone ↔ ¬store.HasAtom atom.id := by
      rw [Option.isNone_iff_eq_none, atomRow?_eq_none]
    by_cases hid : store.HasAtom atom.id
    · rw [if_neg fun hno => hnone.mp hno hid]
      exact ⟨fun heq => ⟨hid, (Except.ok.inj heq).symm⟩, fun heq => heq.2 ▸ rfl⟩
    · rw [if_pos (hnone.mpr hid)]
      exact ⟨fun heq => (by cases heq), fun heq => absurd heq.1 hid⟩
  rw [updateAtom, bind_eq_ok]
  constructor
  · rintro ⟨_, store₁, hlook, hchange⟩
    obtain ⟨haccept, rfl⟩ := look_eq_ok.mp hlook
    exact ⟨accept_eq_ok.mp haccept, hstatement.mp (change_eq_ok.mp hchange)⟩
  · rintro ⟨hvalid, hupdate⟩
    exact ⟨(), store, look_of_ok (accept_eq_ok.mpr hvalid),
      change_of_ok (hstatement.mpr hupdate)⟩

/-- An update of an atom that fails leaves the store as it is. -/
theorem updateAtom_eq_error {atom : Atom} {cause : StoreError} {store' : Store}
    (hrun : updateAtom atom store = .error cause store') : store' = store := by
  rcases bind_eq_error.mp hrun with hstop | ⟨_, store₁, hgo, hchange⟩
  · exact look_eq_error hstop
  · obtain ⟨-, rfl⟩ := look_eq_ok.mp hgo
    exact change_eq_error hchange

theorem atomRow?_withProperties (store : Store) (atom : Atom) (id : AtomId) :
    (store.withProperties atom).atomRow? id = (store.atomRow? id).map fun row =>
      if id = atom.id then row.withProperties atom else row := by
  have hsame : ((fun row : AtomRow => row.id == .text id) ∘ fun row =>
      if row.id == .text atom.id then row.withProperties atom else row) =
        fun row => row.id == .text id := by
    funext row
    simp only [Function.comp]
    split <;> rfl
  rw [atomRow?, withProperties, List.find?_map, hsame, atomRow?]
  apply Option.map_congr
  intro row hrow
  have hid : row.id = .text id := by simpa using List.find?_some hrow
  simp [hid]

theorem Arranged.withProperties (h : store.Arranged segments) {atom : Atom}
    (hvalid : atom.validate = .ok ()) : (store.withProperties atom).Arranged segments where
  readable := by
    intro row hrow
    obtain ⟨old, hold, rfl⟩ := List.mem_map.mp hrow
    obtain ⟨oldAtom, hread⟩ := h.readable old hold
    have hreads := AtomRow.toAtom_eq_ok.mp hread
    split
    · exact ⟨_, AtomRow.toAtom_eq_ok.mpr (hreads.withProperties hvalid)⟩
    · exact ⟨oldAtom, hread⟩
  atomIds := by
    rw [map_id_withProperties]
    exact h.atomIds
  cellIds := h.cellIds
  heads := by
    intro row hrow id hid
    obtain ⟨old, hold, rfl⟩ := List.mem_map.mp hrow
    by_cases hself : old.id == .text atom.id
    · rw [if_pos hself] at hid ⊢
      exact h.heads old hold id hid
    · rw [if_neg hself] at hid ⊢
      exact h.heads old hold id hid
  owned id hne := hasAtom_withProperties.mpr (h.owned id hne)
  linked := h.linked
  covered := h.covered
  distinct := h.distinct
  disjoint := h.disjoint
  held key place hplace := hasAtom_withProperties.mpr (h.held key place hplace)

theorem WellFormed.places_withProperties (h : store.WellFormed) {atom : Atom}
    (hvalid : atom.validate = .ok ()) : (store.withProperties atom).places = store.places :=
  funext fun id => (h.arranged.withProperties hvalid).places_eq id

/-! ## One row less -/

/-- The store without an atom and without its entry in the index. -/
def withoutAtom (store : Store) (id : AtomId) : Store :=
  { store with
    index := store.index.map fun entries => entries.filter fun entry => entry.atom != id
    atoms := store.atoms.filter fun row => row.id != .text id }

theorem hasAtom_withoutAtom {id other : AtomId} :
    (store.withoutAtom id).HasAtom other ↔ store.HasAtom other ∧ other ≠ id := by
  constructor
  · rintro ⟨row, hrow, hid⟩
    obtain ⟨hrow, hne⟩ := List.mem_filter.mp hrow
    exact ⟨⟨row, hrow, hid⟩, by simpa [hid] using hne⟩
  · rintro ⟨⟨row, hrow, hid⟩, hne⟩
    exact ⟨row, List.mem_filter.mpr ⟨hrow, by simpa [hid] using hne⟩, hid⟩

theorem atomRow?_withoutAtom (store : Store) (id other : AtomId) :
    (store.withoutAtom id).atomRow? other = if other = id then none else store.atomRow? other := by
  split
  next hid =>
    refine atomRow?_eq_none.mpr fun hatom => ?_
    exact (hasAtom_withoutAtom.mp hatom).2 hid
  next hid =>
    rw [atomRow?, Store.withoutAtom, List.find?_filter, atomRow?]
    refine congrArg (store.atoms.find? ·) (funext fun row => ?_)
    by_cases hrow : row.id = .text other
    · simp [hrow, hid]
    · simp [hrow]

/-- An atom that has no list and stands in none is not missed. -/
theorem Arranged.withoutAtom (h : store.Arranged segments) {id : AtomId}
    (hempty : segments (some id) = []) (hunheld : ∀ key, ∀ place ∈ segments key, place.atom ≠ id) :
    (store.withoutAtom id).Arranged segments where
  readable row hrow := h.readable row (List.mem_filter.mp hrow).1
  atomIds := h.atomIds.sublist (List.filter_sublist.map _)
  cellIds := h.cellIds
  heads row hrow := h.heads row (List.mem_filter.mp hrow).1
  owned other hne := hasAtom_withoutAtom.mpr ⟨h.owned other hne, fun heq => hne (heq ▸ hempty)⟩
  linked := h.linked
  covered := h.covered
  distinct := h.distinct
  disjoint := h.disjoint
  held key place hplace :=
    hasAtom_withoutAtom.mpr ⟨h.held key place hplace, hunheld key place hplace⟩

/-- Only an atom that no cell holds has no holders. -/
theorem holders_eq_nil {id : AtomId} (h : store.holders id = .ok []) :
    ∀ row ∈ store.cells, row.first ≠ .text id := by
  intro row hrow hfirst
  rw [holders] at h
  have hmem : row ∈ (store.cells.filter fun row => row.first == .text id).mergeSort
      fun a b => a.id.le b.id :=
    List.mem_mergeSort.mpr (List.mem_filter.mpr ⟨hrow, by simp [hfirst]⟩)
  rw [List.forall₂_nil_right_iff.mp (mapM_eq_ok_iff_forall₂.mp h)] at hmem
  exact List.not_mem_nil hmem

/-- A removal leaves the store as it is or takes the atom out of it. -/
theorem removeAtom_cases (store : Store) (id : AtomId) :
    finalState (removeAtom id store) = store ∨
      finalState (removeAtom id store) = store.withoutAtom id := by
  let Left (s : Store) : Prop := s = store ∨ s = store.withoutAtom id
  have hstay : Left store := Or.inl rfl
  change Left _
  refine finalState_look_bind hstay fun atom hatom => ?_
  split
  · exact hstay
  refine finalState_look_bind hstay fun holders hholders => ?_
  split
  swap
  · exact hstay
  refine finalState_change hstay fun store' hremove => Or.inr ?_
  cases hindex : store.index with
  | none => simp [hindex] at hremove
  | some entries =>
      rw [hindex] at hremove
      cases hremove
      rw [Store.withoutAtom, hindex]
      rfl

/-! ## Well-formed stores stay well formed -/

theorem WellFormed.of_rows {store' : Store} (h : store.WellFormed)
    (hatoms : store'.atoms = store.atoms) (hcells : store'.cells = store.cells) :
    store'.WellFormed :=
  (h.arranged.of_rows hatoms hcells).wellFormed rfl

theorem WellFormed.places_of_rows {store' : Store} (h : store.WellFormed)
    (hatoms : store'.atoms = store.atoms) (hcells : store'.cells = store.cells) :
    store'.places = store.places :=
  funext fun id => (h.arranged.of_rows hatoms hcells).places_eq id

theorem keeps_wellFormed_drawIdentifier : Keeps WellFormed drawIdentifier :=
  fun _ h => h.of_rows rfl rfl

theorem keeps_wellFormed_readClock : Keeps WellFormed readClock :=
  fun _ h => h.of_rows rfl rfl

theorem keeps_wellFormed_chooseIdentifier (id : Option AtomId) :
    Keeps WellFormed (chooseIdentifier id) := by
  cases id with
  | none => exact keeps_wellFormed_drawIdentifier
  | some id => exact (keeps_look _).bind fun _ => (Keeps.throw _).ite (Keeps.pure _)

theorem keeps_wellFormed_createAtom (id : Option AtomId) (defaults : Defaults) :
    Keeps WellFormed (createAtom id defaults) := by
  refine (keeps_wellFormed_chooseIdentifier id).bind fun id =>
    keeps_wellFormed_readClock.bind fun created => ?_
  intro store h
  refine finalState_look_bind h fun _ haccept => ?_
  refine (keeps_change ?_).bind (fun _ => Keeps.pure _) store h
  intro s s' hs hinsert
  obtain ⟨hnew, rfl⟩ := insertAtom_eq_ok.mp hinsert
  exact (hs.arranged.withAtom hnew (accept_eq_ok.mp haccept) rfl).wellFormed rfl

theorem keeps_wellFormed_updateAtom (atom : Atom) : Keeps WellFormed (updateAtom atom) := by
  intro store h
  refine finalState_look_bind h fun _ haccept => finalState_change h fun store' hupdate => ?_
  split at hupdate
  · cases hupdate
  · cases hupdate
    exact (h.arranged.withProperties (accept_eq_ok.mp haccept)).wellFormed rfl

/-- An atom can be removed only if its list is empty and no cell holds it, and
then nothing points to it. -/
theorem keeps_wellFormed_removeAtom (id : AtomId) : Keeps WellFormed (removeAtom id) := by
  intro store h
  refine finalState_look_bind h fun atom hatom => ?_
  obtain ⟨hstored, rfl⟩ := h.atom_eq_iff.mp hatom
  by_cases hnotes : atom.notes.isSome
  · rw [if_pos hnotes]
    exact h
  rw [if_neg hnotes]
  refine finalState_look_bind h fun holders hholders => ?_
  by_cases hlisted : holders.isEmpty
  · rw [if_pos hlisted]
    obtain rfl := List.isEmpty_iff.mp hlisted
    have hempty : store.places atom.id = [] := by
      have hstart := h.notes_eq hstored
      cases hplaces : store.places atom.id with
      | nil => rfl
      | cons place places => simp [hstart, hplaces] at hnotes
    have hunheld : ∀ key, ∀ place ∈ Segments.ofLists store.places key, place.atom ≠ atom.id := by
      intro key place hplace heq
      obtain ⟨cell, hcell, rfl⟩ := exists_mem_linkedTo none hplace
      exact holders_eq_nil hholders _ (h.arranged.linked key cell hcell) (congrArg Datum.text heq)
    refine finalState_change h fun store' hremove => ?_
    have hrest := (h.arranged.withoutAtom hempty hunheld).wellFormed rfl
    split at hremove
    · cases hremove
    · cases hremove
      exact hrest.of_rows rfl rfl
  · rw [if_neg hlisted]
    exact h

theorem WellFormed.indexText {id : AtomId} {text : String} (h : store.WellFormed) :
    (store.indexText id text).WellFormed :=
  h.of_rows rfl rfl

theorem keeps_wellFormed_reindex : Keeps WellFormed reindex := by
  refine (keeps_look _).bind fun atoms => (Keeps.modify ?_).bind fun _ => Keeps.pure _
  intro store h
  exact List.foldlRecOn _ _ h fun store hstore entry _ => hstore.indexText

theorem keeps_wellFormed_insertAt (owner : AtomId) (position : Nat) (child : AtomId) :
    Keeps WellFormed (insertAt owner position child) := by
  intro store h
  rcases insertAt_cases h owner position child with
    ⟨_, _, cell, store', -, hrun, hrelisted⟩ | ⟨cause, supply, hrun⟩
  · rw [hrun]
    exact hrelisted.wellFormed
  · rw [hrun]
    exact h.of_rows rfl rfl

theorem keeps_wellFormed_deleteAt (owner : AtomId) (position : Nat) :
    Keeps WellFormed (deleteAt owner position) := by
  intro store h
  rcases deleteAt_cases h owner position with
    ⟨_, _, _, store', -, hrun, hrelisted⟩ | ⟨cause, hrun⟩
  · rw [hrun]
    exact hrelisted.wellFormed
  · rw [hrun]
    exact h

end Store

end Outline
