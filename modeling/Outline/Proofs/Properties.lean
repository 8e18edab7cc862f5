import Outline.Proofs.ListEdits

/-!
# Properties that an update stores

Storing the properties of a note touches the row of one atom.  What the note
sets is stored then, everything else is as before; numbers are compared by
value, since a zero may lose its sign in a row.
-/

namespace Outline

namespace Single

variable {x y z : Single}

theorem sameValue_iff : x.sameValue y ↔ ¬x.isNaN ∧ ¬y.isNaN ∧ x.order = y.order := by
  simp [sameValue, and_assoc]

theorem sameValue_refl (h : x.isFinite) : x.sameValue x := by
  have hnan : ¬x.isNaN := by
    simp only [isFinite, isNaN, decide_eq_true_eq] at h ⊢
    omega
  exact sameValue_iff.mpr ⟨hnan, hnan, rfl⟩

theorem sameValue_symm (h : x.sameValue y) : y.sameValue x := by
  obtain ⟨hx, hy, horder⟩ := sameValue_iff.mp h
  exact sameValue_iff.mpr ⟨hy, hx, horder.symm⟩

theorem sameValue_trans (hxy : x.sameValue y) (hyz : y.sameValue z) : x.sameValue z := by
  obtain ⟨hx, -, horder⟩ := sameValue_iff.mp hxy
  obtain ⟨-, hz, horder'⟩ := sameValue_iff.mp hyz
  exact sameValue_iff.mpr ⟨hx, hz, horder.trans horder'⟩

/-- A number comes back from a row with its value. -/
theorem sameValue_stored (h : x.isFinite) : x.stored.sameValue x := by
  rw [stored]
  split
  next hzero =>
    obtain ⟨hx, -, -⟩ := sameValue_iff.mp (sameValue_refl h)
    refine sameValue_iff.mpr ⟨by decide, hx, ?_⟩
    have horder : x.order = 0 := by simp [order, hzero]
    rw [horder]
    decide
  next => exact sameValue_refl h

end Single

/-- Two properties are both unset or have the same value. -/
def SameNumber : Option Single → Option Single → Prop
  | none, none => True
  | some x, some y => x.sameValue y
  | _, _ => False

/-- An atom has the properties that a note sets, and otherwise those it had. -/
structure Carries (note : Note) (old new : Atom) : Prop where
  id : new.id = old.id
  value : new.value = (note.value <|> old.value)
  byname : new.byname = (note.byname <|> old.byname)
  created : new.created = old.created
  priority : SameNumber new.priority old.priority
  sharability : SameNumber new.sharability (note.sharability <|> old.sharability)
  weight : SameNumber new.weight (note.weight <|> old.weight)
  shortcut : new.shortcut = old.shortcut

theorem sameNumber_refl {x : Option Single} (h : isUnsetOrFinite x) : SameNumber x x := by
  cases x with
  | none => trivial
  | some x => exact Single.sameValue_refl h

theorem sameNumber_stored {x : Option Single} (h : isUnsetOrFinite x) :
    SameNumber (x.map Single.stored) x := by
  cases x with
  | none => trivial
  | some x => exact Single.sameValue_stored h

theorem sameNumber_symm {x y : Option Single} (h : SameNumber x y) : SameNumber y x := by
  cases x <;> cases y <;> try trivial
  exact Single.sameValue_symm h

theorem sameNumber_trans {x y z : Option Single} (hxy : SameNumber x y) (hyz : SameNumber y z) :
    SameNumber x z := by
  cases x <;> cases y <;> cases z <;> try trivial
  exact Single.sameValue_trans hxy hyz

namespace Update

theorem eq_of_not_changesText {wanted stored : Option String}
    (h : changesText wanted stored = false) : stored = (wanted <|> stored) := by
  cases wanted with
  | none => rfl
  | some text => simpa [changesText] using h

/-- The number that is stored, whether it is the wanted one or one like it. -/
theorem sameNumber_mergeNumber {wanted stored : Option Single}
    (h : isUnsetOrFinite (mergeNumber wanted stored)) :
    SameNumber (mergeNumber wanted stored) (wanted <|> stored) := by
  rw [mergeNumber] at h ⊢
  cases wanted with
  | none => exact sameNumber_refl h
  | some x =>
      split at h
      next hchanges =>
        rw [if_pos hchanges]
        exact sameNumber_refl h
      next hchanges =>
        rw [if_neg hchanges]
        cases stored with
        | none => simp [changesNumber] at hchanges
        | some y => exact Single.sameValue_symm (by simpa [changesNumber] using hchanges)

/-- A number that is not changed is the wanted one, if one is wanted. -/
theorem sameNumber_of_not_changesNumber {wanted stored : Option Single}
    (hno : changesNumber wanted stored = false) (hfinite : isUnsetOrFinite stored) :
    SameNumber stored (wanted <|> stored) := by
  have hmerge : mergeNumber wanted stored = stored := by simp [mergeNumber, hno]
  have hsame := sameNumber_mergeNumber (hmerge.symm ▸ hfinite)
  rwa [hmerge] at hsame

variable {note : Note} {stored : Atom}

/-- An atom that was stored anew carries the properties that are set. -/
theorem carries_merge (h : (merge note stored).validate = .ok ()) :
    Carries note stored (merge note stored).asStored := by
  obtain ⟨-, -, hpriority, hsharability, hweight⟩ := Atom.validate_eq_ok.mp h
  exact {
    id := rfl
    value := rfl
    byname := rfl
    created := rfl
    priority := sameNumber_stored hpriority
    sharability :=
      sameNumber_trans (sameNumber_stored hsharability) (sameNumber_mergeNumber hsharability)
    weight := sameNumber_trans (sameNumber_stored hweight) (sameNumber_mergeNumber hweight)
    shortcut := rfl }

theorem changesText_of_eq {wanted stored old : Option String} (h : stored = (wanted <|> old)) :
    changesText wanted stored = false := by
  cases wanted with
  | none => rfl
  | some text =>
      subst h
      simp [changesText]

theorem changesNumber_of_sameNumber {wanted stored old : Option Single}
    (h : SameNumber stored (wanted <|> old)) : changesNumber wanted stored = false := by
  cases wanted with
  | none => rfl
  | some x =>
      cases stored with
      | none => exact False.elim h
      | some y => simpa [changesNumber] using Single.sameValue_symm h

/-- Nothing is left to change of an atom that carries what is set. -/
theorem changes_of_carries {old new : Atom} (h : Carries note old new) :
    changes note new = false := by
  simp only [changes, changesProperties, Bool.or_eq_false_iff]
  exact ⟨changesText_of_eq h.value, ⟨changesText_of_eq h.byname,
    changesNumber_of_sameNumber h.weight⟩, changesNumber_of_sameNumber h.sharability⟩

/-- An atom of which nothing changes carries the properties that are set already. -/
theorem carries_self (h : changes note stored = false) (hvalid : stored.validate = .ok ()) :
    Carries note stored stored := by
  obtain ⟨-, -, hpriority, hsharability, hweight⟩ := Atom.validate_eq_ok.mp hvalid
  simp only [changes, changesProperties, Bool.or_eq_false_iff] at h
  obtain ⟨hvalue, ⟨hbyname, hnoWeight⟩, hnoSharability⟩ := h
  exact {
    id := rfl
    value := eq_of_not_changesText hvalue
    byname := eq_of_not_changesText hbyname
    created := rfl
    priority := sameNumber_refl hpriority
    sharability := sameNumber_of_not_changesNumber hnoSharability hsharability
    weight := sameNumber_of_not_changesNumber hnoWeight hweight
    shortcut := rfl }

end Update

namespace Store

/-- No cell, no list and no atom has come or gone. -/
structure SameLists (before after : Store) : Prop where
  wellFormed : after.WellFormed
  cells : after.cells = before.cells
  supply : after.supply = before.supply
  atomIds : after.atoms.map AtomRow.id = before.atoms.map AtomRow.id
  places : after.places = before.places

theorem SameLists.refl {store : Store} (h : store.WellFormed) : SameLists store store :=
  ⟨h, rfl, rfl, rfl, rfl⟩

theorem SameLists.trans {a b c : Store} (hab : SameLists a b) (hbc : SameLists b c) :
    SameLists a c :=
  ⟨hbc.wellFormed, hbc.cells.trans hab.cells, hbc.supply.trans hab.supply,
    hbc.atomIds.trans hab.atomIds, hbc.places.trans hab.places⟩

theorem SameLists.hasAtom_iff {before after : Store} (h : SameLists before after) {id : AtomId} :
    after.HasAtom id ↔ before.HasAtom id := by
  rw [hasAtom_iff_mem, hasAtom_iff_mem, h.atomIds]

theorem SameLists.hasCell_iff {before after : Store} (h : SameLists before after) {id : CellId} :
    after.HasCell id ↔ before.HasCell id := by
  rw [HasCell, HasCell, h.cells]

/-- The effects of storing the properties of a note on the atom `id`. -/
structure Synced (note : Note) (id : AtomId) (before after : Store) : Prop extends
    SameLists before after where
  rows : ∀ other, other ≠ id → after.atomRow? other = before.atomRow? other
  carries : ∃ old new, before.atom id = .ok old ∧ after.atom id = .ok new ∧ Carries note old new

theorem atom_eq_ok_iff_atomRow? {store : Store} {id : AtomId} {atom : Atom} :
    store.atom id = .ok atom ↔ ∃ row, store.atomRow? id = some row ∧ row.toAtom = .ok atom := by
  rw [atom_eq_ok, atom?]
  cases store.atomRow? id with
  | none => simp
  | some row => cases hread : row.toAtom <;> simp [hread, Except.map]

/-- An atom that can be read is fit to be stored. -/
theorem valid_of_atom {store : Store} {id : AtomId} {atom : Atom} (h : store.atom id = .ok atom) :
    atom.validate = .ok () := by
  obtain ⟨row, -, hread⟩ := atom_eq_ok_iff_atomRow?.mp h
  exact (AtomRow.toAtom_eq_ok.mp hread).valid

/-- An atom that is found is the one that was asked for. -/
theorem id_of_atom {store : Store} {id : AtomId} {atom : Atom} (h : store.atom id = .ok atom) :
    atom.id = id := by
  obtain ⟨row, hrow, hread⟩ := atom_eq_ok_iff_atomRow?.mp h
  have hid : row.id = .text id := by simpa using List.find?_some hrow
  exact Datum.text.inj ((AtomRow.toAtom_eq_ok.mp hread).id.symm.trans hid)

/-- An atom whose row agrees but for the list pointer is read alike. -/
theorem atom_eq_ok_of_withoutNotes {before after : Store} (hafter : after.WellFormed) {id : AtomId}
    {atom : Atom} (hrow : (after.atomRow? id).map AtomRow.withoutNotes =
      (before.atomRow? id).map AtomRow.withoutNotes)
    (hatom : before.atom id = .ok atom) :
    after.atom id = .ok { atom with notes := start none (after.places id) } := by
  obtain ⟨old, hold, hread⟩ := atom_eq_ok_iff_atomRow?.mp hatom
  rw [hold, Option.map_some, Option.map_eq_some_iff] at hrow
  obtain ⟨new, hnew, hagree⟩ := hrow
  have hpointer := hafter.notes_atomRow? hnew
  have heq : new = { old with notes := (start none (after.places id)).map .text } := by
    cases new
    cases old
    simp_all [AtomRow.withoutNotes]
  refine atom_eq_ok_iff_atomRow?.mpr ⟨new, hnew, ?_⟩
  rw [heq]
  exact AtomRow.toAtom_eq_ok.mpr ((AtomRow.toAtom_eq_ok.mp hread).withNotes _)

end Store

namespace Update

open Store

theorem storeProperties_synced {id : AtomId} {note : Note} {atom : Atom}
    {progress progress' : Progress} (h : progress.store.WellFormed)
    (hrun : storeProperties id note progress = .ok atom progress') :
    ∃ stored, progress.store.atom id = .ok stored ∧ atom = merge note stored ∧
      progress'.stats = progress.stats ∧ Synced note id progress.store progress'.store := by
  obtain ⟨stored, store, hstored, rfl, hupdated, hsame, rfl⟩ :=
    storeProperties_eq_ok hrun
  refine ⟨stored, hstored, rfl, rfl, ?_⟩
  obtain ⟨hstores, rfl⟩ := h.atom_eq_iff.mp hstored
  obtain ⟨row, hrow, hread⟩ := hstores
  have hreads := AtomRow.toAtom_eq_ok.mp hread
  cases hchanges : changes note stored with
  | false =>
      obtain rfl := hsame hchanges
      exact {
        wellFormed := h.of_rows rfl rfl
        cells := rfl
        supply := rfl
        atomIds := rfl
        places := rfl
        rows := fun _ _ => rfl
        carries := ⟨stored, stored, hstored, hstored, carries_self hchanges hreads.valid⟩ }
  | true =>
      obtain ⟨hvalid, -, rfl⟩ := updateAtom_eq_ok.mp (hupdated hchanges)
      have hfound : progress.store.atomRow? stored.id = some row :=
        (find?_key_eq_some h.atomIdsNodup).mpr ⟨hrow, hreads.id⟩
      have hnew : (progress.store.withProperties (merge note stored)).atomRow? stored.id =
          some (row.withProperties (merge note stored)) := by
        rw [atomRow?_withProperties, hfound, Option.map_some]
        exact congrArg some (if_pos rfl)
      exact {
        wellFormed := ((h.arranged.withProperties hvalid).wellFormed rfl).of_rows rfl rfl
        cells := rfl
        supply := rfl
        atomIds := map_id_withProperties _
        places := h.places_withProperties hvalid
        rows := by
          intro other hother
          have hrows := atomRow?_withProperties progress.store (merge note stored) other
          have hne : ¬other = (merge note stored).id := hother
          simp only [if_neg hne, Option.map_id'] at hrows
          exact hrows
        carries := ⟨stored, _, hstored,
          atom_eq_ok_iff_atomRow?.mpr
            ⟨_, hnew, AtomRow.toAtom_eq_ok.mpr (hreads.withProperties hvalid)⟩,
          carries_merge hvalid⟩ }

/-- The list of an atom is edited as it was before the properties of the atom
were stored. -/
theorem editList_of_synced {before : Store} {id : AtomId} {note : Note} {stored : Atom}
    {progress progress' : Progress} {slots : List Slot} (hwf : before.WellFormed)
    (hstored : before.atom id = .ok stored) (hsynced : Synced note id before progress.store)
    (hrun : editList visibility (merge note stored) note.children progress =
      (none, slots, progress')) :
    ∃ items created,
      Rewoven visibility.defaults id (before.places id) (note.children.map Note.id) 0 0
        (keptPairs (before.places id) note.children) items created progress progress' ∧
      slots = items.map Woven.slot ∧ progress'.store.places id = items.map Woven.place := by
  obtain ⟨hstores, rfl⟩ := hwf.atom_eq_iff.mp hstored
  have hresult := editList_rewoven hsynced.wellFormed
    (hsynced.hasAtom_iff.mpr hstores.hasAtom)
    (by rw [hsynced.places]; exact hwf.notes_eq hstores) hrun
  rw [hsynced.places] at hresult
  exact hresult

end Update

end Outline
