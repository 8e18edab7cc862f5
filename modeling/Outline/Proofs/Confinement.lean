import Outline.Proofs.Agreement
import Outline.Proofs.Invariants
import Outline.Proofs.Refusals

/-!
# What an update may touch

An update touches the atom at its root and those that its note names below the root,
and of these only what their notes set and, where the depth allows, their lists.  All
other atoms stay as they are, with their lists.  This holds step by step, so also for
what is left of an update that fails.
-/

namespace Outline

/-! ## Notes that stand for atoms -/

/-- In an update at `root`, parts of its note stand for atoms: the whole note for the
root, and what is below it for the atoms it names. -/
inductive Note.StandsFor (root : Option AtomId) (note : Note) : Note → AtomId → Prop
  | root {id : AtomId} : root = some id → StandsFor root note note id
  | below {parent part : Note} {id : AtomId} : parent.Within note → part ∈ parent.children →
      part.id = some id → StandsFor root note part id

namespace Note

variable {root : Option AtomId} {note child part : Note} {id : AtomId}

theorem StandsFor.eq_or_mem_idsBelow (h : note.StandsFor root part id) :
    root = some id ∨ id ∈ note.idsBelow := by
  cases h with
  | root hroot => exact Or.inl hroot
  | below hparent hpart hid => exact Or.inr (mem_idsBelow_of_within hparent hpart hid)

/-- What stands for an atom in the tree of a child does so in the whole tree. -/
theorem StandsFor.of_child (hchild : child ∈ note.children)
    (h : child.StandsFor child.id part id) : note.StandsFor root part id := by
  cases h with
  | root hid => exact .below .self hchild hid
  | below hparent hpart hid => exact .below (.ofChild hchild hparent) hpart hid

end Note

/-! ## Identifiers that are filled in -/

/-- An identifier is as it was, or was missing and is a new one now. -/
def FilledId (New : AtomId → Prop) (before after : Option AtomId) : Prop :=
  after = before ∨ before = none ∧ ∃ id, after = some id ∧ New id

/-- The second note is the first one, but for missing identifiers, here and below,
that are new ones now. -/
inductive Note.FilledWith (New : AtomId → Prop) : Note → Note → Prop
  | mk {note written : Note} : FilledId New note.id written.id →
      written = { note with id := written.id, children := written.children } →
      List.Forall₂ (FilledWith New) note.children written.children → FilledWith New note written

section

variable {New New' : AtomId → Prop}

theorem FilledId.trans {x y z : Option AtomId} (hxy : FilledId New x y) (hyz : FilledId New y z) :
    FilledId New x z := by
  rcases hyz with rfl | ⟨rfl, hnew⟩
  · exact hxy
  · rcases hxy with rfl | ⟨-, id, hid, -⟩
    · exact Or.inr ⟨rfl, hnew⟩
    · cases hid

theorem FilledId.mono {before after : Option AtomId} (h : FilledId New before after)
    (hnew : ∀ id, New id → New' id) : FilledId New' before after := by
  rcases h with hsame | ⟨hnone, id, hid, hisNew⟩
  · exact Or.inl hsame
  · exact Or.inr ⟨hnone, id, hid, hnew id hisNew⟩

mutual

theorem Note.FilledWith.refl (note : Note) : FilledWith New note note := by
  cases note with
  | mk own value byname weight sharability created children =>
      exact .mk (Or.inl rfl) rfl (forall₂_filledWith_refl children)

theorem Note.forall₂_filledWith_refl (children : List Note) :
    List.Forall₂ (FilledWith New) children children := by
  cases children with
  | nil => exact .nil
  | cons child children => exact .cons (FilledWith.refl child) (forall₂_filledWith_refl children)

end

mutual

theorem Note.FilledWith.mono {note written : Note} (h : note.FilledWith New written)
    (hnew : ∀ id, New id → New' id) : note.FilledWith New' written := by
  cases note with
  | mk own value byname weight sharability created children =>
      obtain ⟨hid, hfields, hchildren⟩ := h
      exact .mk (hid.mono hnew) hfields (forall₂_filledWith_mono hchildren hnew)

theorem Note.forall₂_filledWith_mono {children notes : List Note}
    (h : List.Forall₂ (FilledWith New) children notes) (hnew : ∀ id, New id → New' id) :
    List.Forall₂ (FilledWith New') children notes := by
  cases children with
  | nil =>
      cases h
      exact .nil
  | cons child children =>
      cases h with
      | cons hfirst hrest => exact .cons (hfirst.mono hnew) (forall₂_filledWith_mono hrest hnew)

end

end

theorem Note.FilledWith.withId {New : AtomId → Prop} {note written : Note} {id : Option AtomId}
    (h : note.FilledWith New written) (hid : FilledId New note.id id) :
    note.FilledWith New { written with id } := by
  obtain ⟨-, hfields, hchildren⟩ := h
  exact .mk hid (by rw [hfields]) hchildren

/-! ## Properties that are revised -/

/-- A property was kept, or it is now what the field of a note that `stands` sets. -/
def KeptOrSet {α : Type} (Same : Option α → Option α → Prop) (stands : Note → Prop)
    (field : Note → Option α) (old new : Option α) : Prop :=
  Same new old ∨ ∃ note, stands note ∧ (field note).isSome ∧ Same new (field note)

/-- An atom is as it was but for what the notes that stand for it set.  Numbers are
compared by value, since a zero may lose its sign in a row. -/
structure Revised (stands : Note → Prop) (old new : Atom) : Prop where
  id : new.id = old.id
  created : new.created = old.created
  priority : SameNumber new.priority old.priority
  shortcut : new.shortcut = old.shortcut
  value : KeptOrSet Eq stands Note.value old.value new.value
  byname : KeptOrSet Eq stands Note.byname old.byname new.byname
  weight : KeptOrSet SameNumber stands Note.weight old.weight new.weight
  sharability : KeptOrSet SameNumber stands Note.sharability old.sharability new.sharability

section

variable {α : Type} {Same : Option α → Option α → Prop} {stands stands' : Note → Prop}
  {field : Note → Option α} {old mid new : Option α} {a b c : Atom}

theorem keptOrSet_of_orElse {note : Note} (hstands : stands note)
    (h : Same new (field note <|> old)) : KeptOrSet Same stands field old new := by
  cases hfield : field note with
  | none =>
      rw [hfield] at h
      exact Or.inl h
  | some x =>
      rw [hfield] at h
      exact Or.inr ⟨note, hstands, by rw [hfield]; rfl, by rw [hfield]; exact h⟩

theorem KeptOrSet.trans (hsame : ∀ {x y z}, Same x y → Same y z → Same x z)
    (hfirst : KeptOrSet Same stands field old mid) (hsecond : KeptOrSet Same stands' field mid new)
    (hsub : ∀ note, stands' note → stands note) : KeptOrSet Same stands field old new := by
  rcases hsecond with hkept | ⟨note, hstands, hisSet, hnew⟩
  · rcases hfirst with hkept' | ⟨note, hstands, hisSet, hmid⟩
    · exact Or.inl (hsame hkept hkept')
    · exact Or.inr ⟨note, hstands, hisSet, hsame hkept hmid⟩
  · exact Or.inr ⟨note, hsub note hstands, hisSet, hnew⟩

theorem Revised.trans (hab : Revised stands a b) (hbc : Revised stands' b c)
    (hsub : ∀ note, stands' note → stands note) : Revised stands a c where
  id := hbc.id.trans hab.id
  created := hbc.created.trans hab.created
  priority := sameNumber_trans hbc.priority hab.priority
  shortcut := hbc.shortcut.trans hab.shortcut
  value := hab.value.trans Eq.trans hbc.value hsub
  byname := hab.byname.trans Eq.trans hbc.byname hsub
  weight := hab.weight.trans sameNumber_trans hbc.weight hsub
  sharability := hab.sharability.trans sameNumber_trans hbc.sharability hsub

/-- An atom is as it was if only its list has changed. -/
theorem revised_withNotes {atom : Atom} (h : atom.validate = .ok ()) (notes : Option CellId) :
    Revised stands atom { atom with notes } := by
  obtain ⟨-, -, hpriority, hsharability, hweight⟩ := Atom.validate_eq_ok.mp h
  exact {
    id := rfl
    created := rfl
    priority := sameNumber_refl hpriority
    shortcut := rfl
    value := Or.inl rfl
    byname := Or.inl rfl
    weight := Or.inl (sameNumber_refl hweight)
    sharability := Or.inl (sameNumber_refl hsharability) }

/-- An atom that carries what a note sets is as it was but for that. -/
theorem Carries.revised {note : Note} {old new : Atom} (h : Carries note old new)
    (hstands : stands note) : Revised stands old new where
  id := h.id
  created := h.created
  priority := h.priority
  shortcut := h.shortcut
  value := keptOrSet_of_orElse hstands h.value
  byname := keptOrSet_of_orElse hstands h.byname
  weight := keptOrSet_of_orElse hstands h.weight
  sharability := keptOrSet_of_orElse hstands h.sharability

end

namespace Store

/-! ## Changes that are confined -/

/-- What changed is confined to the atoms for which notes stand, and to what these set
and the lists. -/
structure Confined (stands : Note → AtomId → Prop) (before after : Store) : Prop where
  wellFormed : after.WellFormed
  revised : ∀ id, before.HasAtom id → ∃ old new, before.atom id = .ok old ∧
    after.atom id = .ok new ∧ Revised (fun part => stands part id) old new
  sameAt : ∀ id, before.HasAtom id → (∀ part, ¬stands part id) → SameAt before after id

/-- An atom has come. -/
def Gains (before after : Store) (id : AtomId) : Prop :=
  ¬before.HasAtom id ∧ after.HasAtom id

variable {stands stands' : Note → AtomId → Prop} {a b c before after store : Store}
  {id owner : AtomId} {part note : Note} {defaults : Defaults}

theorem Confined.hasAtom (h : Confined stands a b) (hid : a.HasAtom id) : b.HasAtom id := by
  obtain ⟨old, new, -, hnew, -⟩ := h.revised id hid
  exact hasAtom_of_atom hnew

theorem Gains.trans_confined (h : Gains a b id) (hbc : Confined stands b c) : Gains a c id :=
  ⟨h.1, hbc.hasAtom h.2⟩

theorem Gains.of_hasAtom (h : Gains b c id) (hab : ∀ id, a.HasAtom id → b.HasAtom id) :
    Gains a c id :=
  ⟨fun hid => h.1 (hab id hid), h.2⟩

theorem Confined.trans (hab : Confined stands a b) (hbc : Confined stands' b c)
    (hsub : ∀ part id, a.HasAtom id → stands' part id → stands part id) :
    Confined stands a c where
  wellFormed := hbc.wellFormed
  revised id hid := by
    obtain ⟨old, mid, hold, hmid, hfirst⟩ := hab.revised id hid
    obtain ⟨mid', new, hmid', hnew, hsecond⟩ := hbc.revised id (hab.hasAtom hid)
    obtain rfl : mid = mid' := Except.ok.inj (hmid.symm.trans hmid')
    exact ⟨old, new, hold, hnew, hfirst.trans hsecond fun part => hsub part id hid⟩
  sameAt id hid hno := by
    have hno' : ∀ part, ¬stands' part id := fun part hpart => hno part (hsub part id hid hpart)
    exact (hab.sameAt id hid hno).trans (hbc.sameAt id (hab.hasAtom hid) hno')

theorem Confined.andThen (hab : Confined stands a b) (hbc : Confined stands b c) :
    Confined stands a c :=
  hab.trans hbc fun _ _ _ hpart => hpart

/-- A change to the list of an atom, among others that were not there before, is
confined to the atom. -/
theorem confined_of_places (hbefore : before.WellFormed) (hafter : after.WellFormed)
    (hpart : stands part owner)
    (hrows : ∀ id, before.HasAtom id →
      (after.atomRow? id).map AtomRow.withoutNotes = (before.atomRow? id).map AtomRow.withoutNotes)
    (hplaces : ∀ id, id ≠ owner → after.places id = before.places id) :
    Confined stands before after where
  wellFormed := hafter
  revised id hid := by
    obtain ⟨old, hold, -, -⟩ := hbefore.arranged.exists_atom hid
    have hatom := atom_eq_ok.mpr (atom_eq_ok.mp hold)
    have hnew := atom_eq_ok_of_withoutNotes hafter (hrows id hid) hatom
    exact ⟨old, _, hatom, hnew, revised_withNotes (valid_of_atom hatom) _⟩
  sameAt id hid hno := by
    have hne : id ≠ owner := by
      rintro rfl
      exact hno part hpart
    have hlist := hplaces id hne
    exact ⟨atomRow?_eq_of_places hbefore hafter (hrows id hid) hlist, hlist⟩

theorem Confined.refl (h : store.WellFormed) : Confined stands store store where
  wellFormed := h
  revised id hid := by
    obtain ⟨atom, hatom, -, -⟩ := h.arranged.exists_atom hid
    exact ⟨atom, atom, hatom, hatom, revised_withNotes (valid_of_atom hatom) atom.notes⟩
  sameAt _ _ _ := ⟨rfl, rfl⟩

theorem WellFormed.confined_withSupply (h : store.WellFormed) (supply : Supply) :
    Confined stands store { store with supply } where
  wellFormed := h.of_rows rfl rfl
  revised := (Confined.refl h).revised
  sameAt _ _ _ := ⟨rfl, h.places_of_rows rfl rfl ▸ rfl⟩

theorem Relisted.confined {places : List Place} (hbefore : before.WellFormed)
    (h : Relisted before after owner places) (hpart : stands part owner) :
    Confined stands before after :=
  confined_of_places hbefore h.wellFormed hpart (fun id _ => h.relinked.withoutNotes_atomRow? id)
    fun _ => h.places_of_ne

theorem Edited.confined {created : List AtomId} (hbefore : before.WellFormed)
    (h : Edited defaults owner created before after) (hpart : stands part owner) :
    Confined stands before after :=
  confined_of_places hbefore h.wellFormed hpart h.properties h.places

/-- Storing the properties of a note is confined to the atom it stands for. -/
theorem Synced.confined (hbefore : before.WellFormed) (h : Synced note id before after)
    (hstands : stands note id) : Confined stands before after where
  wellFormed := h.wellFormed
  revised other hother := by
    by_cases hid : other = id
    · subst hid
      obtain ⟨old, new, hold, hnew, hcarries⟩ := h.carries
      exact ⟨old, new, hold, hnew, hcarries.revised hstands⟩
    · obtain ⟨old, hold, -, -⟩ := hbefore.arranged.exists_atom hother
      have hsame : SameAt before after other := ⟨h.rows other hid, congrFun h.places other⟩
      refine ⟨old, old, hold, hsame.atom_eq.trans hold, ?_⟩
      exact revised_withNotes (valid_of_atom hold) old.notes
  sameAt other _ hno := by
    have hid : other ≠ id := by
      rintro rfl
      exact hno note hstands
    exact ⟨h.rows other hid, congrFun h.places other⟩

/-- The edits of a list are confined to its owner, also where they fail. -/
theorem keptByEdits_confined (start : Store) (hpart : stands part owner) :
    KeptByEdits defaults owner (Confined stands start) where
  createAtom id store hconfined := by
    have hwf := hconfined.wellFormed
    refine hconfined.andThen ?_
    cases hrun : createAtom id defaults store with
    | ok atom store' => exact (edited_createAtom hwf hrun).confined hwf hpart
    | error cause store' =>
        obtain ⟨supply, rfl⟩ := createAtom_eq_error hrun
        exact hwf.confined_withSupply supply
  insertAt position child store hconfined := by
    have hwf := hconfined.wellFormed
    refine hconfined.andThen ?_
    rcases insertAt_cases hwf owner position child with
      ⟨_, _, cell, store', -, hrun, hrelisted⟩ | ⟨cause, supply, hrun⟩
    · rw [hrun]
      exact hrelisted.confined hwf hpart
    · rw [hrun]
      exact hwf.confined_withSupply supply
  deleteAt position store hconfined := by
    have hwf := hconfined.wellFormed
    refine hconfined.andThen ?_
    rcases deleteAt_cases hwf owner position with
      ⟨_, _, _, store', -, hrun, hrelisted⟩ | ⟨cause, hrun⟩
    · rw [hrun]
      exact hrelisted.confined hwf hpart
    · rw [hrun]
      exact .refl hwf

end Store

namespace Update

open Progress Store

variable {visibility : Visibility} {progress progress' : Progress} {stands : Note → AtomId → Prop}
  {part : Note} {parent : AtomId} {start a b c : Store} {children : List Note}
  {slots slots' : List Slot}

/-! ## The list of an atom -/

/-- The slots name what the children name, and atoms that have come for the others. -/
def Names (before after : Store) (children : List Note) (slots : List Slot) : Prop :=
  List.Forall₂ (fun child slot => FilledId (Gains before after) child.id slot.id) children slots

theorem names_start (a b : Store) (children : List Note) :
    Names a b children (children.map fun child => { id := child.id }) := by
  rw [Names, List.forall₂_map_right_iff]
  exact List.forall₂_same.mpr fun child _ => Or.inl rfl

theorem Names.mono (h : Names a b children slots) (hbc : Confined stands b c) :
    Names a c children slots :=
  List.Forall₂.imp (fun _ _ hid => hid.mono fun _ hnew => hnew.trans_confined hbc) h

theorem Names.set (h : Names a b children slots) {index : Nat} {slot slot' : Slot}
    (hslot : slots[index]? = some slot) (hid : FilledId (Gains a b) slot.id slot'.id) :
    Names a b children (slots.set index slot') := by
  obtain ⟨hlength, hids⟩ := List.forall₂_iff_get.mp h
  refine List.forall₂_iff_get.mpr ⟨by rw [List.length_set, hlength], fun k hk hk' => ?_⟩
  have hk'' : k < slots.length := hlength ▸ hk
  have hold := hids k hk hk''
  simp only [List.get_eq_getElem, List.getElem_set] at hold ⊢
  split
  next heq =>
    subst heq
    rw [Option.some.inj ((List.getElem?_eq_getElem hk'').symm.trans hslot)] at hold
    exact hold.trans hid
  next => exact hold

/-- The notes with what their slots name differ in what was filled in. -/
theorem Names.filledWith (h : Names a b children slots) :
    List.Forall₂ (Note.FilledWith (Gains a b)) children (fill children slots) := by
  induction h with
  | nil => exact .nil
  | cons hid _ ih => exact .cons (.mk hid rfl (Note.forall₂_filledWith_refl _)) ih

/-- An edit is confined to the list's owner, also when it fails. -/
theorem applyEdit_confined (visibility : Visibility) (hwf : progress.store.WellFormed)
    (hpart : stands part parent) (slots : List Slot) (edit : Edit) :
    Confined stands progress.store
      (finalState (applyEdit visibility parent slots edit progress)).store :=
  keeps_applyEdit (keptByEdits_confined progress.store hpart) slots edit progress
    (.refl hwf)

/-- An edit that succeeds has its slot name the atom that it puts into the list. -/
theorem applyEdit_names {edit : Edit} (hpart : stands part parent)
    (hconfined : Confined stands start progress.store)
    (hslots : Names start progress.store children slots)
    (hrun : applyEdit visibility parent slots edit progress = .ok slots' progress') :
    Names start progress'.store children slots' := by
  have hwf := hconfined.wellFormed
  have hstep := applyEdit_confined visibility hwf hpart slots edit
  rw [hrun] at hstep
  have hkept : Names start progress'.store children slots := hslots.mono hstep
  cases edit with
  | delete position index =>
      rw [applyEdit_delete_eq] at hrun
      obtain ⟨_, _, -, rfl, -⟩ := perform_eq_ok hrun
      exact hkept
  | insert position index =>
      cases hslot : slots[index]? with
      | none =>
          rw [applyEdit, hslot] at hrun
          cases hrun
          exact hslots
      | some slot =>
          rw [applyEdit_insert_eq visibility parent position hslot] at hrun
          obtain ⟨child, progress₁, hfind, hinsert⟩ := bind_eq_ok.mp hrun
          obtain ⟨created, hprovided⟩ := exists_provided hwf hfind
          obtain ⟨cell, store, hresult, rfl, rfl⟩ := perform_eq_ok hinsert
          have hchild : store.HasAtom child.id := by
            have hwf₁ := (hprovided.edited parent).wellFormed
            have hedits :
                KeptByEdits visibility.defaults parent (Confined stands progress₁.store) :=
              keptByEdits_confined progress₁.store hpart
            have hinserted := hedits.insertAt position child.id progress₁.store (.refl hwf₁)
            rw [hresult] at hinserted
            exact hinserted.hasAtom hprovided.hasAtom
          apply hkept.set hslot
          cases hid : slot.id with
          | some name => exact Or.inl rfl
          | none =>
              have hno := (hprovided.unnamed hid).2
              exact Or.inr ⟨rfl, child.id, rfl, fun hatom => hno (hconfined.hasAtom hatom), hchild⟩

theorem applyScript_confined (visibility : Visibility) (hpart : stands part parent)
    (edits : List Edit) (slots : List Slot) (progress : Progress)
    (hconfined : Confined stands start progress.store)
    (hslots : Names start progress.store children slots) :
    Confined stands start (applyScript visibility parent edits slots progress).2.2.store ∧
      Names start (applyScript visibility parent edits slots progress).2.2.store children
        (applyScript visibility parent edits slots progress).2.1 := by
  induction edits generalizing slots progress with
  | nil => exact ⟨hconfined, hslots⟩
  | cons edit edits ih =>
      have hstep := applyEdit_confined visibility hconfined.wellFormed hpart slots edit
      have hreached := hconfined.andThen hstep
      rw [applyScript]
      split
      next slots₁ progress₁ hrun =>
        rw [hrun] at hreached
        exact ih slots₁ progress₁ hreached (applyEdit_names hpart hconfined hslots hrun)
      next cause progress₁ hrun =>
        rw [hrun] at hreached hstep
        exact ⟨hreached, hslots.mono hstep⟩

/-- Editing the list of an atom is confined to the atom, wherever it stops. -/
theorem editList_confined (visibility : Visibility) (hwf : progress.store.WellFormed)
    {parent : Atom} (hpart : stands part parent.id) (children : List Note) :
    Confined stands progress.store (editList visibility parent children progress).2.2.store ∧
      Names progress.store (editList visibility parent children progress).2.2.store children
        (editList visibility parent children progress).2.1 := by
  have hstart : Confined stands progress.store progress.store :=
    .refl hwf
  have hslots := names_start progress.store progress.store children
  rw [editList]
  split
  next => exact ⟨hstart, hslots⟩
  next => exact applyScript_confined visibility hpart _ _ progress hstart hslots

/-! ## All levels -/

/-- Among some notes, each with the slot of its atom, a part stands for an atom. -/
def StandsAmong (children : List Note) (slots : List Slot) (part : Note) (id : AtomId) : Prop :=
  ∃ pair ∈ children.zip slots, pair.1.StandsFor pair.2.id part id

/-- What stands for an old atom among the children does so in the whole tree. -/
theorem Names.standsFor {root : Option AtomId} {note : Note} {id : AtomId}
    (h : Names a b note.children slots) (hid : a.HasAtom id)
    (hpart : StandsAmong note.children slots part id) : note.StandsFor root part id := by
  obtain ⟨⟨child, slot⟩, hpair, hpart⟩ := hpart
  have hname : FilledId (Gains a b) child.id slot.id := List.forall₂_zip h hpair
  refine Note.StandsFor.of_child (List.of_mem_zip hpair).1 ?_
  rcases hname with hsame | ⟨-, new, hslot, hnew⟩
  · exact hsame ▸ hpart
  · -- A new atom is not the one that the part stands for.
    cases hpart with
    | root hroot =>
        obtain rfl : new = id := Option.some.inj (hslot.symm.trans hroot)
        exact absurd hid hnew.1
    | below hparent hpart hid => exact .below hparent hpart hid

mutual

/-- A level is confined to the atoms for which its note stands, and fills in new
identifiers below it. -/
theorem applyNote_confined (visibility : Visibility) (id : AtomId) (depth : Nat)
    (progress : Progress) (note : Note) (hwf : progress.store.WellFormed) :
    Confined (note.StandsFor (some id)) progress.store
        (applyNote visibility id depth progress note).progress.store ∧
      note.FilledWith
        (Gains progress.store (applyNote visibility id depth progress note).progress.store)
        (applyNote visibility id depth progress note).notes ∧
      (applyNote visibility id depth progress note).notes.id = note.id := by
  cases note with
  | mk own value byname weight sharability created children =>
      let note : Note := { id := own, value, byname, weight, sharability, created, children }
      have hself : note.StandsFor (some id) note id := .root rfl
      rw [applyNote]
      split
      next cause progress₁ hrun =>
        rw [(storeProperties_eq_error hrun).1]
        exact ⟨.refl hwf, .refl note, rfl⟩
      next atom progress₁ hrun =>
        obtain ⟨stored, hstored, rfl, -, hsynced⟩ := storeProperties_synced hwf hrun
        have hfirst := hsynced.confined hwf hself
        have hid : (merge note stored).id = id := (hwf.atom_eq_iff.mp hstored).2
        split
        next => exact ⟨hfirst, .refl note, rfl⟩
        next depth =>
          split
          next =>
            have hlist := editList_confined visibility hsynced.wellFormed
              (hid.symm ▸ hself : note.StandsFor (some id) note (merge note stored).id) children
            have hgrows : ∀ id, progress.store.HasAtom id → progress₁.store.HasAtom id :=
              fun _ => hfirst.hasAtom
            split
            next cause slots progress₂ hedit =>
              rw [hedit] at hlist
              obtain ⟨hedited, hnames⟩ := hlist
              refine ⟨hfirst.andThen hedited, .mk (Or.inl rfl) rfl ?_, rfl⟩
              exact Note.forall₂_filledWith_mono hnames.filledWith fun _ h => h.of_hasAtom hgrows
            next slots progress₂ hedit =>
              rw [hedit] at hlist
              obtain ⟨hedited, hnames⟩ := hlist
              have hreached := hfirst.andThen hedited
              obtain ⟨hbelow, hfilled⟩ := applyChildren_confined visibility depth progress₂ slots
                children (fun _ => hedited.hasAtom) hedited.wellFormed hnames
              refine ⟨hreached.trans hbelow fun part id hid hpart => ?_,
                .mk (Or.inl rfl) rfl ?_, rfl⟩
              · have hchildren : Names progress₁.store progress₂.store note.children slots := hnames
                exact hchildren.standsFor (hfirst.hasAtom hid) hpart
              · exact Note.forall₂_filledWith_mono hfilled fun _ h => h.of_hasAtom hgrows
          next =>
            split
            next => exact ⟨hfirst, .refl note, rfl⟩
            next => exact ⟨hfirst, .refl note, rfl⟩

theorem applyChildren_confined (visibility : Visibility) (depth : Nat) (progress : Progress)
    (slots : List Slot) (children : List Note) {before : Store}
    (hbefore : ∀ id, before.HasAtom id → progress.store.HasAtom id)
    (hwf : progress.store.WellFormed) (hnames : Names before progress.store children slots) :
    Confined (StandsAmong children slots) progress.store
        (applyChildren visibility depth progress slots children).progress.store ∧
      List.Forall₂ (Note.FilledWith (Gains before
          (applyChildren visibility depth progress slots children).progress.store)) children
        (applyChildren visibility depth progress slots children).notes := by
  cases children with
  | nil =>
      rw [applyChildren]
      exact ⟨.refl hwf, .nil⟩
  | cons child children =>
      cases hnames with
      | @cons _ slot _ slots hname hnames =>
          have hsub : ∀ part id, child.StandsFor slot.id part id →
              StandsAmong (child :: children) (slot :: slots) part id :=
            fun part id hpart => ⟨(child, slot), List.mem_cons_self, hpart⟩
          have hsub' : ∀ part id, StandsAmong children slots part id →
              StandsAmong (child :: children) (slot :: slots) part id :=
            fun part id ⟨pair, hpair, hpart⟩ => ⟨pair, List.mem_cons_of_mem _ hpair, hpart⟩
          rw [applyChildren]
          split
          next hslot =>
            exact ⟨.refl hwf, Names.filledWith (.cons hname hnames)⟩
          next id hslot =>
            dsimp only
            generalize (if slot.isInserted then 0 else depth) = levels
            obtain ⟨hfirst, hfilled, hid⟩ :=
              applyNote_confined visibility id levels progress child hwf
            have hconfined := (Confined.refl hwf).trans hfirst fun part name _ hpart =>
              hsub part name (hslot.symm ▸ hpart)
            split
            next cause hfailure =>
              refine ⟨hconfined, .cons ?_ (Names.mono hnames hfirst).filledWith⟩
              refine (hfilled.mono fun _ h => h.of_hasAtom hbefore).withId ?_
              exact hname.mono fun _ h => h.trans_confined hfirst
            next hfailure =>
              obtain ⟨hrest, hothers⟩ := applyChildren_confined visibility depth _ slots children
                (fun id hid => hfirst.hasAtom (hbefore id hid)) hfirst.wellFormed
                (Names.mono hnames hfirst)
              refine ⟨hconfined.trans hrest fun part name _ => hsub' part name, .cons ?_ hothers⟩
              refine (hfilled.mono fun _ h => ?_).withId ?_
              · exact (h.of_hasAtom hbefore).trans_confined hrest
              · exact hname.mono fun _ h => (h.trans_confined hfirst).trans_confined hrest

end

/-- No list changes where no level is to be edited. -/
theorem applyNote_zero_places (visibility : Visibility) (id : AtomId) (progress : Progress)
    (note : Note) (hwf : progress.store.WellFormed) :
    (applyNote visibility id 0 progress note).progress.store.places = progress.store.places := by
  cases note with
  | mk own value byname weight sharability created children =>
      rw [applyNote]
      split
      next hrun => rw [(storeProperties_eq_error hrun).1]
      next hrun =>
        obtain ⟨stored, -, -, -, hsynced⟩ := storeProperties_synced hwf hrun
        exact hsynced.places

/-! ## Whole updates -/

/-- What an update of the atom `root` touches, wherever it stops. -/
structure TouchesOnly (root : Option AtomId) (depth : Depth) (note : Note) (before : Store)
    (outcome : Outcome Note) : Prop where
  /-- No atom is lost, and an atom is as it was but for what its notes set. -/
  atoms : ∀ id, before.HasAtom id → ∃ old new, before.atom id = .ok old ∧
    outcome.progress.store.atom id = .ok new ∧
    Revised (fun part => note.StandsFor root part id) old new
  /-- An atom that is neither the root nor named below it is as it was, with its list. -/
  others : ∀ id, before.HasAtom id → root ≠ some id → id ∉ note.idsBelow →
    SameAt before outcome.progress.store id
  lists : depth ≤ 0 → outcome.progress.store.places = before.places
  /-- What is filled in below the root are atoms that have come. -/
  notes : note.FilledWith (Gains before outcome.progress.store) outcome.notes
  id : outcome.notes.id = note.id

variable {store : Store} {root : Option AtomId} {depth : Depth} {note : Note}

theorem touchesOnly_refused (hwf : store.WellFormed) (log : Option (List Event))
    (cause : NoteError) : TouchesOnly root depth note store (refused log note store cause) where
  atoms := (Confined.refl hwf).revised
  others _ _ _ _ := ⟨rfl, rfl⟩
  lists _ := rfl
  notes := .refl note
  id := rfl

theorem touchesOnly_atAtomWith (hwf : store.WellFormed) (log : Option (List Event))
    (visibility : Visibility) (root : Option AtomId) (depth : Depth) (note : Note) :
    TouchesOnly root depth note store
      (atAtomWith log visibility root depth.levels note store) := by
  cases root with
  | none => exact touchesOnly_refused hwf log _
  | some id =>
      obtain ⟨hconfined, hfilled, hid⟩ :=
        applyNote_confined visibility id depth.levels { store, log } note hwf
      constructor
      case atoms => exact hconfined.revised
      case others =>
        intro other hother hroot hbelow
        apply hconfined.sameAt other hother
        intro part hpart
        exact hpart.eq_or_mem_idsBelow.elim hroot hbelow
      case lists =>
        intro hdepth
        rw [levels_eq_zero hdepth]
        exact applyNote_zero_places visibility id { store, log } note hwf
      case notes => exact hfilled
      case id => exact hid

/-- An update on a well-formed store, whether it succeeds or fails, touches only the
root and the atoms that its note names, and of these only what the note sets. -/
theorem update_touchesOnly (hwf : store.WellFormed) (log : Option (List Event))
    (visibility : Visibility) (root : Option AtomId) (depth : Depth) (note : Note) :
    TouchesOnly root depth note store
        (atAtomWith log visibility root depth.levels note store) ∧
      ∀ id, root = some id → TouchesOnly root depth note store
        (atRootWith log visibility id depth.levels note store) := by
  refine ⟨touchesOnly_atAtomWith hwf log visibility root depth note, ?_⟩
  rintro id rfl
  rw [atRootWith]
  split
  next => exact touchesOnly_refused hwf log _
  next => exact touchesOnly_refused hwf log _
  next atom hatom =>
    rw [((atom?_eq_some hwf.atomIdsNodup).mp hatom).2]
    exact touchesOnly_atAtomWith hwf log visibility (some id) depth note

/-- A child that the sample has under another name, one that is new, and one that
cannot be created. -/
def sampleRename : Note where
  children := [{ id := some "c", byname := "third" }, { value := some "new" }, { id := some " " }]

/-- The update of the sample fails, once a child has gone and another was created. -/
theorem sample_touchesOnly :
    sample.WellFormed ∧ (some "a" : Option AtomId) = some "a" ∧
    (atRootWith none .everything "a" (Depth.levels 1) sampleRename sample).failure =
      some (.store (.invalid .blankId)) ∧
    TouchesOnly (some "a") 1 sampleRename sample
      (atRootWith none .everything "a" (Depth.levels 1) sampleRename sample) :=
  ⟨sample_wellFormed, rfl, by decide +kernel,
    (update_touchesOnly sample_wellFormed none .everything (some "a") 1 sampleRename).2 "a" rfl⟩

end Update

end Outline
