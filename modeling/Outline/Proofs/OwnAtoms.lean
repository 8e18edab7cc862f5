import Outline.Proofs.Confinement
import Outline.Proofs.Windows

/-!
# Atoms that an update creates

An update that shows atoms by windows creates its atoms with the usual values of the
windows, so it shows them.  An atom that is shown stays so while the notes that stand for
it leave its weight and its sharability alone, and as long as it is shown, children that
are given to it are not refused.
-/

namespace Outline

/-- A note sets neither of the properties that decide whether an atom is shown. -/
def Note.LeavesShown (note : Note) : Prop :=
  note.weight = none ∧ note.sharability = none

/-! ## Notes that come back -/

namespace Note

variable {New : AtomId → Prop} {root : Option AtomId} {note written part : Note} {id : AtomId}

theorem FilledWith.exists_within (h : note.FilledWith New written) (hpart : part.Within written) :
    ∃ origin : Note, origin.Within note ∧ origin.FilledWith New part := by
  refine exists_within_of_forall₂ (fun a b hab => ?_) h hpart
  obtain ⟨-, -, hchildren⟩ := hab
  exact hchildren

/-- What stands for an atom is in the tree. -/
theorem StandsFor.within (h : note.StandsFor root part id) : part.Within note := by
  cases h with
  | root => exact .self
  | below hparent hpart =>
      induction hparent with
      | self => exact .ofChild hpart .self
      | ofChild hmem _ ih => exact .ofChild hmem ih

/-- If a whole tree sets no weight and no sharability, the one that comes back does not. -/
theorem FilledWith.leavesShown (h : note.FilledWith New written)
    (hleaves : ∀ part : Note, part.Within note → part.LeavesShown) (hpart : part.Within written) :
    part.LeavesShown := by
  obtain ⟨origin, horigin, -, hfields, -⟩ := h.exists_within hpart
  rw [hfields]
  exact hleaves origin horigin

/-- Of an atom that is not new, what stands for it in the notes that come back did so before. -/
theorem FilledWith.exists_standsFor (h : note.FilledWith New written) (hnew : ¬New id)
    (hpart : written.StandsFor root part id) :
    ∃ origin, note.StandsFor root origin id ∧ (origin.LeavesShown → part.LeavesShown) := by
  cases hpart with
  | root hroot =>
      obtain ⟨-, hfields, -⟩ := h
      exact ⟨note, .root hroot, fun hleaves => by rw [hfields]; exact hleaves⟩
  | below hparent hpart hid =>
      obtain ⟨origin, horigin, -, -, hchildren⟩ := h.exists_within hparent
      obtain ⟨child, hchild, hfilled, hfields, -⟩ := exists_mem_of_forall₂ hchildren hpart
      refine ⟨child, .below horigin hchild ?_, fun hleaves => by rw [hfields]; exact hleaves⟩
      rcases hfilled with hsame | ⟨-, name, hname, hisNew⟩
      · exact hsame.symm.trans hid
      · obtain rfl : name = id := Option.some.inj (hname.symm.trans hid)
        exact absurd hisNew hnew

/-- Notes without children come back without children. -/
theorem FilledWith.childless (h : note.FilledWith New written)
    (hleaves : ∀ child ∈ note.children, child.children = []) :
    ∀ child ∈ written.children, child.children = [] := by
  obtain ⟨-, -, hchildren⟩ := h
  intro child hchild
  obtain ⟨origin, horigin, -, -, hbelow⟩ := exists_mem_of_forall₂ hchildren hchild
  rw [hleaves origin horigin] at hbelow
  exact List.forall₂_nil_left_iff.mp hbelow

end Note

/-! ## What windows show -/

theorem Window.contains_usual (window : Window) : window.contains window.usual := by
  have h := window.areBounds
  simp only [Outline.areBounds, Bool.and_eq_true] at h
  obtain ⟨⟨⟨-, hleast⟩, hmost⟩, -⟩ := h
  rw [contains, hleast, hmost, Bool.and_self]

/-- Numbers of the same value are in the same windows. -/
theorem Window.contains_eq {x y : Single} (h : x.sameValue y) (window : Window) :
    window.contains x = window.contains y := by
  obtain ⟨hx, hy, horder⟩ := Single.sameValue_iff.mp h
  simp [contains, Single.atMost, hx, hy, horder]

namespace Visibility

variable {sharability weight : Window} {old new : Atom}

theorem contains_getD_eq {x y : Option Single} (h : SameNumber x y) (window : Window) :
    window.contains (x.getD window.usual) = window.contains (y.getD window.usual) := by
  cases x <;> cases y
  case none.none => rfl
  case some.some => exact window.contains_eq h
  all_goals cases h

/-- Whether an atom is shown depends on the values of its sharability and weight. -/
theorem shows_within_eq (hsharability : SameNumber new.sharability old.sharability)
    (hweight : SameNumber new.weight old.weight) :
    (within sharability weight).shows new = (within sharability weight).shows old := by
  simp only [within, contains_getD_eq hsharability, contains_getD_eq hweight]

theorem shows_within_ofDefaults (id : AtomId) (time : Int) :
    (within sharability weight).shows
      (.ofDefaults id time (within sharability weight).defaults) := by
  simp [within, Atom.ofDefaults, Window.contains_usual]

/-- What a note merges into an atom hides it only if it sets a weight or a sharability. -/
theorem shows_within_merge {note : Note} (h : note.LeavesShown) (stored : Atom) :
    (within sharability weight).shows (Update.merge note stored) =
      (within sharability weight).shows stored := by
  simp [within, Update.merge, Update.mergeNumber, Update.changesNumber, h.1, h.2]

end Visibility

namespace Store

variable {sharability weight : Window} {store store' before after : Store} {id name : AtomId}
  {note : Note} {atom created : Atom} {defaults : Defaults}

/-! ## One atom that is shown -/

/-- The atom is not there, or it is shown. -/
def Shown (visibility : Visibility) (id : AtomId) (store : Store) : Prop :=
  ∀ atom, store.atom id = .ok atom → visibility.shows atom

/-- An atom that can be read once another one is created was there, or is that one. -/
theorem atom_of_createAtom {wanted : Option AtomId}
    (hrun : createAtom wanted defaults store = .ok created store')
    (hatom : store'.atom id = .ok atom) :
    store.atom id = .ok atom ∨ atom = created.asStored := by
  obtain ⟨-, hvalid, hnew, rfl⟩ := createAtom_eq_ok hrun
  have hread : (store.withAtom created).atom id = .ok atom := hatom
  by_cases hid : store.HasAtom id
  · refine Or.inl (atom_eq_ok_iff_atomRow?.mpr ?_)
    obtain ⟨row, hrow, hreads⟩ := atom_eq_ok_iff_atomRow?.mp hread
    rw [atomRow?_withAtom_of_hasAtom hid] at hrow
    exact ⟨row, hrow, hreads⟩
  · obtain rfl := (hasAtom_withAtom.mp (hasAtom_of_atom hread)).resolve_left hid
    have hself : (store.withAtom created).atom created.id = .ok created.asStored :=
      atom_eq_ok_iff_atomRow?.mpr
        ⟨_, atomRow?_withAtom_self hnew, AtomRow.toAtom_eq_ok.mpr (AtomRow.reads_ofAtom hvalid)⟩
    exact Or.inr (Except.ok.inj (hread.symm.trans hself))

theorem Shown.createAtom {wanted : Option AtomId} (h : store.Shown (.within sharability weight) id)
    (hrun : createAtom wanted (Visibility.within sharability weight).defaults store =
      .ok created store') : store'.Shown (.within sharability weight) id := by
  intro atom hatom
  rcases atom_of_createAtom hrun hatom with hatom | rfl
  · exact h atom hatom
  · obtain ⟨hcreated, hvalid, -, -⟩ := createAtom_eq_ok hrun
    obtain ⟨-, -, -, hsharability, hweight⟩ := Atom.validate_eq_ok.mp hvalid
    have hshows : (Visibility.within sharability weight).shows created.asStored =
        (Visibility.within sharability weight).shows created :=
      Visibility.shows_within_eq (sameNumber_stored hsharability) (sameNumber_stored hweight)
    rw [hshows, hcreated]
    exact Visibility.shows_within_ofDefaults _ _

/-- A list that is edited hides no atom. -/
theorem Shown.relisted {places : List Place} (hwf : before.WellFormed)
    (h : before.Shown (.within sharability weight) id)
    (hrelisted : Relisted before after name places) :
    after.Shown (.within sharability weight) id := by
  intro atom hatom
  have hrow := hrelisted.relinked.withoutNotes_atomRow? id
  have hshown := h _ (atom_eq_ok_of_withoutNotes hwf hrow.symm hatom)
  exact hshown

/-- Edits of lists hide no atom, and create none that is hidden. -/
theorem keptByEdits_shown (sharability weight : Window) (owner id : AtomId) :
    KeptByEdits (Visibility.within sharability weight).defaults owner fun store =>
      store.WellFormed ∧ store.Shown (.within sharability weight) id where
  createAtom wanted store h := by
    refine ⟨keeps_wellFormed_createAtom wanted _ store h.1, ?_⟩
    cases hrun : createAtom wanted (Visibility.within sharability weight).defaults store with
    | ok atom store' => exact h.2.createAtom hrun
    | error cause store' =>
        obtain ⟨supply, rfl⟩ := createAtom_eq_error hrun
        exact h.2
  insertAt position child store h := by
    refine ⟨keeps_wellFormed_insertAt owner position child store h.1, ?_⟩
    rcases insertAt_cases h.1 owner position child with
      ⟨_, _, cell, store', -, hrun, hrelisted⟩ | ⟨cause, supply, hrun⟩
    · rw [hrun]
      exact h.2.relisted h.1 hrelisted
    · rw [hrun]
      exact h.2
  deleteAt position store h := by
    refine ⟨keeps_wellFormed_deleteAt owner position store h.1, ?_⟩
    rcases deleteAt_cases h.1 owner position with
      ⟨_, _, _, store', -, hrun, hrelisted⟩ | ⟨cause, hrun⟩
    · rw [hrun]
      exact h.2.relisted h.1 hrelisted
    · rw [hrun]
      exact h.2

/-- Storing properties hides no atom but the one they are for, and that one only if they
may decide it. -/
theorem Shown.synced (h : before.Shown (.within sharability weight) id)
    (hsynced : Synced note name before after) (hnote : name = id → note.LeavesShown) :
    after.Shown (.within sharability weight) id := by
  intro atom hatom
  by_cases hid : id = name
  · subst hid
    obtain ⟨old, new, hold, hnew, hcarries⟩ := hsynced.carries
    obtain rfl : new = atom := Except.ok.inj (hnew.symm.trans hatom)
    obtain ⟨hweight, hsharability⟩ := hnote rfl
    have hsame := hcarries.sharability
    have hsame' := hcarries.weight
    rw [hsharability] at hsame
    rw [hweight] at hsame'
    rw [Visibility.shows_within_eq hsame hsame']
    exact h old hold
  · refine h atom (atom_eq_ok_iff_atomRow?.mpr ?_)
    rw [← hsynced.rows id hid]
    exact atom_eq_ok_iff_atomRow?.mp hatom

end Store

namespace Update

open Progress Store

variable {α β : Type} {visibility : Visibility} {progress progress' : Progress}

/-! ## Failures of the store -/

/-- A step fails only where the store does. -/
def FailsInStore (step : UpdateM α) : Prop :=
  ∀ progress cause progress', step progress = .error cause progress' → ∃ fault, cause = .store fault

theorem FailsInStore.pure (a : α) : FailsInStore (pure a) :=
  fun _ _ _ h => by cases h

theorem FailsInStore.bind {step : UpdateM α} {rest : α → UpdateM β} (h : FailsInStore step)
    (hrest : ∀ a, FailsInStore (rest a)) : FailsInStore (step >>= rest) := by
  intro progress cause progress' hrun
  rcases bind_eq_error.mp hrun with hstop | ⟨a, progress₁, -, hrun⟩
  · exact h _ _ _ hstop
  · exact hrest a _ _ _ hrun

theorem failsInStore_onStore (action : StoreM α) : FailsInStore (onStore action) := by
  intro progress cause progress' hrun
  obtain ⟨fault, -, -, rfl, -⟩ := onStore_eq_error hrun
  exact ⟨fault, rfl⟩

theorem failsInStore_perform (action : StoreM α) (event : α → Event)
    (change : UpdateStats → UpdateStats) (answer : α → β) :
    FailsInStore (perform action event change answer) := by
  refine (failsInStore_onStore action).bind fun a => ?_
  intro progress cause progress' hrun
  cases hrun

theorem failsInStore_findOrCreate (visibility : Visibility) (id : Option AtomId) :
    FailsInStore (findOrCreate visibility id) := by
  cases id with
  | none => exact failsInStore_perform _ _ _ _
  | some id =>
      refine (failsInStore_onStore _).bind fun existing => ?_
      cases existing with
      | some atom => exact .pure atom
      | none => exact failsInStore_perform _ _ _ _

theorem failsInStore_applyEdit (visibility : Visibility) (parent : AtomId) (slots : List Slot)
    (edit : Edit) : FailsInStore (applyEdit visibility parent slots edit) := by
  cases edit with
  | delete position index => exact failsInStore_perform _ _ _ _
  | insert position index =>
      cases hslot : slots[index]? with
      | none =>
          rw [applyEdit, hslot]
          exact .pure slots
      | some slot =>
          rw [applyEdit_insert_eq visibility parent position hslot]
          exact (failsInStore_findOrCreate visibility slot.id).bind fun child =>
            failsInStore_perform _ _ _ _

theorem applyScript_failure {parent : AtomId} {edits : List Edit} {slots slots' : List Slot}
    {cause : NoteError}
    (h : applyScript visibility parent edits slots progress = (some cause, slots', progress')) :
    ∃ fault, cause = .store fault := by
  induction edits generalizing slots progress with
  | nil => cases h
  | cons edit edits ih =>
      rw [applyScript] at h
      split at h
      next => exact ih h
      next hrun =>
        cases h
        exact failsInStore_applyEdit _ _ _ _ _ _ _ hrun

theorem editList_failure {parent : Atom} {children : List Note} {slots : List Slot}
    {cause : NoteError}
    (h : editList visibility parent children progress = (some cause, slots, progress')) :
    ∃ fault, cause = .store fault := by
  rw [editList] at h
  split at h
  next fault _ =>
    cases h
    exact ⟨fault, rfl⟩
  next => exact applyScript_failure h

/-! ## All levels -/

/-- Editing the list of an atom hides none, wherever it stops. -/
theorem editList_shown {sharability weight : Window} {id : AtomId} {parent : Atom}
    {children : List Note} {failure : Option NoteError} {slots : List Slot}
    (hwf : progress.store.WellFormed)
    (hshown : progress.store.Shown (.within sharability weight) id)
    (hrun : editList (.within sharability weight) parent children progress =
      (failure, slots, progress')) :
    progress'.store.WellFormed ∧ progress'.store.Shown (.within sharability weight) id := by
  have hlist := editList_keeps
    (keeps_applyEdit (keptByEdits_shown sharability weight parent.id id)) children progress
    ⟨hwf, hshown⟩
  rw [hrun] at hlist
  exact hlist

variable {sharability weight : Window} {id : AtomId} {note part : Note}

/-- What stands for an atom in a note does so once the note has an identifier. -/
theorem exists_standsFor_withId {root : Option AtomId} (h : note.StandsFor root part id)
    (own : Option AtomId) : ∃ part', { note with id := own }.StandsFor root part' id ∧
      part'.children = part.children ∧ (part'.LeavesShown → part.LeavesShown) := by
  cases h with
  | root hroot => exact ⟨_, .root hroot, rfl, fun h => h⟩
  | below hparent hpart hid =>
      refine ⟨part, ?_, rfl, fun h => h⟩
      cases hparent with
      | self => exact .below .self hpart hid
      | ofChild hmem hparent => exact .below (.ofChild hmem hparent) hpart hid

/-- An update of the atom `root` has not hidden the atom `id`, and has not refused children
of it. -/
structure Spares (sharability weight : Window) (id root : AtomId) (outcome : Outcome Note) :
    Prop where
  shown : outcome.progress.store.Shown (.within sharability weight) id
  /-- Only children of another atom have been refused. -/
  refused : ∀ fault, outcome.failure = some (.invalidUpdate fault) → ∃ part other,
    outcome.notes.StandsFor (some root) part other ∧ part.children ≠ [] ∧
    fault = .hidden other ∧ other ≠ id

/-- The same of updates of the atoms that notes have come to name. -/
structure SparesAmong (sharability weight : Window) (id : AtomId)
    (outcomes : Outcome (List Note)) : Prop where
  shown : outcomes.progress.store.Shown (.within sharability weight) id
  refused : ∀ fault, outcomes.failure = some (.invalidUpdate fault) →
    ∃ written ∈ outcomes.notes, ∃ part other, written.StandsFor written.id part other ∧
      part.children ≠ [] ∧ fault = .hidden other ∧ other ≠ id

mutual

/-- A level spares an atom if the notes that stand for it leave alone what decides whether it is
shown. -/
theorem applyNote_spares (name : AtomId) (depth : Nat) (progress : Progress) (note : Note)
    {outcome : Outcome Note} (hwf : progress.store.WellFormed)
    (hshown : progress.store.Shown (.within sharability weight) id)
    (hrun : applyNote (.within sharability weight) name depth progress note = outcome)
    (hnotes : ∀ part, outcome.notes.StandsFor (some name) part id → part.LeavesShown) :
    Spares sharability weight id name outcome := by
  cases note with
  | mk own value byname weight' sharability' created children =>
      have hroot : name = id → Note.LeavesShown
          { id := own, value, byname, weight := weight', sharability := sharability', created,
            children } := by
        rintro rfl
        obtain ⟨-, ⟨-, hfields, -⟩, -⟩ := applyNote_confined (.within sharability weight) name depth
          progress _ hwf
        rw [hrun] at hfields
        have hleaves := hnotes outcome.notes (.root rfl)
        rw [hfields] at hleaves
        exact hleaves
      rw [applyNote] at hrun
      split at hrun
      next hstore =>
        subst hrun
        obtain ⟨rfl, fault, rfl, -⟩ := storeProperties_eq_error hstore
        exact ⟨hshown, fun _ hfailure => by cases hfailure⟩
      next atom progress₁ hstore =>
        obtain ⟨stored, hstored, rfl, -, hsynced⟩ := storeProperties_synced hwf hstore
        have hfirst := hshown.synced hsynced hroot
        split at hrun
        next =>
          subst hrun
          exact ⟨hfirst, fun _ hfailure => by cases hfailure⟩
        next depth =>
          split at hrun
          next =>
            split at hrun
            next hedit =>
              subst hrun
              obtain ⟨fault, rfl⟩ := editList_failure hedit
              exact ⟨(editList_shown hsynced.wellFormed hfirst hedit).2,
                fun _ hfailure => by cases hfailure⟩
            next slots progress₂ hedit =>
              subst hrun
              obtain ⟨hwf', hlist⟩ := editList_shown hsynced.wellFormed hfirst hedit
              obtain ⟨items, -, -, rfl, -⟩ := editList_of_synced hwf hstored hsynced hedit
              have hchildren := applyChildren_spares depth progress₂ items children hwf' hlist rfl
                fun written hwritten part hpart => hnotes part (hpart.of_child hwritten)
              refine ⟨hchildren.shown, fun fault hfailure => ?_⟩
              obtain ⟨written, hwritten, part, other, hpart, hrest⟩ :=
                hchildren.refused fault hfailure
              exact ⟨part, other, hpart.of_child hwritten, hrest⟩
          next hhidden =>
            split at hrun
            next =>
              subst hrun
              exact ⟨hfirst, fun _ hfailure => by cases hfailure⟩
            next hsome =>
              subst hrun
              refine ⟨hfirst, fun fault hfailure => ?_⟩
              cases hfailure
              obtain rfl : stored.id = name := (hwf.atom_eq_iff.mp hstored).2
              refine ⟨_, stored.id, .root rfl, by simpa using hsome, rfl, ?_⟩
              rintro rfl
              rw [Visibility.shows_within_merge (hroot rfl)] at hhidden
              exact hhidden (hshown stored hstored)

theorem applyChildren_spares (depth : Nat) (progress : Progress) (items : List Woven)
    (children : List Note) {outcomes : Outcome (List Note)} (hwf : progress.store.WellFormed)
    (hshown : progress.store.Shown (.within sharability weight) id)
    (hrun : applyChildren (.within sharability weight) depth progress (items.map Woven.slot)
      children = outcomes)
    (hnotes : ∀ written ∈ outcomes.notes, ∀ part, written.StandsFor written.id part id →
      part.LeavesShown) :
    SparesAmong sharability weight id outcomes := by
  cases children with
  | nil =>
      rw [applyChildren] at hrun
      subst hrun
      exact ⟨hshown, fun _ hfailure => by cases hfailure⟩
  | cons child children =>
      cases items with
      | nil =>
          rw [List.map_nil, applyChildren] at hrun
          subst hrun
          exact ⟨hshown, fun _ hfailure => by cases hfailure⟩
      | cons item items =>
          rw [List.map_cons, applyChildren] at hrun
          generalize (if (Woven.slot item).isInserted then 0 else depth) = levels at hrun
          dsimp only [Woven.slot] at hrun
          obtain ⟨hconfined, -, -⟩ := applyNote_confined (.within sharability weight)
            item.place.atom levels progress child hwf
          have hfirst := applyNote_spares item.place.atom levels progress child hwf hshown rfl
          -- The note of the first atom comes back with the identifier of the atom.
          have hspares (hmem : { (applyNote (.within sharability weight) item.place.atom levels
              progress child).notes with id := some item.place.atom } ∈ outcomes.notes) :=
            hfirst fun part hpart => by
              obtain ⟨part', hpart', -, hleaves⟩ :=
                exists_standsFor_withId hpart (some item.place.atom)
              exact hleaves (hnotes _ hmem part' hpart')
          split at hrun
          next cause hfailure =>
            subst hrun
            refine ⟨(hspares List.mem_cons_self).shown, fun fault heq => ?_⟩
            obtain ⟨part, other, hpart, hchildren, hrest⟩ :=
              (hspares List.mem_cons_self).refused fault (hfailure.trans heq)
            obtain ⟨part', hpart', hsame, -⟩ :=
              exists_standsFor_withId hpart (some item.place.atom)
            exact ⟨_, List.mem_cons_self, part', other, hpart', hsame ▸ hchildren, hrest⟩
          next hfailure =>
            subst hrun
            have hrest := applyChildren_spares depth _ items children hconfined.wellFormed
              (hspares List.mem_cons_self).shown rfl
              fun written hwritten => hnotes written (List.mem_cons_of_mem _ hwritten)
            refine ⟨hrest.shown, fun fault heq => ?_⟩
            obtain ⟨written, hwritten, hpart⟩ := hrest.refused fault heq
            exact ⟨written, List.mem_cons_of_mem _ hwritten, hpart⟩

end

/-! ## Whole updates -/

variable {log : Option (List Event)} {store : Store} {root : AtomId} {depth : Depth}
  {outcome : Outcome Note}

/-- An update of an atom that exists is a level of it. -/
theorem atRootWith_of_hasAtom {visibility : Visibility} {levels : Nat} (hwf : store.WellFormed)
    (hroot : store.HasAtom root) : atRootWith log visibility root levels note store =
      applyNote visibility root levels { store, log } note := by
  obtain ⟨atom, hatom, -, rfl⟩ := hwf.arranged.exists_atom hroot
  rw [atRootWith, atom_eq_ok.mp hatom]
  rfl

/-- An atom is there and shown, and later updates can give it children. -/
structure TakesChildren (sharability weight : Window) (store : Store) (id : AtomId) : Prop where
  shown : ∃ atom, store.atom id = .ok atom ∧ (Visibility.within sharability weight).shows atom
  /-- Wherever it stands in a later update, only children of other atoms are refused. -/
  spared : ∀ (log : Option (List Event)) (root : AtomId) (depth : Depth) (note : Note)
    (fault : UpdateFault), store.HasAtom root →
    (∀ part, note.StandsFor (some root) part id → part.LeavesShown) →
    (atRootWith log (.within sharability weight) root depth.levels note store).failure =
      some (.invalidUpdate fault) → ∃ other, fault = .hidden other ∧ other ≠ id
  /-- Where it is the only atom with children, none are refused. -/
  accepted : ∀ (log : Option (List Event)) (depth : Depth) (note : Note) (fault : UpdateFault),
    (∀ part, note.StandsFor (some id) part id → part.LeavesShown) →
    (∀ child ∈ note.children, child.children = []) →
    (atRootWith log (.within sharability weight) id depth.levels note store).failure ≠
      some (.invalidUpdate fault)

/-- An update spares an atom that is shown before, if the notes that stand for it leave alone
what decides that. -/
theorem spares_of_shown {levels : Nat} (hwf : store.WellFormed) (hid : store.HasAtom id)
    (hshown : store.Shown (.within sharability weight) id) (hroot : store.HasAtom root)
    (hnotes : ∀ part, note.StandsFor (some root) part id → part.LeavesShown) :
    Spares sharability weight id root
      (atRootWith log (.within sharability weight) root levels note store) := by
  rw [atRootWith_of_hasAtom hwf hroot]
  obtain ⟨-, hfilled, -⟩ := applyNote_confined (.within sharability weight) root levels
    { store, log } note hwf
  refine applyNote_spares root levels { store, log } note hwf hshown rfl fun part hpart => ?_
  obtain ⟨origin, horigin, hleaves⟩ := hfilled.exists_standsFor (fun hgains => hgains.1 hid) hpart
  exact hleaves (hnotes origin horigin)

theorem takesChildren_of_shown (hwf : store.WellFormed) (hid : store.HasAtom id)
    (hshown : store.Shown (.within sharability weight) id) :
    TakesChildren sharability weight store id where
  shown := by
    obtain ⟨atom, hatom, -, -⟩ := hwf.arranged.exists_atom hid
    exact ⟨atom, hatom, hshown atom hatom⟩
  spared log root depth note fault hroot hnotes hfailure := by
    obtain ⟨-, other, -, -, hother⟩ :=
      (spares_of_shown hwf hid hshown hroot hnotes).refused fault hfailure
    exact ⟨other, hother⟩
  accepted log depth note fault hnotes hleaves hfailure := by
    obtain ⟨part, other, hpart, hchildren, -, hother⟩ :=
      (spares_of_shown hwf hid hshown hid hnotes).refused fault hfailure
    rw [atRootWith_of_hasAtom hwf hid] at hpart
    obtain ⟨-, hfilled, -⟩ := applyNote_confined (.within sharability weight) id depth.levels
      { store, log } note hwf
    have hleaves := hfilled.childless hleaves
    cases hpart with
    | root hroot => exact hother (Option.some.inj hroot).symm
    | below hparent hpart =>
        cases hparent with
        | self => exact hchildren (hleaves part hpart)
        | ofChild hmem hparent =>
            cases hparent with
            | self => rw [hleaves _ hmem] at hpart; cases hpart
            | ofChild hmem' => rw [hleaves _ hmem] at hmem'; cases hmem'

/-- Whatever an update by windows creates is shown by them, where the notes that stand for it
leave alone what decides that. -/
theorem takesChildren_of_created (hwf : store.WellFormed)
    (hrun : atRootWith log (.within sharability weight) root depth.levels note store = outcome)
    (hnew : ¬store.HasAtom id) (hid : outcome.progress.store.HasAtom id)
    (hnotes : ∀ part, outcome.notes.StandsFor (some root) part id → part.LeavesShown) :
    TakesChildren sharability weight outcome.progress.store id := by
  by_cases hroot : store.HasAtom root
  · rw [atRootWith_of_hasAtom hwf hroot] at hrun
    obtain ⟨hconfined, -, -⟩ := applyNote_confined (.within sharability weight) root depth.levels
      { store, log } note hwf
    rw [hrun] at hconfined
    have hnone : store.Shown (.within sharability weight) id :=
      fun atom hatom => absurd (hasAtom_of_atom hatom) hnew
    have hspares := applyNote_spares root depth.levels { store, log } note hwf hnone hrun hnotes
    exact takesChildren_of_shown hconfined.wellFormed hid hspares.shown
  · rw [atRootWith, atom?_eq_none.mpr hroot] at hrun
    subst hrun
    exact absurd hid hnew

/-- Bounds make a window exactly if they are real numbers between zero and one in order.  What an
update by two windows creates is shown by them when it is read back, and takes children in
later updates, provided that its notes set neither its sharability nor its weight. -/
theorem created_takes_children :
    (∀ (property : NumberProperty) (least usual most : Single),
      (∃ window, Window.ofBounds property least usual most = .ok window) ↔
        InOrder least usual most) ∧
    ∀ (s₁ s₂ s₃ w₁ w₂ w₃ : Single) (sharability weight : Window),
      Window.ofBounds .sharability s₁ s₂ s₃ = .ok sharability →
      Window.ofBounds .weight w₁ w₂ w₃ = .ok weight →
      ∀ (log : Option (List Event)) (root : AtomId) (depth : Depth) (note : Note) (store : Store)
        (outcome : Outcome Note), store.WellFormed →
        atRootWith log (.within sharability weight) root depth.levels note store = outcome →
        outcome.failure = none →
        ∀ id, ¬store.HasAtom id → outcome.progress.store.HasAtom id →
          (∀ part, outcome.notes.StandsFor (some root) part id → part.LeavesShown) →
          TakesChildren sharability weight outcome.progress.store id := by
  constructor
  · intro property least usual most
    exact Window.exists_ofBounds_iff
  · intro s₁ s₂ s₃ w₁ w₂ w₃ sharability weight _ _ log root depth note store outcome hwf hrun _ id
      hnew hid hnotes
    exact takesChildren_of_created hwf hrun hnew hid hnotes

/-- The window of a single number. -/
def sampleWindow (x : Single) (h : areBounds x x x) : Window :=
  ⟨x, x, x, h⟩

/-- A child between two that the sample has. -/
def sampleChild : Note where
  children := [{ id := some "b" }, { value := some "new" }, { id := some "c" }]

/-- The sample creates the child and shows it. -/
theorem sample_takes_children :
    let sharability := sampleWindow ⟨0x80000000⟩ (by decide)
    let weight := sampleWindow ⟨0x3f000000⟩ (by decide)
    let outcome := atRootWith none (.within sharability weight) "a" (Depth.levels 1) sampleChild
      sample
    Window.ofBounds .sharability ⟨0x80000000⟩ ⟨0x80000000⟩ ⟨0x80000000⟩ = .ok sharability ∧
    Window.ofBounds .weight ⟨0x3f000000⟩ ⟨0x3f000000⟩ ⟨0x3f000000⟩ = .ok weight ∧
    sample.WellFormed ∧ outcome.failure = none ∧
    ¬sample.HasAtom sample.supply.nextIdentifier ∧
    outcome.progress.store.HasAtom sample.supply.nextIdentifier ∧
    TakesChildren sharability weight outcome.progress.store sample.supply.nextIdentifier := by
  intro sharability weight outcome
  have hsharability : Window.ofBounds .sharability ⟨0x80000000⟩ ⟨0x80000000⟩ ⟨0x80000000⟩ =
      .ok sharability := Window.ofBounds_eq_ok.mpr ⟨rfl, rfl, rfl⟩
  have hweight : Window.ofBounds .weight ⟨0x3f000000⟩ ⟨0x3f000000⟩ ⟨0x3f000000⟩ = .ok weight :=
    Window.ofBounds_eq_ok.mpr ⟨rfl, rfl, rfl⟩
  have hok : outcome.failure = none := by decide +kernel
  have hdraws : sample.DrawsNew [] := sample_drawsNew (by decide)
  have hnew := hdraws.noAtom _ (Supply.upcoming_nextIdentifier _)
  have hcreated : outcome.progress.store.HasAtom sample.supply.nextIdentifier :=
    hasAtom_iff_mem.mpr (by decide +kernel)
  have hroot : sample.HasAtom "a" := hasAtom_iff_mem.mpr (by decide)
  have hleaves : ∀ part : Note, part.Within sampleChild → part.LeavesShown := by
    refine Note.forall_within ⟨rfl, rfl⟩ fun child hchild => ?_
    have hnone : child.LeavesShown ∧ child.children = [] := by
      simp only [sampleChild, List.mem_cons, List.not_mem_nil, or_false] at hchild
      rcases hchild with rfl | rfl | rfl <;> exact ⟨⟨rfl, rfl⟩, rfl⟩
    refine Note.forall_within hnone.1 fun other hother => ?_
    rw [hnone.2] at hother
    cases hother
  have hnotes : ∀ part, outcome.notes.StandsFor (some "a") part sample.supply.nextIdentifier →
      part.LeavesShown := by
    intro part hpart
    obtain ⟨-, hfilled, -⟩ := applyNote_confined (.within sharability weight) "a" (Depth.levels 1)
      { store := sample, log := none } sampleChild sample_wellFormed
    rw [← atRootWith_of_hasAtom sample_wellFormed hroot] at hfilled
    exact hfilled.leavesShown hleaves hpart.within
  exact ⟨hsharability, hweight, sample_wellFormed, hok, hnew, hcreated,
    created_takes_children.2 _ _ _ _ _ _ _ _ hsharability hweight none "a" 1 sampleChild sample
      outcome sample_wellFormed rfl hok _ hnew hcreated hnotes⟩

end Update

end Outline
