import Outline.Proofs.UpdateSteps

/-!
# Invariants of updates

An update is made of steps, and its steps of operations on the store.  What each
of them keeps, also when it fails, every update keeps, wherever it stops.
-/

namespace Outline

/-- A property of stores that no operation of an update breaks, also when it
fails. -/
structure KeptByOperations (P : Store → Prop) : Prop where
  createAtom : ∀ id defaults, Keeps P (Store.createAtom id defaults)
  updateAtom : ∀ atom, Keeps P (Store.updateAtom atom)
  insertAt : ∀ owner position child, Keeps P (Store.insertAt owner position child)
  deleteAt : ∀ owner position, Keeps P (Store.deleteAt owner position)
  indexText : ∀ id text store, P store → P (store.indexText id text)

/-- A property of stores that no edit of the list of `owner` breaks, also when it
fails, where new atoms get `defaults`. -/
structure KeptByEdits (defaults : Defaults) (owner : AtomId) (P : Store → Prop) : Prop where
  createAtom : ∀ id, Keeps P (Store.createAtom id defaults)
  insertAt : ∀ position child, Keeps P (Store.insertAt owner position child)
  deleteAt : ∀ position, Keeps P (Store.deleteAt owner position)

theorem KeptByOperations.edits {P : Store → Prop} (h : KeptByOperations P) (defaults : Defaults)
    (owner : AtomId) : KeptByEdits defaults owner P :=
  ⟨fun id => h.createAtom id defaults, h.insertAt owner, h.deleteAt owner⟩

namespace Update

open Progress

variable {P : Store → Prop}

/-- The property of the store that an update has reached. -/
def OfStore (P : Store → Prop) (progress : Progress) : Prop :=
  P progress.store

theorem keeps_onStore {α : Type} {action : StoreM α} (h : Keeps P action) :
    Keeps (OfStore P) (onStore action) := by
  intro progress hprogress
  have hfinal := h progress.store hprogress
  cases hrun : action progress.store with
  | ok answer store =>
      rw [hrun] at hfinal
      simpa [onStore, hrun, OfStore] using hfinal
  | error cause store =>
      rw [hrun] at hfinal
      simpa [onStore, hrun, OfStore] using hfinal

theorem keeps_progressLook {α : Type} (question : Store → Except StoreError α) :
    Keeps (OfStore P) (look question) :=
  keeps_onStore (Store.keeps_look question)

theorem keeps_record (event : Event) : Keeps (OfStore P) (record event) :=
  fun _ h => h

theorem keeps_count (change : UpdateStats → UpdateStats) : Keeps (OfStore P) (count change) :=
  fun _ h => h

/-! ## One level -/

theorem keeps_storeProperties (h : KeptByOperations P) (id : AtomId) (note : Note) :
    Keeps (OfStore P) (storeProperties id note) := by
  refine (keeps_progressLook _).bind fun stored => ?_
  extract_lets atom changesValue changesOthers finish recordOthers recordValue
  have hfinish : ∀ u, Keeps (OfStore P) (finish u) := fun _ => Keeps.pure _
  have hothers : ∀ u, Keeps (OfStore P) (recordOthers u) := fun _ =>
    ((keeps_record _).bind hfinish).ite (hfinish ())
  have hvalue : ∀ u, Keeps (OfStore P) (recordValue u) := by
    intro _
    refine Keeps.ite ((keeps_record _).bind fun _ => ?_) (hothers ())
    split
    · exact Keeps.bind (Keeps.modify fun _ => h.indexText _ _ _) hothers
    · exact hothers ()
  exact ((keeps_onStore (h.updateAtom atom)).bind hvalue).ite (hvalue ())

theorem keeps_perform {α β : Type} {action : StoreM α} (h : Keeps P action) (event : α → Event)
    (change : UpdateStats → UpdateStats) (answer : α → β) :
    Keeps (OfStore P) (perform action event change answer) :=
  (keeps_onStore h).bind fun _ =>
    (keeps_record _).bind fun _ => (keeps_count _).bind fun _ => Keeps.pure _

theorem keeps_createFor {visibility : Visibility} {id : Option AtomId}
    (h : Keeps P (Store.createAtom id visibility.defaults)) :
    Keeps (OfStore P) (createFor visibility id) :=
  keeps_perform h _ _ _

theorem keeps_findOrCreate {visibility : Visibility}
    (h : ∀ id, Keeps P (Store.createAtom id visibility.defaults)) (id : Option AtomId) :
    Keeps (OfStore P) (findOrCreate visibility id) := by
  cases id with
  | none => exact keeps_createFor (h none)
  | some id =>
      refine (keeps_progressLook _).bind fun existing => ?_
      cases existing with
      | some atom => exact Keeps.pure _
      | none => exact keeps_createFor (h (some id))

theorem keeps_applyEdit {visibility : Visibility} {parent : AtomId}
    (h : KeptByEdits visibility.defaults parent P) (slots : List Slot) (edit : Edit) :
    Keeps (OfStore P) (applyEdit visibility parent slots edit) := by
  cases edit with
  | delete position index => exact keeps_perform (h.deleteAt position) _ _ _
  | insert position index =>
      cases hslot : slots[index]? with
      | none =>
          rw [applyEdit, hslot]
          exact Keeps.pure _
      | some slot =>
          rw [applyEdit_insert_eq visibility parent position hslot]
          exact (keeps_findOrCreate h.createAtom _).bind fun child =>
            keeps_perform (h.insertAt position child.id) _ _ _

/-- A property of the progress that no step of an update breaks, also when it fails. -/
structure KeptBySteps (visibility : Visibility) (Q : Progress → Prop) : Prop where
  storeProperties : ∀ id note, Keeps Q (storeProperties id note)
  applyEdit : ∀ parent slots edit, Keeps Q (applyEdit visibility parent slots edit)

theorem keptBySteps_ofStore (h : KeptByOperations P) (visibility : Visibility) :
    KeptBySteps visibility (OfStore P) :=
  ⟨keeps_storeProperties h, fun parent => keeps_applyEdit (h.edits _ parent)⟩

variable {visibility : Visibility} {Q : Progress → Prop}

theorem applyScript_keeps {parent : AtomId}
    (h : ∀ slots edit, Keeps Q (applyEdit visibility parent slots edit)) (edits : List Edit)
    (slots : List Slot) (progress : Progress) (hprogress : Q progress) :
    Q (applyScript visibility parent edits slots progress).2.2 := by
  induction edits generalizing slots progress with
  | nil => exact hprogress
  | cons edit edits ih =>
      have hstep := h slots edit progress hprogress
      rw [applyScript]
      split
      next hrun =>
        rw [hrun] at hstep
        exact ih _ _ hstep
      next hrun =>
        rw [hrun] at hstep
        exact hstep

theorem editList_keeps {parent : Atom}
    (h : ∀ slots edit, Keeps Q (applyEdit visibility parent.id slots edit)) (children : List Note)
    (progress : Progress) (hprogress : Q progress) :
    Q (editList visibility parent children progress).2.2 := by
  rw [editList]
  split
  · exact hprogress
  · exact applyScript_keeps h _ _ progress hprogress

/-! ## All levels -/

mutual

theorem applyNote_keeps (h : KeptBySteps visibility Q) (id : AtomId) (depth : Nat)
    (progress : Progress) (note : Note) (hprogress : Q progress) :
    Q (applyNote visibility id depth progress note).progress := by
  cases note with
  | mk own value byname weight sharability created children =>
      have hstore := h.storeProperties id
        { id := own, value, byname, weight, sharability, created, children } progress hprogress
      rw [applyNote]
      split
      next hrun =>
        rw [hrun] at hstore
        exact hstore
      next atom progress hrun =>
        rw [hrun] at hstore
        split
        · exact hstore
        split
        · have hlist := editList_keeps (h.applyEdit atom.id) children progress hstore
          split
          next hedit =>
            rw [hedit] at hlist
            exact hlist
          next hedit =>
            rw [hedit] at hlist
            exact applyChildren_keeps h _ _ _ children hlist
        · split
          · exact hstore
          · exact hstore

theorem applyChildren_keeps (h : KeptBySteps visibility Q) (depth : Nat) (progress : Progress)
    (slots : List Slot) (children : List Note) (hprogress : Q progress) :
    Q (applyChildren visibility depth progress slots children).progress := by
  cases children with
  | nil => exact hprogress
  | cons child children =>
      cases slots with
      | nil => exact hprogress
      | cons slot slots =>
          rw [applyChildren]
          split
          · exact hprogress
          next id _ =>
            dsimp only
            generalize (if slot.isInserted then 0 else depth) = levels
            have hfirst := applyNote_keeps h id levels progress child hprogress
            split
            · exact hfirst
            · exact applyChildren_keeps h depth _ slots children hfirst

end

theorem atAtomWith_keeps (h : KeptBySteps visibility Q) (log : Option (List Event))
    (id : Option AtomId) (depth : Nat) (note : Note) (store : Store) (hstart : Q { store, log }) :
    Q (atAtomWith log visibility id depth note store).progress := by
  cases id with
  | none => exact hstart
  | some id => exact applyNote_keeps h id depth { store, log } note hstart

theorem atRootWith_keeps (h : KeptBySteps visibility Q) (log : Option (List Event)) (id : AtomId)
    (depth : Nat) (note : Note) (store : Store) (hstart : Q { store, log }) :
    Q (atRootWith log visibility id depth note store).progress := by
  rw [atRootWith]
  split
  · exact hstart
  · exact hstart
  · exact atAtomWith_keeps h log _ depth note store hstart

end Update

end Outline
