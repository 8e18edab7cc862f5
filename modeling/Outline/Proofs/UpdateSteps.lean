import Outline.Proofs.AtomRows
import Outline.Update

/-!
# The steps of an update

What the steps of an update amount to once they are opened: operations on the
store, with events and counts beside them.
-/

namespace Outline

namespace Progress

variable {α : Type} {action : StoreM α} {progress progress' : Progress} {a : α} {store : Store}

theorem onStore_of_ok (h : action progress.store = .ok a store) :
    onStore action progress = .ok a { progress with store } := by
  rw [onStore, h]

theorem onStore_of_error {cause : StoreError} (h : action progress.store = .error cause store) :
    onStore action progress = .error (.store cause) { progress with store } := by
  rw [onStore, h]

theorem onStore_eq_ok (h : onStore action progress = .ok a progress') :
    ∃ store, action progress.store = .ok a store ∧ progress' = { progress with store } := by
  rw [onStore] at h
  split at h
  next hrun =>
    cases h
    exact ⟨_, hrun, rfl⟩
  next => cases h

theorem onStore_eq_error {cause : NoteError}
    (h : onStore action progress = .error cause progress') :
    ∃ fault store, action progress.store = .error fault store ∧ cause = .store fault ∧
      progress' = { progress with store } := by
  rw [onStore] at h
  split at h
  next => cases h
  next hrun =>
    cases h
    exact ⟨_, _, hrun, rfl, rfl⟩

theorem look_of_ok {question : Store → Except StoreError α} (h : question progress.store = .ok a) :
    look question progress = .ok a progress := by
  rw [look, onStore_of_ok (Store.look_of_ok h)]

theorem look_eq_ok {question : Store → Except StoreError α}
    (h : look question progress = .ok a progress') :
    question progress.store = .ok a ∧ progress' = progress := by
  obtain ⟨store, hrun, rfl⟩ := onStore_eq_ok h
  obtain ⟨hanswer, rfl⟩ := Store.look_eq_ok.mp hrun
  exact ⟨hanswer, rfl⟩

theorem record_eq (event : Event) (progress : Progress) :
    record event progress = .ok () { progress with log := progress.log.map (· ++ [event]) } := rfl

theorem count_eq (change : UpdateStats → UpdateStats) (progress : Progress) :
    count change progress = .ok () { progress with stats := change progress.stats } := rfl

end Progress

namespace Update

open Progress

/-- Carries out an operation on the store, and notes and counts what happened. -/
def perform {α β : Type} (action : StoreM α) (event : α → Event)
    (change : UpdateStats → UpdateStats) (answer : α → β) : UpdateM β := do
  let a ← onStore action
  record (event a)
  count change
  return answer a

section

variable {α β : Type} {action : StoreM α} {event : α → Event} {change : UpdateStats → UpdateStats}
  {answer : α → β} {progress progress' : Progress} {store : Store}

theorem perform_of_ok {a : α} (h : action progress.store = .ok a store) :
    perform action event change answer progress = .ok (answer a) {
      store
      log := progress.log.map (· ++ [event a])
      stats := change progress.stats } := by
  rw [perform, bind_of_ok (onStore_of_ok h), bind_of_ok (record_eq _ _), bind_of_ok (count_eq _ _)]
  rfl

theorem perform_of_error {cause : StoreError} (h : action progress.store = .error cause store) :
    perform action event change answer progress = .error (.store cause) { progress with store } :=
  bind_of_error (onStore_of_error h)

theorem perform_eq_ok {b : β} (h : perform action event change answer progress = .ok b progress') :
    ∃ a store, action progress.store = .ok a store ∧ b = answer a ∧
      progress' = {
        store
        log := progress.log.map (· ++ [event a])
        stats := change progress.stats } := by
  cases hrun : action progress.store with
  | ok a store =>
      cases (perform_of_ok hrun).symm.trans h
      exact ⟨a, store, rfl, rfl, rfl⟩
  | error cause store => cases (perform_of_error hrun).symm.trans h

end

/-- Creates an atom for a child. -/
def createFor (visibility : Visibility) (id : Option AtomId) : UpdateM Atom :=
  perform (Store.createAtom id visibility.defaults) (fun atom => .create atom.id)
    (fun stats => { stats with created := stats.created + 1 }) fun atom => atom

theorem findOrCreate_none (visibility : Visibility) :
    findOrCreate visibility none = createFor visibility none := rfl

theorem findOrCreate_some (visibility : Visibility) (id : AtomId) :
    findOrCreate visibility (some id) = (do
      match ← Progress.look (·.atom? id) with
      | some atom => return atom
      | none => createFor visibility (some id)) := rfl

theorem applyEdit_delete_eq (visibility : Visibility) (parent : AtomId) (slots : List Slot)
    (position index : Nat) :
    applyEdit visibility parent slots (.delete position index) =
      perform (Store.deleteAt parent position) (.unlink parent)
        (fun stats => { stats with deleted := stats.deleted + 1 }) fun _ => slots := rfl

theorem applyEdit_insert_eq (visibility : Visibility) (parent : AtomId) {slots : List Slot}
    {slot : Slot} (position : Nat) {index : Nat} (hslot : slots[index]? = some slot) :
    applyEdit visibility parent slots (.insert position index) = (do
      let child ← findOrCreate visibility slot.id
      perform (Store.insertAt parent position child.id) (fun _ => .link parent child.id)
        (fun stats => { stats with inserted := stats.inserted + 1 })
        fun _ => slots.set index { id := slot.id <|> some child.id, isInserted := true }) := by
  rw [applyEdit, hslot]
  rfl

variable {visibility : Visibility} {progress progress' : Progress}

/-- What is left to do once the properties of an atom are stored: its text is
indexed, and what happened is noted. -/
def noteProperties (id : AtomId) (note : Note) (stored : Atom) : UpdateM Atom := do
  if changesText note.value stored.value then
    record (.update id)
    match (merge note stored).value with
    | some value => indexText id value
    | none => pure ()
  if changesProperties note stored then record (.setProperties id)
  return merge note stored

/-- Whether a note changes any property of an atom. -/
def changes (note : Note) (stored : Atom) : Bool :=
  changesText note.value stored.value || changesProperties note stored

theorem storeProperties_eq (id : AtomId) (note : Note) :
    storeProperties id note = (do
      let stored ← Progress.look (·.atom id)
      if changes note stored then onStore (Store.updateAtom (merge note stored))
      noteProperties id note stored) := rfl

/-- The events of storing the properties of an atom. -/
def propertyEvents (id : AtomId) (note : Note) (stored : Atom) : List Event :=
  (if changesText note.value stored.value then [.update id] else []) ++
    (if changesProperties note stored then [.setProperties id] else [])

/-- The index once a text that a note changes is indexed. -/
def indexAfter (id : AtomId) (note : Note) (stored : Atom) (store : Store) :
    Option (List IndexRow) :=
  if changesText note.value stored.value then
    note.value.elim store.index fun text => (store.indexText id text).index
  else store.index

theorem exists_of_changesText {wanted stored : Option String} (h : changesText wanted stored) :
    ∃ text, wanted = some text := by
  cases wanted with
  | none => cases h
  | some text => exact ⟨text, rfl⟩

theorem noteProperties_eq_ok (id : AtomId) (note : Note) (stored : Atom) (progress : Progress) :
    noteProperties id note stored progress = .ok (merge note stored) {
      progress with
      store := { progress.store with index := indexAfter id note stored progress.store }
      log := progress.log.map (· ++ propertyEvents id note stored) } := by
  obtain ⟨store, log, stats⟩ := progress
  have hothers : ∀ (index : Option (List IndexRow)) (log : Option (List Event)),
      (do if changesProperties note stored then record (.setProperties id)
          return merge note stored : UpdateM Atom) { store := { store with index }, log, stats } =
        .ok (merge note stored) {
          store := { store with index }
          log := log.map (· ++ if changesProperties note stored then [.setProperties id] else [])
          stats } := by
    intro index log
    split
    · rfl
    · cases log <;> simp [pure, EStateM.pure]
  rw [noteProperties, propertyEvents, indexAfter]
  by_cases hvalue : changesText note.value stored.value
  · rw [if_pos hvalue, if_pos hvalue, if_pos hvalue, bind_of_ok (record_eq _ _)]
    have hlog := fun index => hothers index (log.map (· ++ [.update id]))
    simp only [Option.map_map, Function.comp_def, List.append_assoc] at hlog
    obtain ⟨text, htext⟩ := exists_of_changesText hvalue
    have hmerged : (merge note stored).value = some text := by simp [merge, htext]
    rw [hmerged, htext]
    exact hlog _
  · rw [if_neg hvalue, if_neg hvalue, if_neg hvalue]
    exact hothers store.index log

/-- What storing the properties of an atom amounts to when it succeeds. -/
theorem storeProperties_eq_ok {id : AtomId} {note : Note} {atom : Atom}
    (h : storeProperties id note progress = .ok atom progress') :
    ∃ stored store, progress.store.atom id = .ok stored ∧ atom = merge note stored ∧
      (changes note stored = true → Store.updateAtom atom progress.store = .ok () store) ∧
      (changes note stored = false → store = progress.store) ∧
      progress' = {
        store := { store with index := indexAfter id note stored progress.store }
        log := progress.log.map (· ++ propertyEvents id note stored)
        stats := progress.stats } := by
  rw [storeProperties_eq] at h
  obtain ⟨stored, progress₁, hlook, hrest⟩ := bind_eq_ok.mp h
  obtain ⟨hstored, rfl⟩ := Progress.look_eq_ok hlook
  by_cases hchanges : changes note stored
  · rw [if_pos hchanges] at hrest
    obtain ⟨_, progress₂, hupdate, hlast⟩ := bind_eq_ok.mp hrest
    obtain ⟨store, hupdated, rfl⟩ := onStore_eq_ok hupdate
    cases (noteProperties_eq_ok id note stored { progress₁ with store }).symm.trans hlast
    obtain ⟨-, -, rfl⟩ := Store.updateAtom_eq_ok.mp hupdated
    exact ⟨stored, _, hstored, rfl, fun _ => hupdated,
      fun hno => by simp [hchanges] at hno, rfl⟩
  · rw [if_neg hchanges] at hrest
    cases (noteProperties_eq_ok id note stored progress₁).symm.trans hrest
    exact ⟨stored, progress₁.store, hstored, rfl, fun hyes => absurd hyes hchanges,
      fun _ => rfl, rfl⟩

/-- Storing the properties of an atom changes nothing when it fails, and fails because
the atom cannot be read or cannot be stored. -/
theorem storeProperties_eq_error {id : AtomId} {note : Note} {cause : NoteError}
    (h : storeProperties id note progress = .error cause progress') :
    progress' = progress ∧ ∃ fault, cause = .store fault ∧
      (progress.store.atom id = .error fault ∨ ∃ stored store,
        progress.store.atom id = .ok stored ∧
        Store.updateAtom (merge note stored) progress.store = .error fault store) := by
  rw [storeProperties_eq] at h
  cases hatom : progress.store.atom id with
  | error fault =>
      have hstop : Store.look (·.atom id) progress.store = .error fault progress.store :=
        Store.look_of_error hatom
      have hlook : look (·.atom id) progress = .error (.store fault) progress :=
        onStore_of_error hstop
      rw [bind_of_error hlook] at h
      cases h
      exact ⟨rfl, fault, rfl, Or.inl rfl⟩
  | ok stored =>
      rw [bind_of_ok (Progress.look_of_ok hatom)] at h
      have hnote := noteProperties_eq_ok id note stored
      by_cases hchanges : changes note stored
      · rw [if_pos hchanges] at h
        rcases bind_eq_error.mp h with hstop | ⟨_, progress₁, -, hlast⟩
        · obtain ⟨fault, store, hupdate, rfl, rfl⟩ := onStore_eq_error hstop
          have hsame := Store.updateAtom_eq_error hupdate
          exact ⟨by rw [hsame], fault, rfl, Or.inr ⟨stored, store, rfl, hupdate⟩⟩
        · cases (hnote progress₁).symm.trans hlast
      · rw [if_neg hchanges] at h
        cases (hnote progress).symm.trans h

/-! ## Levels that succeed -/

theorem applyNote_zero_ok {id : AtomId} {note : Note}
    (hok : (applyNote visibility id 0 progress note).failure = none) :
    ∃ atom progress', storeProperties id note progress = .ok atom progress' ∧
      applyNote visibility id 0 progress note = { notes := note, progress := progress' } := by
  cases note with
  | mk own value byname weight sharability created children =>
      rw [applyNote] at hok ⊢
      split at hok
      next => cases hok
      next atom progress' hrun =>
        rw [hrun]
        exact ⟨atom, progress', rfl, rfl⟩

/-- A level that succeeds and is not the last one: either the atom is not shown
and has no children to be, or its list is edited and the children follow. -/
theorem applyNote_succ_ok {id : AtomId} {depth : Nat} {note : Note}
    (hok : (applyNote visibility id (depth + 1) progress note).failure = none) :
    ∃ atom progress₁, storeProperties id note progress = .ok atom progress₁ ∧
      (visibility.shows atom = false ∧ note.children = [] ∧
        applyNote visibility id (depth + 1) progress note =
          { notes := note, progress := progress₁ } ∨
      visibility.shows atom = true ∧
        ∃ slots progress₂, editList visibility atom note.children progress₁ =
            (none, slots, progress₂) ∧
          (applyChildren visibility depth progress₂ slots note.children).failure = none ∧
          applyNote visibility id (depth + 1) progress note = {
            notes := { note with
              children := (applyChildren visibility depth progress₂ slots note.children).notes }
            progress :=
              (applyChildren visibility depth progress₂ slots note.children).progress }) := by
  cases note with
  | mk own value byname weight sharability created children =>
      rw [applyNote] at hok ⊢
      split at hok
      next => cases hok
      next atom progress₁ hrun =>
        refine ⟨atom, progress₁, hrun, ?_⟩
        dsimp only at hok ⊢
        split at hok
        next hshows =>
          refine Or.inr ⟨hshows, ?_⟩
          rw [if_pos hshows]
          split at hok
          next => cases hok
          next slots progress₂ hedit =>
            refine ⟨slots, progress₂, hedit, hok, ?_⟩
            dsimp only at hok ⊢
            rw [hok]
        next hshows =>
          rw [if_neg hshows]
          split at hok
          next hempty =>
            rw [if_pos hempty]
            exact Or.inl ⟨by simpa using hshows, List.isEmpty_iff.mp hempty, rfl⟩
          next => cases hok

theorem applyChildren_cons_ok {depth : Nat} {slot : Slot} {slots : List Slot} {child : Note}
    {children : List Note}
    (hok : (applyChildren visibility depth progress (slot :: slots) (child :: children)).failure =
      none) :
    ∃ id first rest, slot.id = some id ∧
      first = applyNote visibility id (if slot.isInserted then 0 else depth) progress child ∧
      rest = applyChildren visibility depth first.progress slots children ∧
      first.failure = none ∧ rest.failure = none ∧
      applyChildren visibility depth progress (slot :: slots) (child :: children) =
        { rest with notes := { first.notes with id := some id } :: rest.notes } := by
  rw [applyChildren] at hok ⊢
  split at hok
  next => cases hok
  next id hid =>
    rw [hid]
    dsimp only at hok ⊢
    split at hok
    next => cases hok
    next hfirst => exact ⟨id, _, _, rfl, rfl, rfl, hfirst, hok, rfl⟩

/-- An update that succeeds has a root, and is a level of it. -/
theorem atRoot_ok {root : AtomId} {depth : Nat} {note : Note} {store : Store}
    (hok : (atRoot visibility root depth note store).failure = none) :
    ∃ atom, store.atom? root = .ok (some atom) ∧
      atRoot visibility root depth note store =
        applyNote visibility atom.id depth { store } note := by
  rw [atRoot, atRootWith] at hok ⊢
  split at hok
  next => cases hok
  next => cases hok
  next atom hatom =>
    rw [hatom]
    exact ⟨atom, rfl, rfl⟩

end Update

end Outline
