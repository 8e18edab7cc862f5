import Outline.Proofs.Invariants
import Outline.Proofs.PlainLists
import Outline.Proofs.Settling
import Outline.Proofs.SilentUpdates

/-!
# What the log accounts for

The events of an update account for every change to the store: for each place that
comes or goes, each atom that is created and each atom with other properties.  This
holds step by step, so also for what is left of an update that fails.
-/

namespace Outline

/-- Two atoms have the same properties other than their values. -/
structure SameOthers (a b : Atom) : Prop where
  byname : a.byname = b.byname
  weight : SameNumber a.weight b.weight
  sharability : SameNumber a.sharability b.sharability

/-- The events tell of an atom that it changed, if it did. -/
structure TellsChange (id : AtomId) (old new : Atom) (events : List Event) : Prop where
  value : new.value ≠ old.value → .update id ∈ events
  others : ¬SameOthers new old → .setProperties id ∈ events

theorem SameOthers.refl {atom : Atom} (h : atom.validate = .ok ()) : SameOthers atom atom := by
  obtain ⟨-, -, -, hsharability, hweight⟩ := Atom.validate_eq_ok.mp h
  exact ⟨rfl, sameNumber_refl hweight, sameNumber_refl hsharability⟩

theorem SameOthers.trans {a b c : Atom} (hab : SameOthers a b) (hbc : SameOthers b c) :
    SameOthers a c :=
  ⟨hab.byname.trans hbc.byname, sameNumber_trans hab.weight hbc.weight,
    sameNumber_trans hab.sharability hbc.sharability⟩

theorem TellsChange.refl {atom : Atom} {id : AtomId} (h : atom.validate = .ok ())
    (events : List Event) : TellsChange id atom atom events :=
  ⟨fun hne => absurd rfl hne, fun hne => absurd (SameOthers.refl h) hne⟩

theorem TellsChange.append {id : AtomId} {old mid new : Atom} {events events' : List Event}
    (h : TellsChange id old mid events) (h' : TellsChange id mid new events') :
    TellsChange id old new (events ++ events') where
  value hne := by
    by_cases hmid : mid.value = old.value
    · exact List.mem_append_right _ (h'.value (hmid ▸ hne))
    · exact List.mem_append_left _ (h.value hmid)
  others hne := by
    by_cases hmid : SameOthers mid old
    · exact List.mem_append_right _ (h'.others fun hnew => hne (hnew.trans hmid))
    · exact List.mem_append_left _ (h.others hmid)

namespace Store

/-- How many cells of a list hold an atom. -/
def countHeld (store : Store) (parent child : AtomId) : Nat :=
  (store.places parent).countP fun place => place.atom == child

end Store

namespace Update

open Progress Store

/-- The events account for what an update did from `before` to `after`, where new
atoms get `defaults`. -/
structure Accounted (defaults : Defaults) (before after : Progress) (events : List Event) :
    Prop where
  log : after.log = before.log.map (· ++ events)
  wellFormed : after.store.WellFormed
  held : ∀ parent child,
    after.store.countHeld parent child + events.count (.unlink parent child) =
      before.store.countHeld parent child + events.count (.link parent child)
  hasAtom : ∀ id, after.store.HasAtom id ↔ before.store.HasAtom id ∨ .create id ∈ events
  createdNew : ∀ id, .create id ∈ events → ¬before.store.HasAtom id
  createdOnce : ∀ id, events.count (.create id) ≤ 1
  changes : ∀ id new, after.store.atom id = .ok new →
    ∃ old, before.store.WasBefore defaults id old ∧ TellsChange id old new events
  inserted : after.stats.inserted = before.stats.inserted + countKind "link" events
  deleted : after.stats.deleted = before.stats.deleted + countKind "unlink" events
  created : after.stats.created = before.stats.created + countKind "create" events

variable {defaults : Defaults} {a b c progress progress' : Progress} {events events' : List Event}

theorem Accounted.trans (hab : Accounted defaults a b events)
    (hbc : Accounted defaults b c events') : Accounted defaults a c (events ++ events') where
  log := by
    rw [hbc.log, hab.log, Option.map_map]
    congr 1
    funext past
    exact List.append_assoc past events events'
  wellFormed := hbc.wellFormed
  held parent child := by
    have hfirst := hab.held parent child
    have hsecond := hbc.held parent child
    rw [List.count_append, List.count_append]
    omega
  hasAtom id := by rw [hbc.hasAtom, hab.hasAtom, List.mem_append, or_assoc]
  createdNew id hid := by
    rcases List.mem_append.mp hid with hid | hid
    · exact hab.createdNew id hid
    · exact fun hatom => hbc.createdNew id hid ((hab.hasAtom id).mpr (Or.inl hatom))
  createdOnce id := by
    rw [List.count_append]
    by_cases hid : .create id ∈ events
    · have hnot : .create id ∉ events' := fun hid' =>
        hbc.createdNew id hid' ((hab.hasAtom id).mpr (Or.inr hid))
      rw [List.count_eq_zero_of_not_mem hnot]
      exact hab.createdOnce id
    · rw [List.count_eq_zero_of_not_mem hid, Nat.zero_add]
      exact hbc.createdOnce id
  changes id new hnew := by
    obtain ⟨mid, hmid, htells⟩ := hbc.changes id new hnew
    rcases hmid with hmid | ⟨hno, time, hread⟩
    · obtain ⟨old, hold, htells'⟩ := hab.changes id mid hmid
      exact ⟨old, hold, htells'.append htells⟩
    · have hno' : ¬a.store.HasAtom id := fun hatom => hno ((hab.hasAtom id).mpr (Or.inl hatom))
      refine ⟨mid, Or.inr ⟨hno', time, hread⟩, ?_⟩
      exact ⟨fun hne => List.mem_append_right _ (htells.value hne),
        fun hne => List.mem_append_right _ (htells.others hne)⟩
  inserted := by rw [hbc.inserted, hab.inserted, countKind, countKind, countKind,
    List.countP_append, Nat.add_assoc]
  deleted := by rw [hbc.deleted, hab.deleted, countKind, countKind, countKind,
    List.countP_append, Nat.add_assoc]
  created := by rw [hbc.created, hab.created, countKind, countKind, countKind,
    List.countP_append, Nat.add_assoc]

/-- An atom whose row is as it was has nothing to tell. -/
theorem tellsChange_of_row {before after : Store} {id : AtomId} {new : Atom}
    (hrow : after.atomRow? id = before.atomRow? id) (hnew : after.atom id = .ok new)
    (events : List Event) :
    ∃ old, before.WasBefore defaults id old ∧ TellsChange id old new events := by
  have hold : before.atom id = .ok new := by
    rw [atom_eq_ok_iff_atomRow?] at hnew ⊢
    rwa [← hrow]
  exact ⟨new, Or.inl hold, TellsChange.refl (valid_of_atom hnew) events⟩

/-- Nothing is left to account for if all rows are as they were. -/
theorem accounted_of_rows {store : Store} (hwf : progress.store.WellFormed)
    (hatoms : store.atoms = progress.store.atoms) (hcells : store.cells = progress.store.cells) :
    Accounted defaults progress { progress with store } [] where
  log := by cases progress.log <;> simp
  wellFormed := hwf.of_rows hatoms hcells
  held parent child := by
    rw [countHeld, hwf.places_of_rows hatoms hcells]
    rfl
  hasAtom id := by simp [HasAtom, hatoms]
  createdNew id hid := absurd hid List.not_mem_nil
  createdOnce id := Nat.zero_le 1
  changes id new hnew := tellsChange_of_row (by rw [atomRow?, hatoms, atomRow?]) hnew []
  inserted := rfl
  deleted := rfl
  created := rfl

/-! ## Properties -/

/-- The events of storing properties tell what they change. -/
theorem tellsChange_propertyEvents {id : AtomId} {note : Note} {old new : Atom}
    (hvalid : old.validate = .ok ()) (h : Carries note old new) :
    TellsChange id old new (propertyEvents id note old) := by
  obtain ⟨-, -, -, hsharability, hweight⟩ := Atom.validate_eq_ok.mp hvalid
  rw [propertyEvents]
  constructor
  · intro hne
    have hchanges : changesText note.value old.value := by
      by_contra hno
      exact hne (h.value.trans (eq_of_not_changesText (by simpa using hno)).symm)
    simp [hchanges]
  · intro hne
    have hchanges : changesProperties note old := by
      by_contra hno
      simp only [changesProperties, Bool.or_eq_true, not_or, Bool.not_eq_true] at hno
      obtain ⟨⟨hbyname, hnoWeight⟩, hnoSharability⟩ := hno
      refine hne ⟨h.byname.trans (eq_of_not_changesText hbyname).symm, ?_, ?_⟩
      · exact sameNumber_trans h.weight
          (sameNumber_symm (sameNumber_of_not_changesNumber hnoWeight hweight))
      · exact sameNumber_trans h.sharability
          (sameNumber_symm (sameNumber_of_not_changesNumber hnoSharability hsharability))
    simp [hchanges]

theorem mem_propertyEvents {id : AtomId} {note : Note} {stored : Atom} {event : Event}
    (h : event ∈ propertyEvents id note stored) :
    event = .update id ∨ event = .setProperties id := by
  rw [propertyEvents, List.mem_append] at h
  rcases h with h | h
  · split at h <;> simp_all
  · split at h <;> simp_all

/-- The steps after which the events account for what was done. -/
def Accounts (defaults : Defaults) {α : Type} (x : UpdateM α) : Prop :=
  ∀ progress : Progress, progress.store.WellFormed →
    ∃ events, Accounted defaults progress (finalState (x progress)) events

theorem Accounts.pure {α : Type} (a : α) : Accounts defaults (Pure.pure a : UpdateM α) :=
  fun _ hwf => ⟨[], accounted_of_rows hwf rfl rfl⟩

theorem Accounts.bind {α β : Type} {x : UpdateM α} {f : α → UpdateM β} (hx : Accounts defaults x)
    (hf : ∀ a, Accounts defaults (f a)) : Accounts defaults (x >>= f) := by
  intro progress hwf
  obtain ⟨events, hevents⟩ := hx progress hwf
  cases hrun : x progress with
  | ok a progress' =>
      rw [hrun] at hevents
      obtain ⟨events', hevents'⟩ := hf a progress' hevents.wellFormed
      rw [bind_of_ok hrun]
      exact ⟨events ++ events', hevents.trans hevents'⟩
  | error cause progress' =>
      rw [hrun] at hevents
      rw [bind_of_error hrun]
      exact ⟨events, hevents⟩

theorem accounts_look {α : Type} (question : Store → Except StoreError α) :
    Accounts defaults (Progress.look question) := by
  intro progress hwf
  rw [Progress.look, onStore, Store.look]
  cases question progress.store with
  | ok answer => exact ⟨[], accounted_of_rows hwf rfl rfl⟩
  | error cause => exact ⟨[], accounted_of_rows hwf rfl rfl⟩

theorem accounts_storeProperties (id : AtomId) (note : Note) :
    Accounts defaults (storeProperties id note) := by
  intro progress hwf
  cases hrun : storeProperties id note progress with
  | error cause progress' =>
      rw [(storeProperties_eq_error hrun).1]
      exact ⟨[], accounted_of_rows hwf rfl rfl⟩
  | ok atom progress' =>
      obtain ⟨stored, hstored, -, hstats, hsynced⟩ := storeProperties_synced hwf hrun
      obtain ⟨stored', store, hstored', -, -, -, rfl⟩ := storeProperties_eq_ok hrun
      obtain rfl : stored' = stored := Except.ok.inj (hstored'.symm.trans hstored)
      obtain ⟨old, new, hold, hnew, hcarries⟩ := hsynced.carries
      obtain rfl : stored' = old := Except.ok.inj (hstored.symm.trans hold)
      have hnone : ∀ event, event ≠ .update id → event ≠ .setProperties id →
          event ∉ propertyEvents id note stored' := fun event hupdate hset hmem =>
        (mem_propertyEvents hmem).elim hupdate hset
      refine ⟨propertyEvents id note stored', ?_⟩
      constructor
      case log => rfl
      case wellFormed => exact hsynced.wellFormed
      case held =>
        intro parent child
        rw [List.count_eq_zero_of_not_mem (hnone _ (by simp) (by simp)),
          List.count_eq_zero_of_not_mem (hnone _ (by simp) (by simp)), Nat.add_zero, Nat.add_zero]
        exact congrArg (List.countP _) (congrFun hsynced.places parent)
      case hasAtom =>
        intro other
        rw [or_iff_left (hnone _ (by simp) (by simp))]
        exact hsynced.hasAtom_iff
      case createdNew => exact fun other hmem => absurd hmem (hnone _ (by simp) (by simp))
      case createdOnce =>
        intro other
        rw [List.count_eq_zero_of_not_mem (hnone _ (by simp) (by simp))]
        exact Nat.zero_le 1
      case changes =>
        intro other found hfound
        by_cases hother : other = id
        · subst hother
          obtain rfl : new = found := Except.ok.inj (hnew.symm.trans hfound)
          exact ⟨stored', Or.inl hstored,
            tellsChange_propertyEvents (valid_of_atom hstored) hcarries⟩
        · exact tellsChange_of_row (hsynced.rows other hother) hfound _
      all_goals
        rw [propertyEvents]
        split <;> split <;> rfl

/-! ## Lists -/

/-- An operation that fails and changes nothing but the supply has nothing to tell. -/
theorem accounted_of_error {α β : Type} {action : StoreM α} {event : α → Event}
    {change : UpdateStats → UpdateStats} {answer : α → β} {cause : StoreError} {supply : Supply}
    (hwf : progress.store.WellFormed)
    (hrun : action progress.store = .error cause { progress.store with supply }) :
    ∃ events, Accounted defaults progress
      (finalState (perform action event change answer progress)) events := by
  rw [perform_of_error hrun]
  exact ⟨[], accounted_of_rows hwf rfl rfl⟩

/-- A new atom is as it was created, and the others are as they were. -/
theorem tellsChange_createAtom {store store' : Store} {id : Option AtomId} {atom new : Atom}
    {other : AtomId} (hrun : Store.createAtom id defaults store = .ok atom store')
    (hnew : store'.atom other = .ok new) (events : List Event) :
    ∃ old, store.WasBefore defaults other old ∧ TellsChange other old new events := by
  obtain ⟨hatom, -, hunused, rfl⟩ := createAtom_eq_ok hrun
  obtain ⟨row, hrow, hread⟩ := atom_eq_ok_iff_atomRow?.mp hnew
  have hvalid := (AtomRow.toAtom_eq_ok.mp hread).valid
  have hrow' : (store.withAtom atom).atomRow? other = some row := hrow
  by_cases hself : other = atom.id
  · subst hself
    obtain rfl := Option.some.inj ((atomRow?_withAtom_self hunused).symm.trans hrow')
    have hdefaults : Atom.ofDefaults atom.id store.supply.time defaults = atom := by
      rw [hatom]
      rfl
    exact ⟨new, Or.inr ⟨hunused, store.supply.time, hdefaults.symm ▸ hread⟩,
      TellsChange.refl hvalid events⟩
  · have hhas : (store.withAtom atom).HasAtom other := by
      by_contra hno
      rw [atomRow?_eq_none.mpr hno] at hrow'
      cases hrow'
    have hold := (hasAtom_withAtom.mp hhas).resolve_right hself
    rw [atomRow?_withAtom_of_hasAtom hold] at hrow'
    exact ⟨new, Or.inl (atom_eq_ok_iff_atomRow?.mpr ⟨row, hrow', hread⟩),
      TellsChange.refl hvalid events⟩

theorem accounts_createFor (visibility : Visibility) (id : Option AtomId) :
    Accounts visibility.defaults (createFor visibility id) := by
  intro progress hwf
  rw [createFor]
  cases hrun : Store.createAtom id visibility.defaults progress.store with
  | error cause store =>
      obtain ⟨supply, rfl⟩ := createAtom_eq_error hrun
      exact accounted_of_error hwf hrun
  | ok atom store =>
      have hplaces := places_createAtom hwf hrun
      have hedited : Edited visibility.defaults atom.id [atom.id] progress.store store :=
        edited_createAtom hwf hrun
      rw [perform_of_ok hrun]
      refine ⟨[.create atom.id], ?_⟩
      constructor
      case log => rfl
      case wellFormed => exact hedited.wellFormed
      case held =>
        intro parent child
        rw [List.count_eq_zero_of_not_mem (by simp), List.count_eq_zero_of_not_mem (by simp)]
        exact congrArg (List.countP _) (congrFun hplaces parent)
      case hasAtom =>
        intro other
        refine hedited.hasAtom_iff.trans (or_congr_right ?_)
        rw [List.mem_singleton, List.mem_singleton, Event.create.injEq]
      case createdNew =>
        intro other hother
        obtain rfl : other = atom.id := by simpa using hother
        exact hedited.created_new.2 _ (List.mem_singleton_self _)
      case createdOnce => exact fun other => List.count_le_length
      case changes => exact fun other new hnew => tellsChange_createAtom hrun hnew _
      all_goals rfl

theorem accounts_findOrCreate (visibility : Visibility) (id : Option AtomId) :
    Accounts visibility.defaults (findOrCreate visibility id) := by
  cases id with
  | none => exact accounts_createFor visibility none
  | some id =>
      rw [findOrCreate_some]
      refine (accounts_look _).bind fun existing => ?_
      cases existing with
      | some atom => exact Accounts.pure _
      | none => exact accounts_createFor visibility (some id)

/-- One event accounts for the place that comes to a list or goes from it. -/
theorem accounted_of_relisted {store : Store} {parent child : AtomId} {places : List Place}
    {event : Event} {stats : UpdateStats} (hwf : progress.store.WellFormed)
    (hrelisted : Relisted progress.store store parent places)
    (hevent : event = .link parent child ∨ event = .unlink parent child)
    (hheld : ∀ other, places.countP (fun place => place.atom == other) +
        [event].count (.unlink parent other) =
      progress.store.countHeld parent other + [event].count (.link parent other))
    (hinserted : stats.inserted = progress.stats.inserted + countKind "link" [event])
    (hdeleted : stats.deleted = progress.stats.deleted + countKind "unlink" [event])
    (hcreated : stats.created = progress.stats.created + countKind "create" [event]) :
    Accounted defaults progress { store, log := progress.log.map (· ++ [event]), stats }
      [event] where
  log := rfl
  wellFormed := hrelisted.wellFormed
  held owner other := by
    by_cases howner : owner = parent
    · subst howner
      rw [countHeld, hrelisted.places_self]
      exact hheld other
    · have hnone : [event].count (.unlink owner other) = 0 ∧
          [event].count (.link owner other) = 0 := by
        rcases hevent with rfl | rfl <;> simp [Ne.symm howner]
      rw [hnone.1, hnone.2, countHeld, countHeld, hrelisted.places_of_ne howner]
  hasAtom id := by
    rw [hrelisted.relinked.hasAtom_iff]
    rcases hevent with rfl | rfl <;> simp
  createdNew id hid := by rcases hevent with rfl | rfl <;> simp at hid
  createdOnce id := by rcases hevent with rfl | rfl <;> simp
  changes id new hnew := by
    have hrow := hrelisted.relinked.withoutNotes_atomRow? id
    have hold := atom_eq_ok_of_withoutNotes hwf hrow.symm hnew
    have hothers := SameOthers.refl (valid_of_atom hnew)
    refine ⟨_, Or.inl hold, fun hne => absurd rfl hne, fun hne => absurd ?_ hne⟩
    exact ⟨hothers.byname, hothers.weight, hothers.sharability⟩
  inserted := hinserted
  deleted := hdeleted
  created := hcreated

theorem accounts_delete (visibility : Visibility) (parent : AtomId) (slots : List Slot)
    (position index : Nat) :
    Accounts defaults (applyEdit visibility parent slots (.delete position index)) := by
  intro progress hwf
  rw [applyEdit_delete_eq]
  rcases deleteAt_cases hwf parent position with
    ⟨xs, place, ys, store, hsplit, hrun, hrelisted⟩ | ⟨cause, hrun⟩
  swap
  · exact accounted_of_error hwf hrun
  rw [perform_of_ok hrun]
  refine ⟨[.unlink parent place.atom],
    accounted_of_relisted hwf hrelisted (Or.inr rfl) (fun other => ?_) rfl rfl rfl⟩
  have hgone : [Event.unlink parent place.atom].count (.unlink parent other) =
      if place.atom == other then 1 else 0 := by simp [List.count_singleton]
  have hnone : [Event.unlink parent place.atom].count (.link parent other) = 0 := by simp
  rw [hgone, hnone, countHeld, hsplit, List.countP_append, List.countP_append, List.countP_cons]
  omega

theorem accounts_insert (parent child : AtomId) (position : Nat) (answer : Cell → List Slot) :
    Accounts defaults (perform (Store.insertAt parent position child) (fun _ => .link parent child)
      (fun stats => { stats with inserted := stats.inserted + 1 }) answer) := by
  intro progress hwf
  rcases insertAt_cases hwf parent position child with
    ⟨xs, ys, cell, store, hsplit, hrun, hrelisted⟩ | ⟨cause, supply, hrun⟩
  swap
  · exact accounted_of_error hwf hrun
  rw [perform_of_ok hrun]
  refine ⟨[.link parent child],
    accounted_of_relisted hwf hrelisted (Or.inl rfl) (fun other => ?_) rfl rfl rfl⟩
  have hcome : [Event.link parent child].count (.link parent other) =
      if child == other then 1 else 0 := by simp [List.count_singleton]
  have hnone : [Event.link parent child].count (.unlink parent other) = 0 := by simp
  rw [hcome, hnone, countHeld, hsplit, List.countP_append, List.countP_append, List.countP_cons]
  dsimp only
  omega

theorem accounts_applyEdit (visibility : Visibility) (parent : AtomId) (slots : List Slot)
    (edit : Edit) : Accounts visibility.defaults (applyEdit visibility parent slots edit) := by
  cases edit with
  | delete position index => exact accounts_delete visibility parent slots position index
  | insert position index =>
      cases hslot : slots[index]? with
      | none =>
          rw [applyEdit, hslot]
          exact Accounts.pure _
      | some slot =>
          rw [applyEdit_insert_eq visibility parent position hslot]
          exact (accounts_findOrCreate visibility _).bind fun child =>
            accounts_insert parent child.id position _

/-! ## Whole updates -/

theorem Accounts.keeps {α : Type} {x : UpdateM α} (h : Accounts defaults x) (start : Progress) :
    Keeps (fun progress => ∃ events, Accounted defaults start progress events) x := by
  rintro progress ⟨events, hevents⟩
  obtain ⟨events', hevents'⟩ := h progress hevents.wellFormed
  exact ⟨events ++ events', hevents.trans hevents'⟩

/-- The log of an update accounts for what the update changed, whether it succeeds
or fails, and without a log the update ends in the same way. -/
theorem atAtomWith_accounted {visibility : Visibility} {id : Option AtomId} {depth : Nat}
    {note : Note} {store : Store} {past : List Event} {outcome : Outcome Note}
    (hwf : store.WellFormed)
    (hrun : atAtomWith (some past) visibility id depth note store = outcome) :
    (∃ events, Accounted visibility.defaults { store, log := some past } outcome.progress events) ∧
      atAtomWith none visibility id depth note store = outcome.silent := by
  subst hrun
  have hsteps : KeptBySteps visibility fun progress =>
      ∃ events, Accounted visibility.defaults { store, log := some past } progress events := {
    storeProperties := fun id note => (accounts_storeProperties id note).keeps _
    applyEdit := fun parent slots edit =>
      (accounts_applyEdit visibility parent slots edit).keeps _ }
  refine ⟨?_, atAtomWith_none (some past) id depth note store⟩
  refine atAtomWith_keeps hsteps (some past) id depth note store ⟨[], ?_⟩
  exact accounted_of_rows hwf rfl rfl

/-- A child that the sample has, one that is new, and one under a blank identifier. -/
def sampleBroken : Note where
  children := [{ id := some "c" }, { value := some "new" }, { id := some " " }]

/-- The update of the sample fails once one child has gone and another was created. -/
theorem sample_accounted :
    sample.WellFormed ∧
    (atAtomWith (some []) .everything (some "a") 1 sampleBroken sample).failure =
      some (.store (.invalid .blankId)) ∧
    (∃ events, Accounted {} { store := sample, log := some [] }
      (atAtomWith (some []) .everything (some "a") 1 sampleBroken sample).progress events) ∧
    atAtomWith none .everything (some "a") 1 sampleBroken sample =
      (atAtomWith (some []) .everything (some "a") 1 sampleBroken sample).silent :=
  have haccounted := atAtomWith_accounted sample_wellFormed rfl
  ⟨sample_wellFormed, by decide +kernel, haccounted.1, haccounted.2⟩

end Update

end Outline
