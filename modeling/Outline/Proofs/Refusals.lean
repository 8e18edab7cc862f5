import Outline.Proofs.Drawing
import Outline.Proofs.Positions

/-!
# Why updates are refused

On a well-formed store no edit of an update goes wrong: every position is in range,
every atom that is put into a list exists, and what is drawn is new.  An update is
refused only for what it asks for: a root that does not exist, children of an atom
that is not shown, a blank identifier, or a number that is not finite.
-/

namespace Outline

/-- The numbers that a new atom starts with are finite. -/
def Defaults.AreFinite (defaults : Defaults) : Prop :=
  isUnsetOrFinite defaults.weight ∧ isUnsetOrFinite defaults.sharability

namespace Note

/-- A number that a note sets; it sets no priority. -/
def number (note : Note) : NumberProperty → Option Single
  | .priority => none
  | .sharability => note.sharability
  | .weight => note.weight

/-- A note stands in the tree of another one. -/
inductive Within : Note → Note → Prop
  | self {note : Note} : Within note note
  | ofChild {part child note : Note} : child ∈ note.children → Within part child → Within part note

variable {note part child : Note} {id : AtomId}

theorem forall_within {P : Note → Prop} (hself : P note)
    (hchildren : ∀ child ∈ note.children, ∀ part : Note, part.Within child → P part) :
    ∀ part : Note, part.Within note → P part := by
  intro part hpart
  cases hpart with
  | self => exact hself
  | ofChild hmem hpart => exact hchildren _ hmem part hpart

/-- Where two notes and the children below them are related, every part of the second one comes
from a part of the first. -/
theorem exists_within_of_forall₂ {R : Note → Note → Prop}
    (hR : ∀ a b : Note, R a b → List.Forall₂ R a.children b.children) {written : Note}
    (h : R note written) (hpart : part.Within written) :
    ∃ origin : Note, origin.Within note ∧ R origin part := by
  induction hpart generalizing note with
  | self => exact ⟨note, .self, h⟩
  | ofChild hmem _ ih =>
      obtain ⟨child, hchild, hrelated⟩ := exists_mem_of_forall₂ (hR _ _ h) hmem
      obtain ⟨origin, horigin, hrelated⟩ := ih hrelated
      exact ⟨origin, .ofChild hchild horigin, hrelated⟩

theorem mem_idsBelow_of_within (hpart : part.Within note) (hchild : child ∈ part.children)
    (hid : child.id = some id) : id ∈ note.idsBelow := by
  induction hpart with
  | self => exact mem_idsBelow_of_mem_map (List.mem_map.mpr ⟨child, hchild, hid⟩)
  | ofChild hmem _ ih =>
      obtain ⟨index, hindex⟩ := List.mem_iff_getElem?.mp hmem
      exact mem_idsBelow_of_child hindex (Or.inr ih)

end Note

namespace Store

variable {store : Store} {named : List AtomId} {id : Option AtomId} {defaults : Defaults}

theorem validate_ofDefaults (name : AtomId) {time : Int} (htime : 0 ≤ time)
    (hfinite : defaults.AreFinite) :
    (Atom.ofDefaults name time defaults).validate =
      if Text.isBlankText name then .error .blankId else .ok () := by
  split
  next hblank => rw [Atom.validate, Atom.ofDefaults, if_pos hblank]
  next hblank =>
    exact Atom.validate_eq_ok.mpr ⟨hblank, Int.not_lt.mpr htime, rfl, hfinite.2, hfinite.1⟩

/-- Creating an atom whose identifier is not in use comes down to storing it. -/
theorem createAtom_eq (hid : ∀ name, id = some name → ¬store.HasAtom name) :
    createAtom id defaults store =
      (do
        let atom : Atom :=
          .ofDefaults (id.getD store.supply.nextIdentifier) store.supply.time defaults
        look fun _ => accept atom
        change (insertAtom atom)
        return atom : StoreM Atom)
      { store with
        supply := (if id.isSome then store.supply else store.supply.afterDraw).afterReading } := by
  cases id with
  | none => rfl
  | some name =>
      have hnone := atom?_eq_none.mpr (hid name rfl)
      rw [createAtom, chooseIdentifier, bind_assoc, bind_of_ok (look_of_ok hnone)]
      rfl

/-- An atom that does not exist yet is created unless a blank identifier is asked for. -/
theorem createAtom_cases (h : store.DrawsNew named) (hfinite : defaults.AreFinite)
    (hid : ∀ name, id = some name → ¬store.HasAtom name) :
    (∃ atom store', createAtom id defaults store = .ok atom store') ∨
      ∃ name store', id = some name ∧ Text.isBlankText name ∧
        createAtom id defaults store = .error (.invalid .blankId) store' := by
  have htime : 0 ≤ store.supply.time := Int.le_max_right _ _
  have hvalidate :=
    validate_ofDefaults (id.getD store.supply.nextIdentifier) htime hfinite
  have hupcoming := Supply.upcoming_nextIdentifier store.supply
  rw [createAtom_eq hid]
  by_cases hblank : Text.isBlankText (id.getD store.supply.nextIdentifier)
  · rw [if_pos hblank] at hvalidate
    cases id with
    | none => exact absurd hblank (h.notBlank _ hupcoming)
    | some name =>
        refine Or.inr ⟨name, _, rfl, hblank, bind_of_error (look_of_error ?_)⟩
        rw [accept, hvalidate]
  · rw [if_neg hblank] at hvalidate
    have hnew : ¬store.HasAtom (id.getD store.supply.nextIdentifier) := by
      cases id with
      | none => exact h.noAtom _ hupcoming
      | some name => exact hid name rfl
    refine Or.inl ?_
    dsimp only
    rw [bind_of_ok (look_of_ok (accept_eq_ok.mpr hvalidate)),
      bind_of_ok (change_of_ok (insertAtom_eq_ok.mpr ⟨hnew, rfl⟩))]
    exact ⟨_, _, rfl⟩

end Store

namespace Update

open Progress Store

variable {visibility : Visibility} {named : List AtomId} {progress progress' : Progress}
  {id : AtomId} {note : Note}

/-! ## Properties that cannot be stored -/

theorem isUnsetOrFinite_mergeNumber {wanted stored : Option Single}
    (hwanted : isUnsetOrFinite wanted) (hstored : isUnsetOrFinite stored) :
    isUnsetOrFinite (mergeNumber wanted stored) := by
  rw [mergeNumber]
  split
  · exact hwanted
  · exact hstored

/-- An atom that is stored stays fit to be stored, unless a note sets a number
that is not finite. -/
theorem validate_merge {stored : Atom} {fault : AtomFault} (hstored : stored.validate = .ok ())
    (h : (merge note stored).validate = .error fault) :
    ∃ property, fault = .notFinite property ∧ isUnsetOrFinite (note.number property) = false := by
  obtain ⟨hid, hcreated, hpriority, hsharability, hweight⟩ := Atom.validate_eq_ok.mp hstored
  have hid' : ¬Text.isBlankText (merge note stored).id := hid
  have hcreated' : ¬(merge note stored).created < 0 := hcreated
  have hpriority' : isUnsetOrFinite (merge note stored).priority := hpriority
  rw [Atom.validate, if_neg hid', if_neg hcreated', if_neg (by simp [hpriority'])] at h
  split at h
  next hno =>
    cases h
    refine ⟨.sharability, rfl, Bool.eq_false_iff.mpr fun hnote => ?_⟩
    have hmerged : isUnsetOrFinite (merge note stored).sharability :=
      isUnsetOrFinite_mergeNumber hnote hsharability
    simp [hmerged] at hno
  next =>
    split at h
    next hno =>
      cases h
      refine ⟨.weight, rfl, Bool.eq_false_iff.mpr fun hnote => ?_⟩
      have hmerged : isUnsetOrFinite (merge note stored).weight :=
        isUnsetOrFinite_mergeNumber hnote hweight
      simp [hmerged] at hno
    next => cases h

theorem storeProperties_error {cause : NoteError} (hwf : progress.store.WellFormed)
    (hid : progress.store.HasAtom id)
    (hrun : storeProperties id note progress = .error cause progress') :
    ∃ property, cause = .store (.invalid (.notFinite property)) ∧
      isUnsetOrFinite (note.number property) = false := by
  obtain ⟨atom, hatom, -, rfl⟩ := hwf.arranged.exists_atom hid
  obtain ⟨-, fault, rfl, hread | ⟨stored, store, hstored, hupdate⟩⟩ :=
    storeProperties_eq_error hrun
  · cases hatom.symm.trans hread
  obtain rfl : atom = stored := Except.ok.inj (hatom.symm.trans hstored)
  cases hmerge : (merge note atom).validate with
  | error reason =>
      obtain ⟨property, rfl, hno⟩ := validate_merge (valid_of_atom hatom) hmerge
      rw [updateAtom, bind_of_error (Store.look_of_error (by rw [accept, hmerge]))] at hupdate
      cases hupdate
      exact ⟨property, rfl, hno⟩
  | ok _ => cases (updateAtom_eq_ok.mpr ⟨hmerge, hid, rfl⟩).symm.trans hupdate

/-! ## Edits that fail -/

theorem createFor_cases {id : Option AtomId} (h : progress.store.DrawsNew named)
    (hfinite : visibility.defaults.AreFinite) (hnamed : ∀ name, id = some name → name ∈ named)
    (hid : ∀ name, id = some name → ¬progress.store.HasAtom name) :
    (∃ atom progress', createFor visibility id progress = .ok atom progress' ∧
      progress'.store.DrawsNew named) ∨
    ∃ name progress', id = some name ∧ Text.isBlankText name ∧
      createFor visibility id progress = .error (.store (.invalid .blankId)) progress' := by
  rcases createAtom_cases h hfinite hid with
    ⟨atom, store, hrun⟩ | ⟨name, store, hname, hblank, hrun⟩
  · have hdraws := h.of_createAtom hnamed hrun
    rw [createFor, perform_of_ok hrun]
    exact Or.inl ⟨_, _, rfl, hdraws⟩
  · rw [createFor, perform_of_error hrun]
    exact Or.inr ⟨name, _, hname, hblank, rfl⟩

/-- An atom is found or created unless a blank identifier is asked for. -/
theorem findOrCreate_cases {id : Option AtomId} (hwf : progress.store.WellFormed)
    (h : progress.store.DrawsNew named) (hfinite : visibility.defaults.AreFinite)
    (hnamed : ∀ name, id = some name → name ∈ named) :
    (∃ atom progress', findOrCreate visibility id progress = .ok atom progress' ∧
      progress'.store.DrawsNew named) ∨
    ∃ name progress', id = some name ∧ Text.isBlankText name ∧
      findOrCreate visibility id progress = .error (.store (.invalid .blankId)) progress' := by
  cases id with
  | none => exact createFor_cases h hfinite hnamed fun name heq => by cases heq
  | some name =>
      rw [findOrCreate_some]
      by_cases hname : progress.store.HasAtom name
      · obtain ⟨atom, hatom, -, -⟩ := hwf.arranged.exists_atom hname
        rw [bind_of_ok (Progress.look_of_ok (atom_eq_ok.mp hatom))]
        exact Or.inl ⟨atom, progress, rfl, h⟩
      · rw [bind_of_ok (Progress.look_of_ok (atom?_eq_none.mpr hname))]
        refine createFor_cases h hfinite hnamed fun other heq => ?_
        cases heq
        exact hname

variable {parent : AtomId} {olds : List Place} {wanted : List (Option AtomId)} {i j : Nat}
  {news : List Place} {done slots : List Slot}

/-- An insertion on the walk of a script fails only for a blank identifier. -/
theorem Underway.insert_cases
    (h : Underway parent olds wanted i j news done slots progress.store)
    (hdraws : progress.store.DrawsNew named) (hfinite : visibility.defaults.AreFinite)
    {id : Option AtomId} (hid : wanted[j]? = some id)
    (hnamed : ∀ name, id = some name → name ∈ named) :
    (∃ slots' progress', applyEdit visibility parent slots (.insert j j) progress =
      .ok slots' progress' ∧ progress'.store.DrawsNew named) ∨
    ∃ name progress', id = some name ∧ Text.isBlankText name ∧
      applyEdit visibility parent slots (.insert j j) progress =
        .error (.store (.invalid .blankId)) progress' := by
  rw [applyEdit_insert_eq visibility parent j (h.getElem?_slots hid)]
  rcases findOrCreate_cases h.wellFormed hdraws hfinite hnamed with
    ⟨atom, progress₁, hfind, hdraws₁⟩ | ⟨name, progress₁, hname, hblank, hfind⟩
  swap
  · exact Or.inr ⟨name, progress₁, hname, hblank, bind_of_error hfind⟩
  obtain ⟨created, hprovided⟩ := exists_provided h.wellFormed hfind
  have hedited := hprovided.edited parent
  have hsplit : progress₁.store.places parent = news ++ olds.drop i := by
    rw [hprovided.places, h.places]
  obtain ⟨store, hinsert, hrelisted, hsupply⟩ := insertAt_ok hedited.wellFormed
    (hedited.hasAtom h.hasParent) hprovided.hasAtom
    (hdraws₁.noCell _ (Supply.upcoming_nextIdentifier _)) hsplit
  rw [h.length_news] at hinsert
  have hdraws₂ := hdraws₁.of_insertAt hedited.wellFormed hsplit rfl hrelisted hsupply
  rw [bind_of_ok hfind, perform_of_ok hinsert]
  exact Or.inl ⟨_, _, rfl, hdraws₂⟩

/-- A script is carried out to its end, unless it comes to a blank identifier. -/
theorem applyScript_cases {pairs : List (Nat × Nat)} {edits : List Edit}
    (hwalk : Edit.Walk olds.length wanted.length i j pairs edits)
    (hmatch : ∀ p ∈ pairs, ∃ place, olds[p.1]? = some place ∧
      wanted[p.2]? = some (some place.atom))
    (h : Underway parent olds wanted i j news done slots progress.store)
    (hdraws : progress.store.DrawsNew named) (hfinite : visibility.defaults.AreFinite)
    (hnamed : ∀ name, some name ∈ wanted → name ∈ named) :
    (∃ slots' progress', applyScript visibility parent edits slots progress =
      (none, slots', progress') ∧ progress'.store.DrawsNew named) ∨
    ∃ name slots' progress', some name ∈ wanted ∧ Text.isBlankText name ∧
      applyScript visibility parent edits slots progress =
        (some (.store (.invalid .blankId)), slots', progress') := by
  induction hwalk generalizing news done slots progress with
  | done => exact Or.inl ⟨slots, progress, rfl, hdraws⟩
  | @delete i j pairs edits hi _ ih =>
      obtain ⟨progress₁, hedit, hnext, hedited, -⟩ := h.delete visibility hi
      rw [applyScript, hedit]
      refine ih hmatch hnext (hdraws.of_edited h.wellFormed hedited fun place hplace => ?_)
      rw [hnext.places] at hplace
      rw [h.places]
      exact (List.Sublist.refl news).append (List.drop_sublist_drop_left olds (Nat.le_succ i))
        |>.subset hplace
  | @insert i j pairs edits hj _ ih =>
      have hid := List.getElem?_eq_getElem hj
      have hmem : wanted[j] ∈ wanted := List.getElem_mem hj
      rw [applyScript]
      rcases h.insert_cases hdraws hfinite hid
          (fun name heq => hnamed name (heq ▸ hmem)) with
        ⟨slots₁, progress₁, hedit, hdraws₁⟩ | ⟨name, progress₁, hname, hblank, hedit⟩
      · obtain ⟨place, created, -, -, hnext, -, -⟩ := h.insert hid hedit
        rw [hedit]
        exact ih hmatch hnext hdraws₁
      · rw [hedit]
        exact Or.inr ⟨name, slots, progress₁, hname ▸ hmem, hblank, rfl⟩
  | keep hi hj _ ih =>
      obtain ⟨⟨place, hplace, hid⟩, hmatch⟩ := List.forall_mem_cons.mp hmatch
      exact ih hmatch (h.keep hplace hid) hdraws

/-! ## How an update ends -/

/-- The reasons to refuse an update of a note, where `after` is the store that it has
reached. -/
inductive Refusal (visibility : Visibility) (after : Store) (note : Note) : NoteError → Prop
  /-- An atom has children to be, but with the properties that its note sets it is not shown. -/
  | hidden {part : Note} {stored new : Atom} : part.Within note → part.children ≠ [] →
      after.atom stored.id = .ok new → Carries part stored new →
      visibility.shows (merge part stored) = false →
      Refusal visibility after note (.invalidUpdate (.hidden stored.id))
  | blankId {part child : Note} {id : AtomId} : part.Within note → child ∈ part.children →
      child.id = some id → Text.isBlankText id →
      Refusal visibility after note (.store (.invalid .blankId))
  | notFinite {part : Note} {property : NumberProperty} : part.Within note →
      isUnsetOrFinite (part.number property) = false →
      Refusal visibility after note (.store (.invalid (.notFinite property)))

/-- What is refused of a child is refused of the note. -/
theorem Refusal.of_child {after : Store} {child : Note} {cause : NoteError}
    (hchild : child ∈ note.children) (h : Refusal visibility after child cause) :
    Refusal visibility after note cause := by
  cases h with
  | hidden hpart hchildren hatom hcarries hhidden =>
      exact Refusal.hidden (.ofChild hchild hpart) hchildren hatom hcarries hhidden
  | blankId hpart hmem hid hblank =>
      exact Refusal.blankId (.ofChild hchild hpart) hmem hid hblank
  | notFinite hpart hno => exact Refusal.notFinite (.ofChild hchild hpart) hno

/-- An update can go on from `after` as it could from `before`. -/
structure Advances (named : List AtomId) (before after : Store) : Prop where
  wellFormed : after.WellFormed
  drawsNew : after.DrawsNew named
  hasAtom : ∀ id, before.HasAtom id → after.HasAtom id

theorem Advances.trans {a b c : Store} (hab : Advances named a b) (hbc : Advances named b c) :
    Advances named a c :=
  ⟨hbc.wellFormed, hbc.drawsNew, fun id hid => hbc.hasAtom id (hab.hasAtom id hid)⟩

/-- An outcome is a success that others may follow, or a failure for some reason. -/
structure Ends {α : Type} (named : List AtomId) (before : Store) (Reason : Store → NoteError → Prop)
    (outcome : Outcome α) : Prop where
  advances : outcome.failure = none → Advances named before outcome.progress.store
  refused : ∀ cause, outcome.failure = some cause → Reason outcome.progress.store cause

theorem Ends.of_advances {α : Type} {before : Store} {Reason : Store → NoteError → Prop} {notes : α}
    (h : Advances named before progress.store) : Ends named before Reason { notes, progress } :=
  ⟨fun _ => h, fun _ hfailure => by cases hfailure⟩

theorem Ends.of_refused {α : Type} {before : Store} {Reason : Store → NoteError → Prop} {notes : α}
    {cause : NoteError} (h : Reason progress.store cause) :
    Ends named before Reason { notes, progress, failure := some cause } where
  advances hfailure := by cases hfailure
  refused _ hfailure := Option.some.inj hfailure ▸ h

theorem editList_cases {before : Store} {stored : Atom} (hwf : before.WellFormed)
    (hstored : before.atom id = .ok stored) (hsynced : Synced note id before progress.store)
    (hdraws : progress.store.DrawsNew named) (hfinite : visibility.defaults.AreFinite)
    (hnamed : ∀ name, some name ∈ note.children.map Note.id → name ∈ named) :
    (∃ (items : List Woven) (progress' : Progress),
      editList visibility (merge note stored) note.children progress =
        (none, items.map Woven.slot, progress') ∧
      (∀ item ∈ items, progress'.store.HasAtom item.place.atom) ∧
      Advances named progress.store progress'.store) ∨
    ∃ child ∈ note.children, ∃ name slots progress', child.id = some name ∧
      Text.isBlankText name ∧ editList visibility (merge note stored) note.children progress =
        (some (.store (.invalid .blankId)), slots, progress') := by
  obtain ⟨hstores, rfl⟩ := hwf.atom_eq_iff.mp hstored
  have hnotes : stored.notes = start none (progress.store.places stored.id) := by
    rw [hsynced.places]
    exact hwf.notes_eq hstores
  have hparent : progress.store.HasAtom (merge note stored).id :=
    hsynced.hasAtom_iff.mpr hstores.hasAtom
  obtain ⟨edits, hedits, hwalk, hmatch⟩ :=
    @editList_walks _ (merge note stored) hsynced.wellFormed hnotes visibility note.children
  have hstart := Underway.start hsynced.wellFormed hparent (note.children.map Note.id)
  rcases applyScript_cases hwalk hmatch hstart hdraws hfinite hnamed with
    ⟨slots, progress', hrun, hdraws'⟩ | ⟨name, slots, progress', hname, hblank, hrun⟩
  · rw [← hedits] at hrun
    obtain ⟨items, created, hrewoven, rfl, hplaces⟩ :=
      editList_of_synced hwf hstored hsynced hrun
    refine Or.inl ⟨items, progress', hrun, fun item hitem => ?_,
      hrewoven.edited.wellFormed, hdraws', fun other => hrewoven.edited.hasAtom⟩
    refine hrewoven.edited.wellFormed.hasAtom_of_mem_places stored.id ?_
    rw [hplaces]
    exact List.mem_map_of_mem hitem
  · obtain ⟨child, hchild, hid⟩ := List.mem_map.mp hname
    exact Or.inr ⟨child, hchild, name, slots, progress', hid, hblank, hedits.trans hrun⟩

mutual

/-- A level of an update ends well, or for a reason that lies in the note. -/
theorem applyNote_ends (hfinite : visibility.defaults.AreFinite) (id : AtomId) (depth : Nat)
    (progress : Progress) (note : Note) (hwf : progress.store.WellFormed)
    (hdraws : progress.store.DrawsNew named) (hid : progress.store.HasAtom id)
    (hnamed : ∀ other ∈ note.idsBelow, other ∈ named) :
    Ends named progress.store (fun after => Refusal visibility after note)
      (applyNote visibility id depth progress note) := by
  cases note with
  | mk own value byname weight sharability created children =>
      rw [applyNote]
      split
      next hrun =>
        obtain ⟨property, rfl, hno⟩ := storeProperties_error hwf hid hrun
        exact Ends.of_refused (Refusal.notFinite .self hno)
      next atom progress₁ hrun =>
        obtain ⟨stored, hstored, rfl, -, hsynced⟩ := storeProperties_synced hwf hrun
        have hdraws₁ := hdraws.of_sameLists hsynced.toSameLists
        have hfirst : Advances named progress.store progress₁.store :=
          ⟨hsynced.wellFormed, hdraws₁, fun other hother => hsynced.hasAtom_iff.mpr hother⟩
        cases depth with
        | zero => exact Ends.of_advances hfirst
        | succ depth =>
            dsimp only
            split
            · rcases editList_cases hwf hstored hsynced hdraws₁ hfinite
                  (fun name hname => hnamed name (Note.mem_idsBelow_of_mem_map hname)) with
                ⟨items, progress₂, hedit, hatoms, hsecond⟩ |
                ⟨child, hchild, name, slots, progress₂, hname, hblank, hedit⟩
              · dsimp only at hedit ⊢
                rw [hedit]
                rw [Note.idsBelow_eq] at hnamed
                have hends := applyChildren_ends hfinite depth progress₂ items children
                  hsecond.wellFormed hsecond.drawsNew hatoms hnamed
                constructor
                · exact fun hok => hfirst.trans (hsecond.trans (hends.advances hok))
                · intro cause hcause
                  obtain ⟨child, hchild, hrefusal⟩ := hends.refused cause hcause
                  exact hrefusal.of_child hchild
              · dsimp only at hedit ⊢
                rw [hedit]
                exact Ends.of_refused (Refusal.blankId .self hchild hname hblank)
            · split
              · exact Ends.of_advances hfirst
              next hhidden hsome =>
                obtain ⟨old, new, hold, hnew, hcarries⟩ := hsynced.carries
                obtain rfl : stored = old := Except.ok.inj (hstored.symm.trans hold)
                obtain ⟨-, rfl⟩ := hwf.atom_eq_iff.mp hstored
                exact Ends.of_refused (@Refusal.hidden visibility _ _ _ stored new .self
                  (by simpa using hsome) hnew hcarries (by simpa using hhidden))
termination_by sizeOf note

theorem applyChildren_ends (hfinite : visibility.defaults.AreFinite) (depth : Nat)
    (progress : Progress) (items : List Woven) (children : List Note)
    (hwf : progress.store.WellFormed) (hdraws : progress.store.DrawsNew named)
    (hatoms : ∀ item ∈ items, progress.store.HasAtom item.place.atom)
    (hnamed : ∀ other ∈ Note.idsAmong children, other ∈ named) :
    Ends named progress.store
      (fun after cause => ∃ child ∈ children, Refusal visibility after child cause)
      (applyChildren visibility depth progress (items.map Woven.slot) children) := by
  cases children with
  | nil =>
      rw [applyChildren]
      exact Ends.of_advances ⟨hwf, hdraws, fun _ hid => hid⟩
  | cons child children =>
      cases items with
      | nil =>
          rw [List.map_nil, applyChildren]
          exact Ends.of_advances ⟨hwf, hdraws, fun _ hid => hid⟩
      | cons item items =>
          obtain ⟨hatom, hatoms⟩ := List.forall_mem_cons.mp hatoms
          rw [Note.idsAmong] at hnamed
          have hfirst := applyNote_ends hfinite item.place.atom
            (if item.isInserted then 0 else depth) progress child hwf hdraws hatom
            fun other hother =>
              hnamed other (List.mem_append_left _ (List.mem_append_right _ hother))
          rw [List.map_cons, applyChildren]
          dsimp only [Woven.slot]
          split
          next cause hcause =>
            refine Ends.of_refused ⟨child, List.mem_cons_self, hfirst.refused cause hcause⟩
          next hok =>
            have hadvances := hfirst.advances hok
            have hrest := applyChildren_ends hfinite depth _ items children hadvances.wellFormed
              hadvances.drawsNew (fun item hitem => hadvances.hasAtom _ (hatoms item hitem))
              fun other hother => hnamed other (List.mem_append_right _ hother)
            constructor
            · exact fun hok => hadvances.trans (hrest.advances hok)
            · intro cause hcause
              obtain ⟨other, hother, hrefusal⟩ := hrest.refused cause hcause
              exact ⟨other, List.mem_cons_of_mem _ hother, hrefusal⟩
termination_by sizeOf children

end

/-- On a well-formed store, an update is refused because its root does not exist, or
for a reason that lies in its note; nothing else goes wrong, whatever the note names. -/
theorem failure_atRootWith {log : Option (List Event)} {store : Store} {root : AtomId}
    {depth : Nat} {outcome : Outcome Note} {cause : NoteError} (hwf : store.WellFormed)
    (hdraws : store.DrawsNew note.idsBelow) (hfinite : visibility.defaults.AreFinite)
    (hrun : atRootWith log visibility root depth note store = outcome)
    (hfailure : outcome.failure = some cause) :
    cause = .invalidUpdate (.unknownRoot root) ∧ ¬store.HasAtom root ∨
      Refusal visibility outcome.progress.store note cause := by
  subst hrun
  by_cases hroot : store.HasAtom root
  · obtain ⟨atom, hatom, -, rfl⟩ := hwf.arranged.exists_atom hroot
    rw [atRootWith, atom_eq_ok.mp hatom] at hfailure ⊢
    have hends := applyNote_ends hfinite atom.id depth { store, log } note hwf hdraws hroot
      fun _ hother => hother
    exact Or.inr (hends.refused cause hfailure)
  · rw [atRootWith, atom?_eq_none.mpr hroot] at hfailure
    cases hfailure
    exact Or.inl ⟨rfl, hroot⟩

/-- A child under a blank identifier, after one that names the root itself. -/
def sampleBlank : Note where
  children := [{ id := some "a" }, { id := some " " }]

/-- The sample refuses a blank identifier. -/
theorem sample_failure :
    sample.WellFormed ∧ sample.DrawsNew sampleBlank.idsBelow ∧
    Visibility.everything.defaults.AreFinite ∧
    (atRootWith none .everything "a" 1 sampleBlank sample).failure =
      some (.store (.invalid .blankId)) ∧
    (NoteError.store (.invalid .blankId) = .invalidUpdate (.unknownRoot "a") ∧
        ¬sample.HasAtom "a" ∨
      Refusal .everything (atRootWith none .everything "a" 1 sampleBlank sample).progress.store
        sampleBlank (.store (.invalid .blankId))) :=
  have hdraws : sample.DrawsNew sampleBlank.idsBelow := sample_drawsNew (by decide)
  have hfinite : Visibility.everything.defaults.AreFinite := ⟨rfl, rfl⟩
  have hfailure : (atRootWith none .everything "a" 1 sampleBlank sample).failure =
      some (.store (.invalid .blankId)) := by decide +kernel
  ⟨sample_wellFormed, hdraws, hfinite, hfailure,
    failure_atRootWith sample_wellFormed hdraws hfinite rfl hfailure⟩

end Update

end Outline
