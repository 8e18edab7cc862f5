import Outline.Proofs.PlainLists
import Outline.Proofs.Properties

/-!
# Updates of one level

An update that goes down one level brings the list of its root in line with the
children of the note, and only the properties of the children after that.  It
changes as little as possible: as many cells stay as a longest common
subsequence of the atoms in the list and the children has items.
-/

namespace Outline

/-- The items of a longest common subsequence of the atoms in a list and the
identifiers of children are `length`; a child without an identifier is in none. -/
structure IsLongestCommon (olds : List AtomId) (wanted : List (Option AtomId)) (length : Nat) :
    Prop where
  attained : ∃ common : List AtomId, common.Sublist olds ∧ (common.map some).Sublist wanted ∧
    common.length = length
  longest : ∀ common : List AtomId, common.Sublist olds → (common.map some).Sublist wanted →
    common.length ≤ length

namespace Update

open Store

variable {visibility : Visibility} {progress progress' : Progress}

/-- As many pairs are kept as a longest common subsequence has items. -/
theorem isLongestCommon_keptPairs {before : Store} {olds : List Place} {children : List Note}
    {items : List Woven}
    (h : Weave before olds (children.map Note.id) 0 0 (keptPairs olds children) items) :
    IsLongestCommon (olds.map Place.atom) (children.map Note.id)
      (keptPairs olds children).length where
  attained := by
    refine ⟨(survivors items).map Place.atom, h.survivors_sublist.map _, ?_, ?_⟩
    · rw [List.map_map]
      exact h.survivors_sublist_wanted
    · rw [List.length_map, h.length_survivors]
  longest := by
    intro common holds hwanted
    have hself : ∀ c ∈ common.map some, sameId c c := by
      intro c hc
      obtain ⟨id, -, rfl⟩ := List.mem_map.mp hc
      exact sameId_iff.mpr ⟨id, rfl, rfl⟩
    obtain ⟨pairs, haligns, hlength⟩ :=
      Alignment.exists_aligns_of_sublist (holds.map some) hwanted hself 0 0
    rw [List.map_map] at haligns
    have hle := Alignment.length_le_longest haligns
    rw [hlength, List.length_map] at hle
    exact hle

/-- Storing the properties of children changes no list. -/
theorem applyChildren_zero {slots : List Slot} {children : List Note}
    (h : progress.store.WellFormed) (hlength : slots.length = children.length)
    (hok : (applyChildren visibility 0 progress slots children).failure = none) :
    SameLists progress.store (applyChildren visibility 0 progress slots children).progress.store ∧
      (applyChildren visibility 0 progress slots children).progress.stats = progress.stats ∧
      (applyChildren visibility 0 progress slots children).notes = fill children slots := by
  induction children generalizing slots progress with
  | nil =>
      rw [applyChildren]
      exact ⟨SameLists.refl h, rfl, rfl⟩
  | cons child children ih =>
      cases slots with
      | nil => cases hlength
      | cons slot slots =>
          obtain ⟨id, first, rest, hid, hfirst, hrest, hfirstOk, hrestOk, heq⟩ :=
            applyChildren_cons_ok hok
          rw [ite_self] at hfirst
          subst hfirst hrest
          obtain ⟨atom, progress₁, hstore, hnote⟩ := applyNote_zero_ok hfirstOk
          obtain ⟨stored, -, -, hstats, hsynced⟩ := storeProperties_synced h hstore
          rw [hnote] at hrestOk heq
          obtain ⟨hlists, hstats', hnotes⟩ :=
            ih hsynced.wellFormed (Nat.succ.inj hlength) hrestOk
          rw [heq]
          refine ⟨hsynced.toSameLists.trans hlists, hstats'.trans hstats, ?_⟩
          dsimp only
          rw [hnotes, ← hid]
          rfl

/-- The list of `root` was brought in line with the children of a note, changing
as little as possible: `length` items are common to both, `survivors` are the
places that stayed and `created` the atoms that are new. -/
structure LevelUpdated (before : Store) (root : AtomId) (note : Note) (outcome : Outcome Note)
    (length : Nat) (survivors : List Place) (created : List AtomId) : Prop where
  longest :
    IsLongestCommon ((before.places root).map Place.atom) (note.children.map Note.id) length
  /-- The list has as many places as the note has children. -/
  sameLength : (outcome.progress.store.places root).length = note.children.length
  /-- The notes carry the identifiers of the atoms in the list, and are otherwise as they were. -/
  notes : outcome.notes = { note with
    children := note.children.zipWith (fun child place => { child with id := some place.atom })
      (outcome.progress.store.places root) }
  /-- A child that named an atom got it. -/
  named : ∀ (index : Nat) (child : Note) (name : AtomId) (place : Place),
    note.children[index]? = some child → child.id = some name →
    (outcome.progress.store.places root)[index]? = some place → place.atom = name
  deleted : outcome.progress.stats.deleted + length = (before.places root).length
  inserted : outcome.progress.stats.inserted + length = note.children.length
  createdCount : outcome.progress.stats.created = created.length
  createdNodup : created.Nodup
  mem_created : ∀ id, id ∈ created ↔ outcome.progress.store.HasAtom id ∧ ¬before.HasAtom id
  /-- No atom is lost. -/
  atomsStay : ∀ id, before.HasAtom id → outcome.progress.store.HasAtom id
  lengthSurvivors : survivors.length = length
  survivorsBefore : survivors.Sublist (before.places root)
  survivorsAfter : survivors.Sublist (outcome.progress.store.places root)
  /-- The other cells of the list are gone. -/
  cells : ∀ place ∈ before.places root,
    outcome.progress.store.HasCell place.cell ↔ place ∈ survivors
  otherLists : ∀ id, id ≠ root → outcome.progress.store.places id = before.places id

/-- An old cell of an edited list is still there exactly if it is a survivor. -/
theorem Weave.hasCell_iff {before after : Store} {root : AtomId} {wanted : List (Option AtomId)}
    {pairs : List (Nat × Nat)} {items : List Woven} {defaults : Defaults} {created : List AtomId}
    {olds : List Place} (h : Weave before olds wanted 0 0 pairs items) (hwf : before.WellFormed)
    (holds : before.places root = olds)
    (hfresh : ∀ id, before.supply.Upcoming id → ¬before.HasCell id)
    (hedited : Edited defaults root created before after)
    (hplaces : after.places root = items.map Woven.place) {place : Place} (hplace : place ∈ olds) :
    after.HasCell place.cell ↔ place ∈ survivors items := by
  subst holds
  have hsurvivors := h.survivors_sublist
  rw [List.drop_zero] at hsurvivors
  rw [hedited.wellFormed.hasCell_iff]
  constructor
  · rintro ⟨place', hplace', hcell⟩
    obtain ⟨id, hid⟩ := hedited.wellFormed.hasPlace_iff.mp hplace'
    by_cases hroot : id = root
    · rw [hroot, hplaces] at hid
      obtain ⟨item, hitem, rfl⟩ := List.mem_map.mp hid
      rcases h.survives_or_upcoming hitem with hstays | hnew
      · rwa [← (hwf.places_apart (hsurvivors.subset hstays) hplace hcell).2]
      · exact absurd (hwf.hasCell_iff.mpr ⟨place, hwf.hasPlace_iff.mpr ⟨root, hplace⟩, hcell.symm⟩)
          (hfresh _ hnew)
    · rw [hedited.places id hroot] at hid
      exact absurd (hwf.places_apart hid hplace hcell).1 hroot
  · intro hstays
    refine ⟨place, hedited.wellFormed.hasPlace_iff.mpr ⟨root, ?_⟩, rfl⟩
    rw [hplaces]
    exact (List.filter_sublist.map Woven.place).subset hstays

/-- A level is updated once the properties of its root are stored, its list is
edited and nothing happens to lists after that. -/
theorem levelUpdated_of_rewoven {store : Store} {root : AtomId} {note : Note} {defaults : Defaults}
    {items : List Woven} {created : List AtomId} {progress₁ progress₂ : Progress}
    {outcome : Outcome Note} (hfresh : ∀ id, store.supply.Upcoming id → ¬store.HasCell id)
    (hsynced : Synced note root store progress₁.store) (hstats : progress₁.stats = {})
    (hrewoven : Rewoven defaults root (store.places root) (note.children.map Note.id) 0 0
      (keptPairs (store.places root) note.children) items created progress₁ progress₂)
    (hplaces : progress₂.store.places root = items.map Woven.place)
    (hlists : SameLists progress₂.store outcome.progress.store)
    (hstats' : outcome.progress.stats = progress₂.stats)
    (hnotes : outcome.notes =
      { note with children := fill note.children (items.map Woven.slot) }) :
    LevelUpdated store root note outcome (keptPairs (store.places root) note.children).length
      (survivors items) created := by
  obtain ⟨hweave, hedited, -, -, hdeleted, hinserted, hcreated⟩ := hrewoven
  have hlength := hweave.length_items
  rw [List.length_map, Nat.add_zero] at hlength
  have hafter : outcome.progress.store.places root = items.map Woven.place := by
    rw [hlists.places, hplaces]
  have hfresh₁ : ∀ id, progress₁.store.supply.Upcoming id → ¬progress₁.store.HasCell id := by
    intro id hid
    rw [hsynced.hasCell_iff]
    rw [hsynced.supply] at hid
    exact hfresh id hid
  have hnew := hedited.created_new
  rw [hstats, Nat.add_zero] at hdeleted hinserted
  rw [hstats] at hcreated
  rw [List.length_map] at hinserted
  constructor
  case longest => exact isLongestCommon_keptPairs hweave
  case sameLength => rw [hafter, List.length_map, hlength]
  case notes =>
    rw [hnotes, hafter, fill, List.zipWith_map_right, List.zipWith_map_right]
    rfl
  case named =>
    intro index child name place hchild hname hplace
    rw [hafter, List.getElem?_map, Option.map_eq_some_iff] at hplace
    obtain ⟨item, hitem, rfl⟩ := hplace
    refine hweave.atom_eq_of_named hitem ?_
    rw [Nat.zero_add, List.getElem?_map, hchild, Option.map_some, hname]
  case deleted => simpa only [hstats', Nat.zero_add] using hdeleted
  case inserted => simpa only [hstats', Nat.zero_add] using hinserted
  case createdCount => simpa only [hstats', Nat.zero_add] using hcreated
  case createdNodup => exact hnew.1
  case mem_created =>
    intro id
    rw [hlists.hasAtom_iff, hedited.hasAtom_iff, hsynced.hasAtom_iff]
    constructor
    · intro hid
      exact ⟨Or.inr hid, fun hatom => hnew.2 id hid (hsynced.hasAtom_iff.mpr hatom)⟩
    · rintro ⟨hatom | hid, hno⟩
      · exact absurd hatom hno
      · exact hid
  case atomsStay =>
    intro id hid
    exact hlists.hasAtom_iff.mpr (hedited.hasAtom (hsynced.hasAtom_iff.mpr hid))
  case lengthSurvivors => exact hweave.length_survivors
  case survivorsBefore =>
    have hsurvivors := hweave.survivors_sublist
    rwa [List.drop_zero] at hsurvivors
  case survivorsAfter =>
    rw [hafter]
    exact List.filter_sublist.map Woven.place
  case cells =>
    intro place hplace
    rw [hlists.hasCell_iff]
    exact hweave.hasCell_iff hsynced.wellFormed (congrFun hsynced.places root) hfresh₁ hedited
      hplaces hplace
  case otherLists =>
    intro id hid
    rw [hlists.places, hedited.places id hid, hsynced.places]

/-- An update that goes down one level and succeeds, of a root that is shown,
brings the list of the root in line with the children of the note and changes as
little as possible. -/
theorem atRoot_one_level {store : Store} {root : AtomId} {note : Note} {atom : Atom}
    {outcome : Outcome Note} (hwf : store.WellFormed)
    (hfresh : ∀ id, store.supply.Upcoming id → ¬store.HasCell id)
    (hroot : store.atom root = .ok atom) (hshows : visibility.shows (merge note atom))
    (hrun : atRoot visibility root 1 note store = outcome) (hok : outcome.failure = none) :
    ∃ length survivors created, LevelUpdated store root note outcome length survivors created := by
  subst hrun
  obtain ⟨found, hfound, heq⟩ := atRoot_ok hok
  obtain ⟨-, rfl⟩ := (atom?_eq_some hwf.atomIdsNodup).mp hfound
  rw [heq] at hok ⊢
  obtain ⟨synced, progress₁, hstore, hcases⟩ := applyNote_succ_ok hok
  obtain ⟨stored, hstored, rfl, hstats, hsynced⟩ := storeProperties_synced hwf hstore
  obtain rfl : stored = atom := Except.ok.inj (hstored.symm.trans hroot)
  rcases hcases with ⟨hhidden, -, -⟩ | ⟨-, slots, progress₂, hedit, hbelow, heq⟩
  · simp [hshows] at hhidden
  obtain ⟨items, created, hrewoven, rfl, hplaces⟩ := editList_of_synced hwf hroot hsynced hedit
  have hlength := hrewoven.weave.length_items
  rw [List.length_map, Nat.add_zero] at hlength
  obtain ⟨hlists, hstats', hnotes⟩ := applyChildren_zero hrewoven.edited.wellFormed
    (by rw [List.length_map, hlength]) hbelow
  rw [heq]
  refine ⟨_, survivors items, created,
    levelUpdated_of_rewoven hfresh hsynced hstats hrewoven hplaces hlists hstats' ?_⟩
  dsimp only
  rw [hnotes]

/-- Three children for the list of the sample: one that it holds, one that is new
and its own atom. -/
def sampleNote : Note where
  children := [{ id := some "c" }, { value := some "new" }, { id := some "a" }]

theorem sample_fresh (id : String) (hid : sample.supply.Upcoming id) : ¬sample.HasCell id := by
  obtain ⟨k, -, rfl⟩ := hid
  rintro ⟨row, hrow, hname⟩
  have hlong : 32 ≤ (sample.supply.naming k).length := Supply.le_length_identifier k
  simp only [sample, List.mem_cons, List.not_mem_nil, or_false] at hrow
  rcases hrow with rfl | rfl
  · rw [← Datum.text.inj hname] at hlong
    exact absurd hlong (by decide)
  · rw [← Datum.text.inj hname] at hlong
    exact absurd hlong (by decide)

/-- The sample after an update of its list: the cell of one atom stays. -/
theorem sample_one_level :
    sample.WellFormed ∧ (∀ id, sample.supply.Upcoming id → ¬sample.HasCell id) ∧
    sample.atom "a" = .ok { id := "a", notes := some "p" } ∧
    (atRoot .everything "a" 1 sampleNote sample).failure = none ∧
    ∃ length survivors created, LevelUpdated sample "a" sampleNote
      (atRoot .everything "a" 1 sampleNote sample) length survivors created :=
  have hok : (atRoot .everything "a" 1 sampleNote sample).failure = none := by decide +kernel
  ⟨sample_wellFormed, sample_fresh, rfl, hok,
    atRoot_one_level sample_wellFormed sample_fresh rfl rfl rfl hok⟩

end Update

end Outline
