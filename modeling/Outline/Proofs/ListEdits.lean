import Outline.Proofs.EditWalks
import Outline.Proofs.Effects
import Outline.Proofs.UpdateSteps

/-!
# Editing a list by a script

A script of an update is carried out edit by edit.  `Weave` says, along the walk
of the script, which places the list consists of in the end: those that are
kept, and new ones for the children that are not paired with any.
-/

namespace Outline

namespace Update

open Progress Store

variable {visibility : Visibility} {parent : AtomId} {progress progress' : Progress}
  {slots slots' : List Slot} {xs ys : List Place} {place : Place}

/-! ## One edit -/

/-- A deletion in range succeeds. -/
theorem applyEdit_delete (visibility : Visibility) (h : progress.store.WellFormed)
    (hparent : progress.store.HasAtom parent)
    (hsplit : progress.store.places parent = xs ++ place :: ys) (slots : List Slot) (index : Nat) :
    ∃ progress', applyEdit visibility parent slots (.delete xs.length index) progress =
        .ok slots progress' ∧
      Edited visibility.defaults parent [] progress.store progress'.store ∧
      progress'.store.places parent = xs ++ ys ∧
      progress'.stats = { progress.stats with deleted := progress.stats.deleted + 1 } := by
  obtain ⟨store, hrun, hrelisted, hsupply⟩ := deleteAt_ok h hparent hsplit
  rw [applyEdit_delete_eq, perform_of_ok hrun]
  exact ⟨_, rfl, hrelisted.edited (hsupply ▸ Supply.Precedes.refl _), hrelisted.places_self, rfl⟩

/-- An atom was found or created for a child that names `id` or nothing. -/
structure Provided (defaults : Defaults) (id : Option AtomId) (atom : Atom) (created : List AtomId)
    (before after : Progress) : Prop where
  edited : ∀ owner, Edited defaults owner created before.store after.store
  places : after.store.places = before.store.places
  stats : after.stats = { before.stats with created := before.stats.created + created.length }
  hasAtom : after.store.HasAtom atom.id
  created : ∀ id ∈ created, id = atom.id
  named : ∀ name, id = some name → atom.id = name
  /-- An atom for a child without an identifier is new. -/
  unnamed : id = none →
    before.store.supply.Upcoming atom.id ∧ ¬before.store.HasAtom atom.id

theorem provided_createFor (h : progress.store.WellFormed) {id : Option AtomId} {atom : Atom}
    (hrun : createFor visibility id progress = .ok atom progress') :
    Provided visibility.defaults id atom [atom.id] progress progress' := by
  obtain ⟨atom, store, hcreate, rfl, rfl⟩ := perform_eq_ok hrun
  obtain ⟨hatom, -, hnew, -⟩ := createAtom_eq_ok hcreate
  constructor
  case edited => exact fun owner => edited_createAtom h hcreate
  case places => exact places_createAtom h hcreate
  case stats => rfl
  case hasAtom =>
    have hedited : Edited visibility.defaults atom.id [atom.id] progress.store store :=
      edited_createAtom h hcreate
    exact hedited.hasAtom_iff.mpr (Or.inr (List.mem_singleton_self _))
  case created => exact fun id hid => List.mem_singleton.mp hid
  case named =>
    rintro name rfl
    rw [hatom]
    rfl
  case unnamed =>
    rintro rfl
    refine ⟨?_, hnew⟩
    rw [hatom]
    exact Supply.upcoming_nextIdentifier _

theorem exists_provided (h : progress.store.WellFormed) {id : Option AtomId} {atom : Atom}
    (hrun : findOrCreate visibility id progress = .ok atom progress') :
    ∃ created, Provided visibility.defaults id atom created progress progress' := by
  cases id with
  | none =>
      rw [findOrCreate_none] at hrun
      exact ⟨_, provided_createFor h hrun⟩
  | some id =>
      rw [findOrCreate_some] at hrun
      obtain ⟨existing, progress₁, hlook, hrun⟩ := bind_eq_ok.mp hrun
      obtain ⟨hexisting, rfl⟩ := look_eq_ok hlook
      cases existing with
      | none => exact ⟨_, provided_createFor h hrun⟩
      | some found =>
          cases hrun
          obtain ⟨hstored, hid⟩ := (atom?_eq_some h.atomIdsNodup).mp hexisting
          exact ⟨[], fun owner => Edited.refl h, rfl, rfl, hstored.hasAtom, by simp,
            fun name heq => hid.trans (Option.some.inj heq), fun heq => by cases heq⟩

/-- A place that is put into a list, some time after `before`, for a child that
names `id` or nothing. -/
structure NewPlace (before : Store) (id : Option AtomId) (place : Place) : Prop where
  cell : before.supply.Upcoming place.cell
  named : ∀ name, id = some name → place.atom = name
  unnamed : id = none → before.supply.Upcoming place.atom ∧ ¬before.HasAtom place.atom

theorem NewPlace.of_edited {defaults : Defaults} {created : List AtomId} {a b : Store}
    {id : Option AtomId} (hab : Edited defaults parent created a b) (h : NewPlace b id place) :
    NewPlace a id place where
  cell := hab.supply.upcoming h.cell
  named := h.named
  unnamed hid :=
    ⟨hab.supply.upcoming (h.unnamed hid).1, fun hatom => (h.unnamed hid).2 (hab.hasAtom hatom)⟩

/-- An insertion that succeeds puts a new cell with the child's atom in place. -/
theorem applyEdit_insert (h : progress.store.WellFormed)
    (hsplit : progress.store.places parent = xs ++ ys) {index : Nat} {id : Option AtomId}
    (hslot : slots[index]? = some { id })
    (hrun : applyEdit visibility parent slots (.insert xs.length index) progress =
      .ok slots' progress') :
    ∃ place created, NewPlace progress.store id place ∧ (∀ id ∈ created, id = place.atom) ∧
      slots' = slots.set index { id := some place.atom, isInserted := true } ∧
      Edited visibility.defaults parent created progress.store progress'.store ∧
      progress'.store.places parent = xs ++ place :: ys ∧
      progress'.stats = {
        inserted := progress.stats.inserted + 1
        deleted := progress.stats.deleted
        created := progress.stats.created + created.length } := by
  rw [applyEdit_insert_eq visibility parent _ hslot] at hrun
  obtain ⟨atom, progress₁, hfind, hrun⟩ := bind_eq_ok.mp hrun
  obtain ⟨created, hprovided⟩ := exists_provided h hfind
  obtain ⟨cell, store, hinsert, rfl, rfl⟩ := perform_eq_ok hrun
  have hwf := (hprovided.edited parent).wellFormed
  obtain ⟨howner, -, hchild, hfresh⟩ := insertAt_eq_ok hwf hinsert
  obtain ⟨store', hinsert', hrelisted, hsupply⟩ := insertAt_ok hwf howner hchild hfresh
    (by rw [hprovided.places, hsplit])
  rw [hinsert'] at hinsert
  cases hinsert
  refine ⟨_, created, ⟨?_, hprovided.named, hprovided.unnamed⟩, hprovided.created, ?_, ?_,
    hrelisted.places_self, ?_⟩
  · exact (hprovided.edited parent).supply.upcoming (Supply.upcoming_nextIdentifier _)
  · cases id with
    | none => rfl
    | some name =>
        dsimp only
        rw [hprovided.named name rfl]
        rfl
  · have hedited := (hprovided.edited parent).trans
      (hrelisted.edited (hsupply ▸ Supply.precedes_afterDraw _))
    rwa [List.append_nil] at hedited
  · dsimp only
    rw [hprovided.stats]

/-! ## All edits of a script -/

/-- A place of an edited list, and whether it was put there by the edits. -/
structure Woven where
  place : Place
  isInserted : Bool

/-- The slot of a child after its list was edited. -/
def Woven.slot (woven : Woven) : Slot where
  id := some woven.place.atom
  isInserted := woven.isInserted

/-- The places of an edited list from the places `i` and `j` of a walk on, where
`olds` stood in the list before and the children are `wanted`. -/
inductive Weave (before : Store) (olds : List Place) (wanted : List (Option AtomId)) :
    Nat → Nat → List (Nat × Nat) → List Woven → Prop
  | done : Weave before olds wanted olds.length wanted.length [] []
  | delete {i j : Nat} {pairs : List (Nat × Nat)} {items : List Woven} :
      i < olds.length → Weave before olds wanted (i + 1) j pairs items →
      Weave before olds wanted i j pairs items
  | insert {i j : Nat} {pairs : List (Nat × Nat)} {items : List Woven} {id : Option AtomId}
      {place : Place} :
      wanted[j]? = some id → NewPlace before id place →
      Weave before olds wanted i (j + 1) pairs items →
      Weave before olds wanted i j pairs ({ place, isInserted := true } :: items)
  | keep {i j : Nat} {pairs : List (Nat × Nat)} {items : List Woven} {place : Place} :
      olds[i]? = some place → wanted[j]? = some (some place.atom) →
      Weave before olds wanted (i + 1) (j + 1) pairs items →
      Weave before olds wanted i j ((i, j) :: pairs) ({ place, isInserted := false } :: items)

theorem Weave.of_edited {defaults : Defaults} {created : List AtomId} {a b : Store}
    {olds : List Place} {wanted : List (Option AtomId)} {i j : Nat} {pairs : List (Nat × Nat)}
    {items : List Woven} (hab : Edited defaults parent created a b)
    (h : Weave b olds wanted i j pairs items) : Weave a olds wanted i j pairs items := by
  induction h with
  | done => exact Weave.done
  | delete hi _ ih => exact Weave.delete hi ih
  | insert hj hnew _ ih => exact Weave.insert hj (hnew.of_edited hab) ih
  | keep hi hj _ ih => exact Weave.keep hi hj ih

/-- The places that were in the list before. -/
def survivors (items : List Woven) : List Place :=
  (items.filter fun item => !item.isInserted).map Woven.place

namespace Weave

variable {before : Store} {olds : List Place} {wanted : List (Option AtomId)} {i j : Nat}
  {pairs : List (Nat × Nat)} {items : List Woven}

theorem length_survivors (h : Weave before olds wanted i j pairs items) :
    (survivors items).length = pairs.length := by
  induction h with
  | done => rfl
  | delete _ _ ih => exact ih
  | insert _ _ _ ih => exact ih
  | keep _ _ _ ih => simpa [survivors] using ih

theorem survivors_sublist (h : Weave before olds wanted i j pairs items) :
    (survivors items).Sublist (olds.drop i) := by
  induction h with
  | done => simp [survivors]
  | delete _ _ ih => exact ih.trans (List.drop_sublist_drop_left olds (Nat.le_succ _))
  | insert _ _ _ ih => exact ih
  | keep hi _ _ ih =>
      rw [drop_eq_cons hi]
      exact ih.cons_cons _

theorem survivors_sublist_wanted (h : Weave before olds wanted i j pairs items) :
    ((survivors items).map fun place => some place.atom).Sublist (wanted.drop j) := by
  induction h with
  | done => simp [survivors]
  | delete _ _ ih => exact ih
  | insert _ _ _ ih => exact ih.trans (List.drop_sublist_drop_left wanted (Nat.le_succ _))
  | keep _ hj _ ih =>
      rw [drop_eq_cons hj]
      exact ih.cons_cons _

theorem length_items (h : Weave before olds wanted i j pairs items) :
    items.length + j = wanted.length := by
  induction h with
  | done => simp
  | delete _ _ ih => exact ih
  | insert _ _ _ ih =>
      rw [List.length_cons]
      omega
  | keep _ _ _ ih =>
      rw [List.length_cons]
      omega

theorem fromHere (h : Weave before olds wanted i j pairs items) : ∀ p ∈ pairs, j ≤ p.2 := by
  induction h with
  | done => simp
  | delete _ _ ih => exact ih
  | insert _ _ _ ih => exact fun p hp => Nat.le_of_succ_le (ih p hp)
  | keep _ _ _ ih =>
      intro p hp
      rcases List.mem_cons.mp hp with rfl | hp
      · exact Nat.le_refl _
      · exact Nat.le_of_succ_le (ih p hp)

/-- Every place of the list is a new one for its child, which is not paired, or
an old one that is paired with it. -/
theorem getElem?_items (h : Weave before olds wanted i j pairs items) {k : Nat} {item : Woven}
    (hitem : items[k]? = some item) :
    (item.isInserted = true ∧ (∀ p ∈ pairs, p.2 ≠ j + k) ∧
      ∃ id, wanted[j + k]? = some id ∧ NewPlace before id item.place) ∨
    (item.isInserted = false ∧ wanted[j + k]? = some (some item.place.atom) ∧
      ∃ index, (index, j + k) ∈ pairs ∧ olds[index]? = some item.place) := by
  induction h generalizing k with
  | done => simp at hitem
  | delete _ _ ih => exact ih hitem
  | @insert i j pairs items id place hj hnew hrest ih =>
      cases k with
      | zero =>
          obtain rfl := Option.some.inj hitem
          refine Or.inl ⟨rfl, fun p hp => ?_, id, hj, hnew⟩
          have := hrest.fromHere p hp
          omega
      | succ k =>
          rw [← Nat.succ_add_eq_add_succ]
          exact ih hitem
  | @keep i j pairs items place hi hj hrest ih =>
      cases k with
      | zero =>
          obtain rfl := Option.some.inj hitem
          exact Or.inr ⟨rfl, hj, i, List.mem_cons_self, hi⟩
      | succ k =>
          rw [← Nat.succ_add_eq_add_succ]
          rcases ih hitem with ⟨hinserted, hunpaired, hnew⟩ | ⟨hkept, hwanted, index, hpair, hold⟩
          · refine Or.inl ⟨hinserted, fun p hp => ?_, hnew⟩
            rcases List.mem_cons.mp hp with rfl | hp
            · dsimp only
              omega
            · exact hunpaired p hp
          · exact Or.inr ⟨hkept, hwanted, index, List.mem_cons_of_mem _ hpair, hold⟩

/-- A child that names an atom gets it. -/
theorem atom_eq_of_named (h : Weave before olds wanted i j pairs items) {k : Nat} {item : Woven}
    (hitem : items[k]? = some item) {name : AtomId} (hname : wanted[j + k]? = some (some name)) :
    item.place.atom = name := by
  rcases h.getElem?_items hitem with ⟨-, -, id, hid, hnew⟩ | ⟨-, hid, -⟩
  · exact hnew.named name (Option.some.inj (hid.symm.trans hname))
  · exact Option.some.inj (Option.some.inj (hid.symm.trans hname))

/-- An atom that stood in front before the rest was woven is apart from the atoms
that are new in the rest. -/
theorem apart_cons {first : Woven} (h : Weave before olds wanted i (j + 1) pairs items)
    (hapart : ∀ (k l : Nat) (item item' : Woven), k < l → items[k]? = some item →
      items[l]? = some item' → wanted[j + 1 + l]? = some none → item.place.atom ≠ item'.place.atom)
    (hfirst : before.HasAtom first.place.atom) (k l : Nat) (item item' : Woven) (hlt : k < l)
    (hitem : (first :: items)[k]? = some item) (hitem' : (first :: items)[l]? = some item')
    (hwanted : wanted[j + l]? = some none) : item.place.atom ≠ item'.place.atom := by
  obtain ⟨l, rfl⟩ : ∃ l', l = l' + 1 := ⟨l - 1, by omega⟩
  rw [List.getElem?_cons_succ] at hitem'
  rw [← Nat.succ_add_eq_add_succ] at hwanted
  cases k with
  | zero =>
      obtain rfl := Option.some.inj hitem
      rcases h.getElem?_items hitem' with ⟨-, -, id, hid, hnew⟩ | ⟨-, hid, -⟩
      · obtain rfl : id = none := Option.some.inj (hid.symm.trans hwanted)
        intro heq
        rw [heq] at hfirst
        exact (hnew.unnamed rfl).2 hfirst
      · cases hid.symm.trans hwanted
  | succ k => exact hapart k l item item' (Nat.lt_of_succ_lt_succ hlt) hitem hitem' hwanted

/-- Every place of the list is an old one or has a cell that was new. -/
theorem survives_or_upcoming (h : Weave before olds wanted i j pairs items) {item : Woven}
    (hitem : item ∈ items) :
    item.place ∈ survivors items ∨ before.supply.Upcoming item.place.cell := by
  obtain ⟨k, hk⟩ := List.mem_iff_getElem?.mp hitem
  rcases h.getElem?_items hk with ⟨-, -, id, -, hnew⟩ | ⟨hkept, -⟩
  · exact Or.inr hnew.cell
  · exact Or.inl (List.mem_map_of_mem (List.mem_filter.mpr ⟨hitem, by simp [hkept]⟩))

end Weave

/-- From the places `i` and `j` of its walk on, a script has woven `items` into the
list of `parent`; on the way it counted its edits and created some atoms. -/
structure Rewoven (defaults : Defaults) (parent : AtomId) (olds : List Place)
    (wanted : List (Option AtomId)) (i j : Nat) (pairs : List (Nat × Nat)) (items : List Woven)
    (created : List AtomId) (before after : Progress) : Prop where
  weave : Weave before.store olds wanted i j pairs items
  edited : Edited defaults parent created before.store after.store
  /-- Atoms are created for children only. -/
  mem_items : ∀ id ∈ created, ∃ item ∈ items, item.place.atom = id
  /-- The atom for a child without an identifier is not one that stands before it. -/
  apart : ∀ (k l : Nat) (item item' : Woven), k < l → items[k]? = some item →
    items[l]? = some item' → wanted[j + l]? = some none → item.place.atom ≠ item'.place.atom
  deleted : after.stats.deleted + pairs.length + i = before.stats.deleted + olds.length
  inserted : after.stats.inserted + pairs.length + j = before.stats.inserted + wanted.length
  created : after.stats.created = before.stats.created + created.length

/-- Where the walk of a script has come to the places `i` and `j`: the list of `parent`
consists of `news` and the old places still ahead, and `done` are the slots of the
children that have been passed. -/
structure Underway (parent : AtomId) (olds : List Place) (wanted : List (Option AtomId))
    (i j : Nat) (news : List Place) (done slots : List Slot) (store : Store) : Prop where
  wellFormed : store.WellFormed
  hasParent : store.HasAtom parent
  places : store.places parent = news ++ olds.drop i
  length_news : news.length = j
  slots : slots = done ++ (wanted.drop j).map fun id => ({ id } : Slot)
  length_done : done.length = j

namespace Underway

variable {olds : List Place} {wanted : List (Option AtomId)} {i j : Nat} {news : List Place}
  {done : List Slot}

theorem start {store : Store} (h : store.WellFormed) (hparent : store.HasAtom parent)
    (wanted : List (Option AtomId)) :
    Underway parent (store.places parent) wanted 0 0 [] []
      (wanted.map fun id => ({ id } : Slot)) store :=
  ⟨h, hparent, rfl, rfl, rfl, rfl⟩

theorem delete (h : Underway parent olds wanted i j news done slots progress.store)
    (visibility : Visibility) (hi : i < olds.length) :
    ∃ progress', applyEdit visibility parent slots (.delete j i) progress =
        .ok slots progress' ∧
      Underway parent olds wanted (i + 1) j news done slots progress'.store ∧
      Edited visibility.defaults parent [] progress.store progress'.store ∧
      progress'.stats = { progress.stats with deleted := progress.stats.deleted + 1 } := by
  have hplaces := h.places
  rw [List.drop_eq_getElem_cons hi] at hplaces
  obtain ⟨progress', hedit, hedited, hplaces', hstats⟩ :=
    applyEdit_delete visibility h.wellFormed h.hasParent hplaces slots i
  rw [h.length_news] at hedit
  exact ⟨progress', hedit, ⟨hedited.wellFormed, hedited.hasAtom h.hasParent, hplaces',
    h.length_news, h.slots, h.length_done⟩, hedited, hstats⟩

/-- The slot of the child that comes next. -/
theorem getElem?_slots (h : Underway parent olds wanted i j news done slots progress.store)
    {id : Option AtomId} (hid : wanted[j]? = some id) : slots[j]? = some { id } := by
  rw [h.slots, drop_eq_cons hid, ← h.length_done, List.getElem?_append_right (Nat.le_refl _),
    Nat.sub_self]
  rfl

theorem insert (h : Underway parent olds wanted i j news done slots progress.store)
    {id : Option AtomId} (hid : wanted[j]? = some id)
    (hedit : applyEdit visibility parent slots (.insert j j) progress = .ok slots' progress') :
    ∃ place created, NewPlace progress.store id place ∧ (∀ id ∈ created, id = place.atom) ∧
      Underway parent olds wanted i (j + 1) (news ++ [place])
        (done ++ [{ id := some place.atom, isInserted := true }]) slots' progress'.store ∧
      Edited visibility.defaults parent created progress.store progress'.store ∧
      progress'.stats = {
        inserted := progress.stats.inserted + 1
        deleted := progress.stats.deleted
        created := progress.stats.created + created.length } := by
  have hslot := h.getElem?_slots hid
  obtain rfl := h.length_news
  obtain ⟨place, created, hnew, hplace, rfl, hedited, hplaces, hstats⟩ :=
    applyEdit_insert h.wellFormed h.places hslot hedit
  refine ⟨place, created, hnew, hplace, ?_, hedited, hstats⟩
  constructor
  case wellFormed => exact hedited.wellFormed
  case hasParent => exact hedited.hasAtom h.hasParent
  case places => rw [hplaces, List.append_cons]
  case length_news => rw [List.length_append, List.length_singleton]
  case slots =>
    rw [h.slots, drop_eq_cons hid, List.map_cons, ← h.length_done,
      List.set_append_right _ _ (Nat.le_refl _), Nat.sub_self, List.set_cons_zero, List.append_cons]
  case length_done => rw [List.length_append, List.length_singleton, h.length_done]

theorem keep {store : Store} (h : Underway parent olds wanted i j news done slots store)
    (hplace : olds[i]? = some place) (hid : wanted[j]? = some (some place.atom)) :
    Underway parent olds wanted (i + 1) (j + 1) (news ++ [place])
      (done ++ [{ id := some place.atom }]) slots store where
  wellFormed := h.wellFormed
  hasParent := h.hasParent
  places := by rw [h.places, drop_eq_cons hplace, List.append_cons]
  length_news := by rw [List.length_append, List.length_singleton, h.length_news]
  slots := by rw [h.slots, drop_eq_cons hid, List.map_cons, List.append_cons]
  length_done := by rw [List.length_append, List.length_singleton, h.length_done]

end Underway

/-- A script that is carried out without failure leaves the list woven along its
walk. -/
theorem applyScript_rewoven (news : List Place) (done : List Slot) {olds : List Place}
    {wanted : List (Option AtomId)} {i j : Nat} {pairs : List (Nat × Nat)} {edits : List Edit}
    (hwalk : Edit.Walk olds.length wanted.length i j pairs edits)
    (hmatch : ∀ p ∈ pairs, ∃ place, olds[p.1]? = some place ∧
      wanted[p.2]? = some (some place.atom))
    (h : Underway parent olds wanted i j news done slots progress.store)
    (hrun : applyScript visibility parent edits slots progress = (none, slots', progress')) :
    ∃ items created,
      Rewoven visibility.defaults parent olds wanted i j pairs items created progress progress' ∧
      slots' = done ++ items.map Woven.slot ∧
      progress'.store.places parent = news ++ items.map Woven.place := by
  induction hwalk generalizing news slots done progress with
  | done =>
      cases hrun
      refine ⟨[], [], ⟨Weave.done, Edited.refl h.wellFormed, by simp, by simp, rfl, rfl, rfl⟩,
        ?_, ?_⟩
      · simp [h.slots]
      · simp [h.places]
  | @delete i j pairs edits hi _ ih =>
      obtain ⟨progress₁, hedit, hnext, hedited, hstats⟩ := h.delete visibility hi
      rw [applyScript, hedit] at hrun
      obtain ⟨items, created, hrewoven, hslots', hplaces'⟩ := ih news done hmatch hnext hrun
      obtain ⟨hweave, hedited', hitems, hapart, hdeleted, hinserted, hcreated⟩ := hrewoven
      simp only [hstats] at hdeleted hinserted hcreated
      refine ⟨items, created, ⟨Weave.delete hi (hweave.of_edited hedited), hedited.trans hedited',
        hitems, hapart, ?_, hinserted, hcreated⟩, hslots', hplaces'⟩
      omega
  | @insert i j pairs edits hj _ ih =>
      have hid := List.getElem?_eq_getElem hj
      rw [applyScript] at hrun
      split at hrun
      next slots₁ progress₁ hedit =>
        obtain ⟨place, created, hnew, hplace, hnext, hedited, hstats⟩ := h.insert hid hedit
        obtain ⟨items, created', hrewoven, hslots', hplaces'⟩ := ih _ _ hmatch hnext hrun
        obtain ⟨hweave, hedited', hitems, hapart, hdeleted, hinserted, hcreated⟩ := hrewoven
        simp only [hstats] at hdeleted hinserted hcreated
        have hatom : progress₁.store.HasAtom place.atom :=
          hnext.wellFormed.hasAtom_of_mem_places parent (by simp [hnext.places])
        refine ⟨{ place, isInserted := true } :: items, created ++ created',
          ⟨Weave.insert hid hnew (hweave.of_edited hedited), hedited.trans hedited', ?_,
            hweave.apart_cons hapart hatom, hdeleted, ?_, ?_⟩, ?_, ?_⟩
        · intro id hid
          rcases List.mem_append.mp hid with hid | hid
          · exact ⟨_, List.mem_cons_self, (hplace id hid).symm⟩
          · obtain ⟨item, hitem, heq⟩ := hitems id hid
            exact ⟨item, List.mem_cons_of_mem _ hitem, heq⟩
        · omega
        · rw [hcreated, List.length_append]
          omega
        · simp [hslots', Woven.slot]
        · simp [hplaces']
      next => cases hrun
  | @keep i j pairs edits hi hj _ ih =>
      obtain ⟨⟨place, hplace, hid⟩, hmatch⟩ := List.forall_mem_cons.mp hmatch
      have hnext := h.keep hplace hid
      obtain ⟨items, created, hrewoven, hslots', hplaces'⟩ := ih _ _ hmatch hnext hrun
      obtain ⟨hweave, hedited, hitems, hapart, hdeleted, hinserted, hcreated⟩ := hrewoven
      have hatom : progress.store.HasAtom place.atom :=
        h.wellFormed.hasAtom_of_mem_places parent (by simp [hnext.places])
      refine ⟨{ place, isInserted := false } :: items, created,
        ⟨Weave.keep hplace hid hweave, hedited, ?_, hweave.apart_cons hapart hatom, ?_, ?_,
          hcreated⟩, ?_, ?_⟩
      · intro id hid
        obtain ⟨item, hitem, heq⟩ := hitems id hid
        exact ⟨item, List.mem_cons_of_mem _ hitem, heq⟩
      · rw [List.length_cons]
        omega
      · rw [List.length_cons]
        omega
      · simp [hslots', Woven.slot]
      · simp [hplaces']

/-! ## The script of a list -/

/-- The atoms of a list are those in its places. -/
theorem sequence_eq_ok {store : Store} (h : store.WellFormed) {owner : Atom}
    (hnotes : owner.notes = start none (store.places owner.id)) :
    ∃ atoms, store.sequence owner = .ok atoms ∧
      atoms.map Atom.id = (store.places owner.id).map Place.atom := by
  have hchain : store.chain owner = .ok (linkedTo none (store.places owner.id)) := by
    rw [chain, hnotes]
    exact follow_linkedTo _ h.cellIdsNodup (h.arranged.distinct (some owner.id))
      (h.arranged.linked (some owner.id))
  have hcontent : ∀ cell ∈ linkedTo none (store.places owner.id),
      ∃ atom, store.content cell = .ok atom ∧ atom.id = cell.first := by
    intro cell hcell
    have hheld := h.arranged.held (some owner.id) _ (place_mem_of_mem_linkedTo hcell)
    obtain ⟨atom, hatom, -, hid⟩ := h.arranged.exists_atom hheld
    refine ⟨atom, ?_, hid⟩
    have hfound : store.atom? cell.first = .ok (some atom) := atom_eq_ok.mp hatom
    simp only [content, hfound]
    rfl
  obtain ⟨atoms, hatoms, hids⟩ := mapM_eq_ok hcontent
  refine ⟨atoms, ?_, ?_⟩
  · rw [Store.sequence, hchain]
    exact hatoms
  · have hplaces := map_place_linkedTo none (store.places owner.id)
    rw [hids]
    conv_rhs => rw [← hplaces, List.map_map]
    rfl

/-- Whether two identifiers are set and equal. -/
def sameId (a b : Option AtomId) : Bool :=
  match a, b with
  | some x, some y => x == y
  | _, _ => false

/-- The pairs of places that the edits of a list keep: a longest alignment of
the atoms in it with the identifiers of the children. -/
def keptPairs (olds : List Place) (children : List Note) : List (Nat × Nat) :=
  (Alignment.longest sameId (olds.map fun place => some place.atom) (children.map Note.id)).pairs

theorem sameId_iff {a b : Option AtomId} : sameId a b ↔ ∃ id, a = some id ∧ b = some id := by
  cases a with
  | none => simp [sameId]
  | some x =>
      cases b with
      | none => simp [sameId]
      | some y => simp [sameId, eq_comm (a := y)]

/-- The edits of a list are a walk along the pairs that are kept. -/
theorem editList_walks {parent : Atom} (h : progress.store.WellFormed)
    (hnotes : parent.notes = start none (progress.store.places parent.id))
    (visibility : Visibility) (children : List Note) :
    ∃ edits, editList visibility parent children progress =
        applyScript visibility parent.id edits
          ((children.map Note.id).map fun id => ({ id } : Slot)) progress ∧
      Edit.Walk (progress.store.places parent.id).length (children.map Note.id).length 0 0
        (keptPairs (progress.store.places parent.id) children) edits ∧
      ∀ p ∈ keptPairs (progress.store.places parent.id) children, ∃ place,
        (progress.store.places parent.id)[p.1]? = some place ∧
        (children.map Note.id)[p.2]? = some (some place.atom) := by
  obtain ⟨atoms, hatoms, hids⟩ := sequence_eq_ok h hnotes
  rw [editList]
  simp only [hatoms]
  generalize progress.store.places parent.id = olds at *
  refine ⟨_, by rw [List.map_map]; rfl, ?_, ?_⟩
  · have hpairs : (Alignment.longest Note.samePosition (atoms.map .ofAtom) children).pairs =
        keptPairs olds children := by
      have hleft : (atoms.map Note.ofAtom).map Note.id = olds.map fun place => some place.atom := by
        rw [List.map_map]
        have hsome := congrArg (List.map some) hids
        rwa [List.map_map, List.map_map] at hsome
      rw [keptPairs, ← hleft, Alignment.longest_map]
      rfl
    have hwalk := Edit.walk_script Note.samePosition (atoms.map .ofAtom) children
    rwa [hpairs, List.length_map, ← List.length_map (f := Atom.id), hids, List.length_map,
      ← List.length_map (f := Note.id)] at hwalk
  · intro p hp
    have haligns := Alignment.aligns_longest sameId
      (olds.map fun place => some place.atom) (children.map Note.id)
    obtain ⟨x, y, hx, hy, hxy⟩ := haligns.matching p hp
    obtain ⟨id, rfl, rfl⟩ := sameId_iff.mp hxy
    rw [Nat.sub_zero, List.getElem?_map, Option.map_eq_some_iff] at hx
    obtain ⟨place, hplace, hid⟩ := hx
    rw [Nat.sub_zero] at hy
    exact ⟨place, hplace, by rw [hid, hy]⟩

/-- The edits of a list that succeed weave it along the pairs that are kept. -/
theorem editList_rewoven {parent : Atom} {children : List Note} (h : progress.store.WellFormed)
    (hparent : progress.store.HasAtom parent.id)
    (hnotes : parent.notes = start none (progress.store.places parent.id))
    (hrun : editList visibility parent children progress = (none, slots, progress')) :
    ∃ items created,
      Rewoven visibility.defaults parent.id (progress.store.places parent.id)
        (children.map Note.id) 0 0 (keptPairs (progress.store.places parent.id) children) items
        created progress progress' ∧
      slots = items.map Woven.slot ∧
      progress'.store.places parent.id = items.map Woven.place := by
  obtain ⟨edits, hedits, hwalk, hmatch⟩ := editList_walks h hnotes visibility children
  rw [hedits] at hrun
  exact applyScript_rewoven [] [] hwalk hmatch (Underway.start h hparent _) hrun

end Update

end Outline
