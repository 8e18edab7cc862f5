import Outline.Proofs.PlainLists
import Outline.Proofs.Spreading

/-!
# What an update determines

An update of a tree of notes that name different atoms is carried out position
by position: every position that it comes to is settled in the end, and nothing
else has changed.
-/

namespace Outline

namespace Position

open Update Store

/-! ## All levels -/

mutual

/-- A level that succeeds settles its position, whatever note is given back for it. -/
theorem applyNote_settled (visibility : Visibility) (id : AtomId) (budget : Nat)
    (progress : Progress) (note written : Note) (hwf : progress.store.WellFormed)
    (hnodup : (id :: note.idsBelow).Nodup)
    (hnew : ∀ other ∈ note.idsBelow, ¬progress.store.IsNew other)
    (hok : (applyNote visibility id budget progress note).failure = none)
    (hwritten : written.children =
      (applyNote visibility id budget progress note).notes.children) :
    Settled visibility progress.store
      (applyNote visibility id budget progress note).progress.store
      [{ atom := id, budget, wanted := note, written }] := by
  cases budget with
  | zero =>
      obtain ⟨atom, progress₁, hstore, heq⟩ := applyNote_zero_ok hok
      obtain ⟨stored, -, -, -, hsynced⟩ := storeProperties_synced hwf hstore
      rw [heq]
      exact settled_of_synced hsynced fun hspreads => absurd hspreads.budget (Nat.lt_irrefl 0)
  | succ budget =>
      obtain ⟨atom, progress₁, hstore, hcases⟩ := applyNote_succ_ok hok
      obtain ⟨stored, hstored, rfl, -, hsynced⟩ := storeProperties_synced hwf hstore
      rcases hcases with ⟨hhidden, -, heq⟩ | ⟨hshows, slots, progress₂, hedit, hbelow, heq⟩
      · rw [heq]
        refine settled_of_synced hsynced fun hspreads => ?_
        obtain ⟨old, hold, hshows⟩ := hspreads.shown
        obtain rfl : stored = old := Except.ok.inj (hstored.symm.trans hold)
        simp [hshows] at hhidden
      · obtain ⟨items, created, hrewoven, rfl, hplaces⟩ :=
          editList_of_synced hwf hstored hsynced hedit
        obtain ⟨hroot, hbelowNodup⟩ := List.nodup_cons.mp hnodup
        have hnew₁ : ∀ other ∈ note.idsBelow, ¬progress₁.store.IsNew other :=
          fun other hother hisNew => hnew other hother (hsynced.isNew_iff.mp hisNew)
        have hapart := apart_of_rewoven hrewoven hplaces hbelowNodup hnew₁
        obtain ⟨hchildren, hids⟩ := applyChildren_settled visibility budget progress₂ items
          note.children hrewoven.edited.wellFormed hapart hbelow
        rw [heq] at hwritten ⊢
        have hedited : ListEdited visibility progress.store
            { atom := id, budget := budget + 1, wanted := note, written } items created
            progress₁ progress₂ := {
          wellFormed := hwf
          spreads := ⟨Nat.succ_pos budget, stored, hstored, hshows⟩
          notBelow := hroot
          synced := hsynced
          rewoven := hrewoven
          places := hplaces
          apart := hapart
          written := by rw [hwritten]; exact hids }
        refine hedited.settled ?_
        rw [below, hwritten]
        exact hchildren
termination_by sizeOf note
decreasing_by
  cases note
  simp only [Note.mk.sizeOf_spec]
  omega

/-- Children that name different atoms are settled one after the other, and carry
the identifiers of their atoms then. -/
theorem applyChildren_settled (visibility : Visibility) (budget : Nat) (progress : Progress)
    (items : List Woven) (children : List Note) (hwf : progress.store.WellFormed)
    (hapart : Apart progress.store items children)
    (hok : (applyChildren visibility budget progress (items.map Woven.slot) children).failure =
      none) :
    Settled visibility progress.store
        (applyChildren visibility budget progress (items.map Woven.slot) children).progress.store
        (childPositions budget items children
          (applyChildren visibility budget progress (items.map Woven.slot) children).notes) ∧
      (applyChildren visibility budget progress (items.map Woven.slot) children).notes.map Note.id =
        items.map fun item => some item.place.atom := by
  cases children with
  | nil =>
      obtain rfl := List.length_eq_zero_iff.mp hapart.sameLength
      rw [applyChildren]
      exact ⟨Settled.nil hwf, rfl⟩
  | cons child children =>
      cases items with
      | nil => cases hapart.sameLength
      | cons item items =>
          obtain ⟨id, first, rest, hid, hfirst, hrest, hfirstOk, hrestOk, heq⟩ :=
            applyChildren_cons_ok hok
          obtain rfl : item.place.atom = id := Option.some.inj hid
          subst hfirst hrest
          have hchild : (item, child) ∈ (item :: items).zip (child :: children) :=
            List.mem_cons_self
          have hsettled := applyNote_settled visibility item.place.atom
            (if item.isInserted then 0 else budget) progress child
            { (applyNote visibility item.place.atom (if item.isInserted then 0 else budget)
              progress child).notes with id := some item.place.atom } hwf
            (hapart.nodup _ hchild)
            (fun other hother => hapart.notNew _ hchild other (List.mem_cons_of_mem _ hother))
            hfirstOk rfl
          obtain ⟨hrestSettled, hids⟩ := applyChildren_settled visibility budget _ items children
            hsettled.wellFormed (hapart.tail hsettled) hrestOk
          rw [List.map_cons, heq]
          refine ⟨hsettled.cons hrestSettled ?_ ?_, ?_⟩
          · intro other hother root hroot hmem
            obtain ⟨x, hx, hids⟩ := exists_ids_eq hroot
            rw [hids] at hmem
            exact (List.pairwise_cons.mp hapart.pairwise).1 x hx other hother hmem
          · intro root hroot other hother
            obtain ⟨x, hx, hids⟩ := exists_ids_eq hroot
            rw [hids] at hother
            exact hapart.notNew x (List.mem_cons_of_mem _ hx) other hother
          · exact congrArg (some item.place.atom :: ·) hids
termination_by sizeOf children

end

/-! ## The store after an update -/

/-- The store after an update, position by position: those that are reached from
the root are settled, and everything else is as it was before. -/
structure Determined (visibility : Visibility) (before after : Store) (root : Position) : Prop where
  /-- The atom of a position has the properties that are set, and otherwise those it had. -/
  carries : ∀ pos, Reached visibility before root pos →
    ∃ old new, before.WasBefore visibility.defaults pos.atom old ∧
      after.atom pos.atom = .ok new ∧ Carries pos.wanted old new
  /-- The list of a position that may be edited and is shown holds the children. -/
  inLine : ∀ pos, Reached visibility before root pos → pos.Spreads visibility before →
    pos.InLine after
  otherLists : ∀ id,
    (∀ pos, Reached visibility before root pos → pos.Spreads visibility before → pos.atom ≠ id) →
    after.places id = before.places id
  otherRows : ∀ id, (∀ pos, Reached visibility before root pos → pos.atom ≠ id) →
    after.atomRow? id = before.atomRow? id

theorem Settled.determined {visibility : Visibility} {before after : Store} {root : Position}
    (h : Settled visibility before after [root]) : Determined visibility before after root where
  carries := h.carries root (List.mem_singleton_self root)
  inLine := h.inLine root (List.mem_singleton_self root)
  otherLists id hid := h.otherLists id (by simpa using hid)
  otherRows id hid := h.otherRows id (by simpa using hid)

end Position

namespace Update

open Store Position

/-- An update that succeeds, of a tree of notes that name different atoms, the
root not among them and none of them one that is yet to be drawn, determines the
store position by position. -/
theorem atRoot_determined {visibility : Visibility} {store : Store} {root : AtomId} {depth : Nat}
    {note : Note} {outcome : Outcome Note} (hwf : store.WellFormed)
    (hnodup : note.idsBelow.Nodup) (hroot : root ∉ note.idsBelow)
    (hfresh : ∀ id, store.supply.Upcoming id → id ∉ note.idsBelow)
    (hrun : atRoot visibility root depth note store = outcome) (hok : outcome.failure = none) :
    Determined visibility store outcome.progress.store
      { atom := root, budget := depth, wanted := note, written := outcome.notes } := by
  subst hrun
  obtain ⟨atom, hatom, heq⟩ := atRoot_ok hok
  obtain ⟨-, rfl⟩ := (atom?_eq_some hwf.atomIdsNodup).mp hatom
  rw [heq] at hok ⊢
  have hnew : ∀ id ∈ note.idsBelow, ¬store.IsNew id := fun id hid hisNew =>
    hfresh id hisNew.1 hid
  exact (applyNote_settled visibility atom.id depth { store } note _ hwf
    (List.nodup_cons.mpr ⟨hroot, hnodup⟩) hnew hok rfl).determined

/-- Two children that the sample has, one with a new child of its own. -/
def sampleTree : Note where
  children := [
    { id := some "b", children := [{ value := some "new" }] },
    { id := some "c", value := some "old" }]

/-- The sample after an update of two levels. -/
theorem sample_determined :
    sample.WellFormed ∧ sampleTree.idsBelow.Nodup ∧ "a" ∉ sampleTree.idsBelow ∧
    (∀ id, sample.supply.Upcoming id → id ∉ sampleTree.idsBelow) ∧
    (atRoot .everything "a" 2 sampleTree sample).failure = none ∧
    Determined .everything sample (atRoot .everything "a" 2 sampleTree sample).progress.store {
      atom := "a"
      budget := 2
      wanted := sampleTree
      written := (atRoot .everything "a" 2 sampleTree sample).notes } :=
  have hids : sampleTree.idsBelow = ["b", "c"] := rfl
  have hnodup : sampleTree.idsBelow.Nodup := by decide
  have hroot : "a" ∉ sampleTree.idsBelow := by decide
  have hfresh : ∀ id, sample.supply.Upcoming id → id ∉ sampleTree.idsBelow := by
    rintro id ⟨k, -, rfl⟩ hid
    have hlong : 32 ≤ (sample.supply.naming k).length := Supply.le_length_identifier k
    rw [hids, List.mem_pair] at hid
    rcases hid with hid | hid
    · rw [hid] at hlong
      exact absurd hlong (by decide)
    · rw [hid] at hlong
      exact absurd hlong (by decide)
  have hok : (atRoot .everything "a" 2 sampleTree sample).failure = none := by decide +kernel
  ⟨sample_wellFormed, hnodup, hroot, hfresh, hok,
    atRoot_determined sample_wellFormed hnodup hroot hfresh rfl hok⟩

end Update

end Outline
