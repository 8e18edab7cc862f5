import Outline.Proofs.Splicing

/-!
# Lists of atoms as plain lists

Seen through the places of its lists, a well-formed store is a family of plain
lists.  Inserting and deleting at a position act on this family as insertion
and deletion act on one list of it, fail exactly where those would be out of
range or an atom is missing, and then leave the store as it is.
-/

namespace Outline

namespace Store

variable {before after store : Store} {owner : AtomId}

/-- The cells after a change to one list: those of the list as it is now, and
those of the other lists. -/
theorem Relisted.hasPlace_iff {places : List Place} (h : Relisted before after owner places)
    {place : Place} :
    after.HasPlace place ↔ place ∈ places ∨ ∃ id, id ≠ owner ∧ place ∈ before.places id := by
  rw [h.wellFormed.hasPlace_iff]
  constructor
  · rintro ⟨id, hplace⟩
    by_cases hid : id = owner
    · rw [hid, h.places_self] at hplace
      exact Or.inl hplace
    · rw [h.places_of_ne hid] at hplace
      exact Or.inr ⟨id, hid, hplace⟩
  · rintro (hplace | ⟨id, hid, hplace⟩)
    · exact ⟨owner, by rwa [h.places_self]⟩
    · exact ⟨id, by rwa [h.places_of_ne hid]⟩

/-- Putting a place into a list adds its cell and keeps what is in the others. -/
theorem Relisted.hasPlace_insert {xs ys : List Place} {new : Place}
    (h : Relisted before after owner (xs ++ new :: ys)) (hbefore : before.WellFormed)
    (hsplit : before.places owner = xs ++ ys) {place : Place} :
    after.HasPlace place ↔ before.HasPlace place ∨ place = new := by
  rw [h.hasPlace_iff, hbefore.hasPlace_iff]
  constructor
  · rintro (hplace | ⟨id, -, hplace⟩)
    · rw [List.mem_append, List.mem_cons] at hplace
      rcases hplace with hplace | rfl | hplace
      · exact Or.inl ⟨owner, by simp [hsplit, hplace]⟩
      · exact Or.inr rfl
      · exact Or.inl ⟨owner, by simp [hsplit, hplace]⟩
    · exact Or.inl ⟨id, hplace⟩
  · rintro (⟨id, hplace⟩ | rfl)
    · by_cases hid : id = owner
      · rw [hid, hsplit, List.mem_append] at hplace
        exact Or.inl (by rcases hplace with hplace | hplace <;> simp [hplace])
      · exact Or.inr ⟨id, hid, hplace⟩
    · exact Or.inl (by simp)

/-- Taking a place out of a list removes its cell and keeps what is in the others. -/
theorem Relisted.hasPlace_erase {xs ys : List Place} {old : Place}
    (h : Relisted before after owner (xs ++ ys)) (hbefore : before.WellFormed)
    (hsplit : before.places owner = xs ++ old :: ys) (place : Place) :
    after.HasPlace place ↔ before.HasPlace place ∧ place.cell ≠ old.cell := by
  have hold : old ∈ before.places owner := by simp [hsplit]
  have hnodup := hbefore.arranged.distinct (some owner)
  rw [Segments.ofLists_some, hsplit, List.map_append, List.map_cons] at hnodup
  rw [h.hasPlace_iff, hbefore.hasPlace_iff]
  constructor
  · rintro (hplace | ⟨id, hid, hplace⟩)
    · refine ⟨⟨owner, ?_⟩, ?_⟩
      · rw [hsplit]
        rcases List.mem_append.mp hplace with hplace | hplace <;> simp [hplace]
      · intro heq
        have hmem := List.mem_map_of_mem (f := Place.cell) hplace
        rw [heq, List.map_append] at hmem
        exact (List.nodup_cons.mp (List.nodup_middle.mp hnodup)).1 hmem
    · exact ⟨⟨id, hplace⟩, fun heq => hid (hbefore.places_apart hplace hold heq).1⟩
  · rintro ⟨⟨id, hplace⟩, hne⟩
    by_cases hid : id = owner
    · rw [hid, hsplit, List.mem_append, List.mem_cons] at hplace
      rcases hplace with hplace | rfl | hplace
      · exact Or.inl (by simp [hplace])
      · exact absurd rfl hne
      · exact Or.inl (by simp [hplace])
    · exact Or.inr ⟨id, hid, hplace⟩

/-- Inserting an atom into a list and deleting a position from one are insertion
and deletion on plain lists.  They fail exactly if the owner does not exist,
the position is out of range or the child does not exist, in this order, and
then change nothing at all.  Otherwise they succeed: one place comes or goes,
with its cell, and every other cell keeps its identifier and its atom, every
other list its places, and every atom its properties. -/
theorem insertAt_deleteAt_refine_plain_lists (hwf : store.WellFormed)
    (hfresh : ¬store.HasCell store.supply.nextIdentifier) (owner child : AtomId)
    (position : Nat) :
    (¬store.HasAtom owner →
      insertAt owner position child store = .error (.noAtom owner) store ∧
      deleteAt owner position store = .error (.noAtom owner) store) ∧
    (store.HasAtom owner → (store.places owner).length < position →
      insertAt owner position child store =
        .error (.outOfRange position (store.places owner).length) store) ∧
    (store.HasAtom owner → position ≤ (store.places owner).length → ¬store.HasAtom child →
      insertAt owner position child store = .error (.noAtom child) store) ∧
    (store.HasAtom owner → position ≤ (store.places owner).length → store.HasAtom child →
      ∃ cell store', insertAt owner position child store = .ok cell store' ∧
        store'.StoresCell cell ∧ cell.place = ⟨store.supply.nextIdentifier, child⟩ ∧
        Relisted store store' owner
          ((store.places owner).insertIdx position ⟨store.supply.nextIdentifier, child⟩) ∧
        (∀ place, store'.HasPlace place ↔
          store.HasPlace place ∨ place = ⟨store.supply.nextIdentifier, child⟩) ∧
        (∀ id, id ≠ owner → store'.atomRow? id = store.atomRow? id) ∧
        store'.supply = store.supply.afterDraw) ∧
    (store.HasAtom owner → (store.places owner).length ≤ position →
      deleteAt owner position store =
        .error (.outOfRange position (store.places owner).length) store) ∧
    (store.HasAtom owner → ∀ place, (store.places owner)[position]? = some place →
      ∃ store', deleteAt owner position store = .ok place.atom store' ∧
        Relisted store store' owner ((store.places owner).eraseIdx position) ∧
        (∀ place', store'.HasPlace place' ↔
          store.HasPlace place' ∧ place'.cell ≠ place.cell) ∧
        ¬store'.HasCell place.cell ∧
        (∀ id, id ≠ owner → store'.atomRow? id = store.atomRow? id) ∧
        store'.supply = store.supply) := by
  refine ⟨fun howner => ⟨insertAt_noOwner howner, deleteAt_noOwner howner⟩,
    insertAt_outOfRange hwf, insertAt_noChild hwf, ?_, deleteAt_outOfRange hwf, ?_⟩
  · intro howner hposition hchild
    have hsplit : store.places owner =
        (store.places owner).take position ++ (store.places owner).drop position :=
      (List.take_append_drop _ _).symm
    have hlength : ((store.places owner).take position).length = position :=
      List.length_take_of_le hposition
    obtain ⟨store', hrun, hrelisted, hsupply⟩ := insertAt_ok hwf howner hchild hfresh hsplit
    have hplaces := hrelisted.places_self
    have hinsert := insertIdx_length_append ((store.places owner).take position)
      ((store.places owner).drop position) ⟨store.supply.nextIdentifier, child⟩
    rw [← hsplit, hlength] at hinsert
    rw [hlength] at hrun
    refine ⟨_, store', hrun, ?_, rfl, hinsert ▸ hrelisted,
      fun place => hrelisted.hasPlace_insert hwf hsplit,
      fun id hid => hrelisted.atomRow?_of_ne hwf hid, hsupply⟩
    apply storesCell_iff.mpr
    apply hrelisted.wellFormed.arranged.linked (some owner)
    rw [Segments.ofLists_some, hplaces, linkedTo_append]
    simp
  · intro howner place hplace
    obtain ⟨hposition, rfl⟩ := List.getElem?_eq_some_iff.mp hplace
    have hsplit : store.places owner = (store.places owner).take position ++
        (store.places owner)[position] :: (store.places owner).drop (position + 1) := by
      rw [List.getElem_cons_drop, List.take_append_drop]
    have hlength : ((store.places owner).take position).length = position :=
      List.length_take_of_le (Nat.le_of_lt hposition)
    obtain ⟨store', hrun, hrelisted, hsupply⟩ := deleteAt_ok hwf howner hsplit
    rw [hlength] at hrun
    have herase := List.eraseIdx_eq_take_drop_succ (store.places owner) position
    have hgone := hrelisted.hasPlace_erase hwf hsplit
    refine ⟨store', hrun, herase ▸ hrelisted, hgone, ?_,
      fun id hid => hrelisted.atomRow?_of_ne hwf hid, hsupply⟩
    rw [hrelisted.wellFormed.hasCell_iff]
    rintro ⟨place', hplace', hcell⟩
    exact ((hgone place').mp hplace').2 hcell

/-- A store of three atoms, one of which has a list. -/
def sample : Store where
  atoms := [
    .ofAtom { id := "a", notes := some "p" }, .ofAtom { id := "b" }, .ofAtom { id := "c" }]
  cells := [
    .ofCell { id := "p", first := "b", rest := some "q" }, .ofCell { id := "q", first := "c" }]

/-- The lists of the sample. -/
def sampleLists (id : AtomId) : List Place :=
  if id = "a" then [⟨"p", "b"⟩, ⟨"q", "c"⟩] else []

theorem sample_arranged : sample.Arranged (.ofLists sampleLists) := by
  have hother : ∀ id, id ≠ "a" → sampleLists id = [] := fun id hid => by simp [sampleLists, hid]
  have hcases : ∀ key place, place ∈ Segments.ofLists sampleLists key →
      key = some "a" ∧ (place = ⟨"p", "b"⟩ ∨ place = ⟨"q", "c"⟩) := by
    intro key place hplace
    cases key with
    | none => simp at hplace
    | some id =>
        by_cases hid : id = "a"
        · subst hid
          exact ⟨rfl, by simpa [sampleLists] using hplace⟩
        · simp [hother id hid] at hplace
  constructor
  case readable =>
    intro row hrow
    simp only [sample, List.mem_cons, List.not_mem_nil, or_false] at hrow
    rcases hrow with rfl | rfl | rfl <;> exact ⟨_, rfl⟩
  case atomIds => decide
  case cellIds => decide
  case heads =>
    intro row hrow id hid
    simp only [sample, List.mem_cons, List.not_mem_nil, or_false] at hrow
    rcases hrow with rfl | rfl | rfl <;> obtain rfl := Datum.text.inj hid <;> rfl
  case owned =>
    intro id hne
    by_cases hid : id = "a"
    · exact hid ▸ ⟨_, List.mem_cons_self, rfl⟩
    · exact absurd (hother id hid) hne
  case linked =>
    intro key cell hcell
    obtain ⟨rfl, -⟩ := hcases key _ (place_mem_of_mem_linkedTo hcell)
    revert cell
    decide
  case covered =>
    intro row hrow
    refine ⟨some "a", ?_⟩
    revert row
    decide
  case distinct =>
    intro key
    by_cases hkey : key = some "a"
    · subst hkey
      decide
    · have hnil : Segments.ofLists sampleLists key = [] :=
        List.eq_nil_iff_forall_not_mem.mpr fun place hplace => hkey (hcases key place hplace).1
      simp [hnil]
  case disjoint =>
    intro key key' place place' hplace hplace' _
    rw [(hcases key place hplace).1, (hcases key' place' hplace').1]
  case held =>
    intro key place hplace
    rcases (hcases key place hplace).2 with rfl | rfl
    · exact ⟨_, List.mem_cons_of_mem _ List.mem_cons_self, rfl⟩
    · exact ⟨_, List.mem_cons_of_mem _ (List.mem_cons_of_mem _ List.mem_cons_self), rfl⟩

theorem sample_wellFormed : sample.WellFormed :=
  sample_arranged.wellFormed rfl

/-- Putting an atom between the two places of a list, and taking the first of
them out. -/
theorem sample_refines_plain_lists :
    sample.WellFormed ∧ ¬sample.HasCell sample.supply.nextIdentifier ∧
    (∃ cell store', insertAt "a" 1 "a" sample = .ok cell store' ∧
      store'.places "a" = [⟨"p", "b"⟩, ⟨sample.supply.nextIdentifier, "a"⟩, ⟨"q", "c"⟩]) ∧
    ∃ store', deleteAt "a" 0 sample = .ok "b" store' ∧ store'.places "a" = [⟨"q", "c"⟩] := by
  have hfresh : ¬sample.HasCell sample.supply.nextIdentifier := by decide +kernel
  have hplaces : sample.places "a" = [⟨"p", "b"⟩, ⟨"q", "c"⟩] := sample_arranged.places_eq "a"
  have hatom : sample.HasAtom "a" := by decide
  refine ⟨sample_wellFormed, hfresh, ?_, ?_⟩
  · obtain ⟨-, -, -, hinsert, -⟩ :=
      insertAt_deleteAt_refine_plain_lists sample_wellFormed hfresh "a" "a" 1
    obtain ⟨cell, store', hrun, -, -, hrelisted, -⟩ := hinsert hatom (by simp [hplaces]) hatom
    exact ⟨cell, store', hrun, by rw [hrelisted.places_self, hplaces]; rfl⟩
  · obtain ⟨-, -, -, -, -, hdelete⟩ :=
      insertAt_deleteAt_refine_plain_lists sample_wellFormed hfresh "a" "a" 0
    obtain ⟨store', hrun, hrelisted, -⟩ := hdelete hatom ⟨"p", "b"⟩ (by rw [hplaces]; rfl)
    exact ⟨store', hrun, by rw [hrelisted.places_self, hplaces]; rfl⟩

end Store

end Outline
