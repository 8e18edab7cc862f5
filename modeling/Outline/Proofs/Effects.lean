import Outline.Proofs.AtomRows

/-!
# What editing a list changes

Editing the list of one atom may create atoms and changes no other list and no
property of the atoms that were there before.  `Edited` collects these effects,
so that the effects of several edits add up.
-/

namespace Outline

/-! ## Identifiers yet to be drawn -/

namespace Supply

/-- The identifier is still to be drawn, sooner or later. -/
def Upcoming (supply : Supply) (id : String) : Prop :=
  ∃ k, supply.drawn < k ∧ supply.naming k = id

/-- The second supply is the first one after some draws. -/
structure Precedes (before after : Supply) : Prop where
  naming : after.naming = before.naming
  drawn : before.drawn ≤ after.drawn

variable {a b c : Supply} {id : String}

theorem Precedes.refl (a : Supply) : Precedes a a :=
  ⟨rfl, Nat.le_refl _⟩

theorem Precedes.trans (hab : Precedes a b) (hbc : Precedes b c) : Precedes a c :=
  ⟨hbc.naming.trans hab.naming, Nat.le_trans hab.drawn hbc.drawn⟩

theorem precedes_afterDraw (a : Supply) : Precedes a a.afterDraw :=
  ⟨rfl, Nat.le_succ _⟩

theorem precedes_afterReading (a : Supply) : Precedes a a.afterReading :=
  ⟨rfl, Nat.le_refl _⟩

theorem upcoming_nextIdentifier (a : Supply) : a.Upcoming a.nextIdentifier :=
  ⟨a.drawn + 1, Nat.lt_succ_self _, rfl⟩

theorem Precedes.upcoming (h : Precedes a b) (hid : b.Upcoming id) : a.Upcoming id := by
  obtain ⟨k, hk, rfl⟩ := hid
  exact ⟨k, Nat.lt_of_le_of_lt h.drawn hk, by rw [h.naming]⟩

theorem le_length_hex16 (n : Nat) : 16 ≤ (hex16 n).length := by
  simp only [hex16, List.length_append, List.length_replicate]
  omega

/-- The identifiers drawn by default are long. -/
theorem le_length_identifier (k : Nat) : 32 ≤ (identifier k).length := by
  have hfront := le_length_hex16 (k * 0x9e3779b97f4a7c15 % Number.unsignedLimit)
  have hback := le_length_hex16 k
  simp only [identifier, String.length_ofList, List.length_append]
  omega

end Supply

namespace Store

/-! ## Effects that add up -/

/-- The effects of editing the list of `owner`, where new atoms get `defaults`:
the atoms created, in order, come behind those that were there. -/
structure Edited (defaults : Defaults) (owner : AtomId) (created : List AtomId)
    (before after : Store) : Prop where
  wellFormed : after.WellFormed
  atomIds : after.atoms.map AtomRow.id = before.atoms.map AtomRow.id ++ created.map .text
  properties : ∀ id, before.HasAtom id →
    (after.atomRow? id).map AtomRow.withoutNotes = (before.atomRow? id).map AtomRow.withoutNotes
  new : ∀ id ∈ created, ∃ time,
    (after.atomRow? id).map AtomRow.withoutNotes = some (.ofAtom (.ofDefaults id time defaults))
  places : ∀ id, id ≠ owner → after.places id = before.places id
  supply : before.supply.Precedes after.supply

namespace Edited

variable {defaults : Defaults} {owner id : AtomId} {created created' : List AtomId}
  {a b c before after : Store}

theorem hasAtom_iff (h : Edited defaults owner created before after) :
    after.HasAtom id ↔ before.HasAtom id ∨ id ∈ created := by
  rw [hasAtom_iff_mem, hasAtom_iff_mem, h.atomIds, List.mem_append]
  simp

theorem hasAtom (h : Edited defaults owner created before after) (hid : before.HasAtom id) :
    after.HasAtom id :=
  h.hasAtom_iff.mpr (Or.inl hid)

/-- The atoms created were not there before, and are created once each. -/
theorem created_new (h : Edited defaults owner created before after) :
    created.Nodup ∧ ∀ id ∈ created, ¬before.HasAtom id := by
  have hnodup := h.wellFormed.atomIdsNodup
  rw [h.atomIds, List.nodup_append'] at hnodup
  obtain ⟨-, hcreated, hdisjoint⟩ := hnodup
  refine ⟨hcreated.of_map _, fun id hid hatom => ?_⟩
  exact hdisjoint (hasAtom_iff_mem.mp hatom) (List.mem_map_of_mem hid)

theorem refl (h : before.WellFormed) : Edited defaults owner [] before before where
  wellFormed := h
  atomIds := by simp
  properties _ _ := rfl
  new := by simp
  places _ _ := rfl
  supply := Supply.Precedes.refl _

theorem trans (hab : Edited defaults owner created a b) (hbc : Edited defaults owner created' b c) :
    Edited defaults owner (created ++ created') a c where
  wellFormed := hbc.wellFormed
  atomIds := by rw [hbc.atomIds, hab.atomIds, List.map_append, List.append_assoc]
  properties id hid := (hbc.properties id (hab.hasAtom hid)).trans (hab.properties id hid)
  new := by
    intro id hid
    rcases List.mem_append.mp hid with hid | hid
    · obtain ⟨time, hrow⟩ := hab.new id hid
      exact ⟨time, (hbc.properties id (hab.hasAtom_iff.mpr (Or.inr hid))).trans hrow⟩
    · exact hbc.new id hid
  places id hid := (hbc.places id hid).trans (hab.places id hid)
  supply := hab.supply.trans hbc.supply

end Edited

variable {store store' : Store} {owner child : AtomId} {defaults : Defaults}

theorem places_createAtom {id : Option AtomId} {atom : Atom} (h : store.WellFormed)
    (hrun : createAtom id defaults store = .ok atom store') : store'.places = store.places := by
  obtain ⟨hatom, hvalid, hnew, rfl⟩ := createAtom_eq_ok hrun
  have hnotes : atom.notes = none := by rw [hatom]; rfl
  exact h.places_withAtom hnew hvalid hnotes

/-- Creating an atom edits any list, in that it changes none. -/
theorem edited_createAtom {id : Option AtomId} {atom : Atom} (h : store.WellFormed)
    (hrun : createAtom id defaults store = .ok atom store') :
    Edited defaults owner [atom.id] store store' := by
  have hplaces := places_createAtom h hrun
  obtain ⟨hatom, hvalid, hnew, rfl⟩ := createAtom_eq_ok hrun
  have hnotes : atom.notes = none := by rw [hatom]; rfl
  constructor
  case wellFormed =>
    exact ((h.arranged.withAtom hnew hvalid hnotes).wellFormed rfl).of_rows rfl rfl
  case atomIds => simp [withAtom, AtomRow.ofAtom]
  case properties =>
    intro other hother
    exact congrArg _ (atomRow?_withAtom_of_hasAtom hother)
  case new =>
    intro other hother
    rw [List.mem_singleton.mp hother]
    refine ⟨store.supply.time, ?_⟩
    have hrow : { store.withAtom atom with
        supply := (if id.isSome then store.supply else store.supply.afterDraw).afterReading
        }.atomRow? atom.id = some (.ofAtom atom) := atomRow?_withAtom_self hnew
    rw [hrow, hatom]
    rfl
  case places => exact fun other _ => congrFun hplaces other
  case supply =>
    refine Supply.Precedes.trans ?_ (Supply.precedes_afterReading _)
    split
    · exact Supply.Precedes.refl _
    · exact Supply.precedes_afterDraw _

theorem Relisted.edited {places : List Place} (h : Relisted store store' owner places)
    (hsupply : store.supply.Precedes store'.supply) : Edited defaults owner [] store store' where
  wellFormed := h.wellFormed
  atomIds := by simpa using h.relinked.atomIds
  properties id _ := h.relinked.withoutNotes_atomRow? id
  new := by simp
  places id hid := h.places_of_ne hid
  supply := hsupply

/-- An insertion that succeeds had an owner, a position, a child and a new
identifier. -/
theorem insertAt_eq_ok {position : Nat} {cell : Cell} (h : store.WellFormed)
    (hrun : insertAt owner position child store = .ok cell store') :
    store.HasAtom owner ∧ position ≤ (store.places owner).length ∧ store.HasAtom child ∧
      ¬store.HasCell store.supply.nextIdentifier := by
  by_cases howner : store.HasAtom owner
  swap
  · simp [insertAt_noOwner howner] at hrun
  by_cases hposition : position ≤ (store.places owner).length
  swap
  · simp [insertAt_outOfRange h howner (Nat.lt_of_not_le hposition)] at hrun
  by_cases hchild : store.HasAtom child
  swap
  · simp [insertAt_noChild h howner hposition hchild] at hrun
  refine ⟨howner, hposition, hchild, fun hfresh => ?_⟩
  simp [insertAt_taken h howner hposition hchild hfresh] at hrun

end Store

end Outline
