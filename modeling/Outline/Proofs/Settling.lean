import Outline.Proofs.Positions

/-!
# Settled positions

Positions are settled once their atoms carry the properties of their notes and
their lists hold the children, with every other atom as it was.  Positions that
name different atoms are settled one after the other: none of them disturbs what
was settled before, nor which positions the later ones lead to.
-/

namespace Outline

namespace Store

/-- An identifier may be drawn for an atom to be created. -/
def IsNew (store : Store) (id : AtomId) : Prop :=
  store.supply.Upcoming id ∧ ¬store.HasAtom id

theorem SameLists.isNew_iff {a b : Store} {id : AtomId} (h : SameLists a b) :
    b.IsNew id ↔ a.IsNew id := by
  rw [IsNew, IsNew, h.supply, h.hasAtom_iff]

theorem Edited.isNew {a b : Store} {id owner : AtomId} {defaults : Defaults}
    {created : List AtomId} (h : Edited defaults owner created a b) (hid : b.IsNew id) :
    a.IsNew id :=
  ⟨h.supply.upcoming hid.1, fun hatom => hid.2 (h.hasAtom hatom)⟩

/-- What an atom is before an update: as it is stored or, if the update creates
it, as an atom with the defaults is read. -/
def WasBefore (before : Store) (defaults : Defaults) (id : AtomId) (old : Atom) : Prop :=
  before.atom id = .ok old ∨
    ¬before.HasAtom id ∧ ∃ time, (AtomRow.ofAtom (.ofDefaults id time defaults)).toAtom = .ok old

variable {a b : Store} {defaults : Defaults} {id : AtomId} {old : Atom}

theorem WasBefore.of_sameAt (h : b.WasBefore defaults id old) (hid : SameAt a b id) :
    a.WasBefore defaults id old := by
  rcases h with h | ⟨hno, h⟩
  · exact Or.inl (hid.atom_eq ▸ h)
  · exact Or.inr ⟨fun hatom => hno (hid.hasAtom_iff.mpr hatom), h⟩

/-- An atom that is in neither store is created in the same way in both. -/
theorem WasBefore.of_not_hasAtom (h : b.WasBefore defaults id old) (hb : ¬b.HasAtom id)
    (ha : ¬a.HasAtom id) : a.WasBefore defaults id old := by
  rcases h with h | ⟨-, h⟩
  · exact absurd (hasAtom_of_atom h) hb
  · exact Or.inr ⟨ha, h⟩

end Store

namespace Position

open Update Store

/-- The list of a position holds the children that are wanted, in order. -/
structure InLine (after : Store) (pos : Position) : Prop where
  sameLength : pos.written.children.length = pos.wanted.children.length
  named : ∀ (index : Nat) (child written : Note) (name : AtomId),
    pos.wanted.children[index]? = some child → pos.written.children[index]? = some written →
    child.id = some name → written.id = some name
  ids : pos.written.children.map Note.id =
    (after.places pos.atom).map fun place => some place.atom

/-- The positions that are reached from some roots are settled. -/
structure Settled (visibility : Visibility) (before after : Store) (roots : List Position) :
    Prop where
  wellFormed : after.WellFormed
  supply : before.supply.Precedes after.supply
  hasAtom : ∀ id, before.HasAtom id → after.HasAtom id
  /-- A position is one of a named atom or of a new one. -/
  within : ∀ root ∈ roots, ∀ pos, Reached visibility before root pos →
    pos.atom ∈ root.ids ∨ before.IsNew pos.atom
  /-- A position with a budget is one of a named atom. -/
  kept : ∀ root ∈ roots, ∀ pos, Reached visibility before root pos → 0 < pos.budget →
    pos.atom ∈ root.ids
  carries : ∀ root ∈ roots, ∀ pos, Reached visibility before root pos →
    ∃ old new, before.WasBefore visibility.defaults pos.atom old ∧
      after.atom pos.atom = .ok new ∧ Carries pos.wanted old new
  inLine : ∀ root ∈ roots, ∀ pos, Reached visibility before root pos →
    pos.Spreads visibility before → pos.InLine after
  otherLists : ∀ id,
    (∀ root ∈ roots, ∀ pos, Reached visibility before root pos →
      pos.Spreads visibility before → pos.atom ≠ id) →
    after.places id = before.places id
  otherRows : ∀ id,
    (∀ root ∈ roots, ∀ pos, Reached visibility before root pos → pos.atom ≠ id) →
    after.atomRow? id = before.atomRow? id

variable {visibility : Visibility} {a b c : Store} {root pos : Position} {roots : List Position}

theorem InLine.of_sameAt (hpos : SameAt a b pos.atom) (h : pos.InLine a) : pos.InLine b :=
  ⟨h.sameLength, h.named, by rw [hpos.places]; exact h.ids⟩

namespace Settled

theorem isNew (h : Settled visibility a b roots) {id : AtomId} (hid : b.IsNew id) : a.IsNew id :=
  ⟨h.supply.upcoming hid.1, fun hatom => hid.2 (h.hasAtom id hatom)⟩

/-- An atom that is at no position is as it was. -/
theorem sameAt (h : Settled visibility a b roots) {id : AtomId}
    (hid : ∀ root ∈ roots, ∀ pos, Reached visibility a root pos → pos.atom ≠ id) :
    SameAt a b id :=
  ⟨h.otherRows id hid, h.otherLists id fun root hroot pos hpos _ => hid root hroot pos hpos⟩

/-- The atoms of settled positions exist. -/
theorem hasAtom_of_reached (h : Settled visibility a b roots) (hroot : root ∈ roots)
    (hpos : Reached visibility a root pos) : b.HasAtom pos.atom := by
  obtain ⟨old, new, -, hnew, -⟩ := h.carries root hroot pos hpos
  exact hasAtom_of_atom hnew

/-- An atom that is named elsewhere is as it was. -/
theorem sameAt_of_apart (h : Settled visibility a b roots) {id : AtomId}
    (hapart : ∀ root ∈ roots, id ∉ root.ids) (hnew : ¬a.IsNew id) : SameAt a b id := by
  refine h.sameAt fun root hroot pos hpos heq => ?_
  rcases h.within root hroot pos hpos with hid | hid
  · exact hapart root hroot (heq ▸ hid)
  · exact hnew (heq ▸ hid)

theorem nil (h : a.WellFormed) : Settled visibility a a [] where
  wellFormed := h
  supply := Supply.Precedes.refl _
  hasAtom _ hid := hid
  within := by simp
  kept := by simp
  carries := by simp
  inLine := by simp
  otherLists _ _ := rfl
  otherRows _ _ := rfl

end Settled

/-- Settling one root and then others, where all of them name different atoms. -/
theorem Settled.cons (hroot : Settled visibility a b [root]) (hroots : Settled visibility b c roots)
    (hapart : ∀ id ∈ root.ids, ∀ other ∈ roots, id ∉ other.ids)
    (hnew : ∀ other ∈ roots, ∀ id ∈ other.ids, ¬a.IsNew id) :
    Settled visibility a c (root :: roots) := by
  -- The first root leaves the atoms of the others alone.
  have hothers : ∀ other ∈ roots, ∀ id ∈ other.ids, SameAt a b id := by
    intro other hother id hid
    refine hroot.sameAt_of_apart (fun r hr hidRoot => ?_) (hnew other hother id hid)
    rw [List.mem_singleton.mp hr] at hidRoot
    exact hapart id hidRoot other hother hid
  have hreached : ∀ other ∈ roots, ∀ pos,
      Reached visibility a other pos ↔ Reached visibility b other pos := fun other hother pos =>
    reached_iff_of_sameAt fun pos' hpos' hbudget =>
      hothers other hother _ (hroots.kept other hother pos' hpos' hbudget)
  have hspreads : ∀ other ∈ roots, ∀ pos, Reached visibility b other pos →
      (pos.Spreads visibility b ↔ pos.Spreads visibility a) := by
    intro other hother pos hpos
    by_cases hbudget : 0 < pos.budget
    · exact spreads_iff_of_sameAt
        (hothers other hother _ (hroots.kept other hother pos hpos hbudget))
    · exact ⟨fun h => absurd h.budget hbudget, fun h => absurd h.budget hbudget⟩
  have hself : root ∈ [root] := List.mem_singleton_self root
  -- The others leave the atoms below the first root alone.
  have hfirst : ∀ pos, Reached visibility a root pos → SameAt b c pos.atom := by
    intro pos hpos
    refine hroots.sameAt_of_apart (fun other hother hid => ?_)
      fun hno => hno.2 (hroot.hasAtom_of_reached hself hpos)
    rcases hroot.within root hself pos hpos with hnamed | hcreated
    · exact hapart _ hnamed other hother hid
    · exact hnew other hother _ hid hcreated
  constructor
  case wellFormed => exact hroots.wellFormed
  case supply => exact hroot.supply.trans hroots.supply
  case hasAtom => exact fun id hid => hroots.hasAtom id (hroot.hasAtom id hid)
  case within =>
    intro other hother pos hpos
    rcases List.mem_cons.mp hother with rfl | hother
    · exact hroot.within other hself pos hpos
    · rcases hroots.within other hother pos ((hreached other hother pos).mp hpos) with hid | hid
      · exact Or.inl hid
      · exact Or.inr (hroot.isNew hid)
  case kept =>
    intro other hother pos hpos hbudget
    rcases List.mem_cons.mp hother with rfl | hother
    · exact hroot.kept other hself pos hpos hbudget
    · exact hroots.kept other hother pos ((hreached other hother pos).mp hpos) hbudget
  case carries =>
    intro other hother pos hpos
    rcases List.mem_cons.mp hother with rfl | hother
    · obtain ⟨old, new, hold, hnewAtom, hcarries⟩ := hroot.carries other hself pos hpos
      exact ⟨old, new, hold, (hfirst pos hpos).atom_eq.trans hnewAtom, hcarries⟩
    · have hposB := (hreached other hother pos).mp hpos
      obtain ⟨old, new, hold, hnewAtom, hcarries⟩ := hroots.carries other hother pos hposB
      refine ⟨old, new, ?_, hnewAtom, hcarries⟩
      rcases hroots.within other hother pos hposB with hid | hid
      · exact hold.of_sameAt (hothers other hother _ hid)
      · exact hold.of_not_hasAtom hid.2 fun hatom => hid.2 (hroot.hasAtom _ hatom)
  case inLine =>
    intro other hother pos hpos hpread
    rcases List.mem_cons.mp hother with rfl | hother
    · exact (hroot.inLine other hself pos hpos hpread).of_sameAt (hfirst pos hpos)
    · have hposB := (hreached other hother pos).mp hpos
      exact hroots.inLine other hother pos hposB ((hspreads other hother pos hposB).mpr hpread)
  case otherLists =>
    intro id hid
    have hrest := hroots.otherLists id fun other hother pos hpos hpread =>
      hid other (List.mem_cons_of_mem _ hother) pos ((hreached other hother pos).mpr hpos)
        ((hspreads other hother pos hpos).mp hpread)
    refine hrest.trans (hroot.otherLists id fun other hother pos hpos => ?_)
    rw [List.mem_singleton.mp hother] at hpos
    exact hid root List.mem_cons_self pos hpos
  case otherRows =>
    intro id hid
    have hrest := hroots.otherRows id fun other hother pos hpos =>
      hid other (List.mem_cons_of_mem _ hother) pos ((hreached other hother pos).mpr hpos)
    refine hrest.trans (hroot.otherRows id fun other hother pos hpos => ?_)
    rw [List.mem_singleton.mp hother] at hpos
    exact hid root List.mem_cons_self pos hpos

/-! ## A position below which the update does not go -/

theorem settled_of_synced (h : Synced root.wanted root.atom a b)
    (hspreads : ¬root.Spreads visibility a) : Settled visibility a b [root] := by
  have hreached : ∀ other ∈ [root], ∀ pos, Reached visibility a other pos →
      other = root ∧ pos = root := by
    intro other hother pos hpos
    obtain rfl := List.mem_singleton.mp hother
    exact ⟨rfl, (reached_iff_of_not_spreads hspreads).mp hpos⟩
  constructor
  case wellFormed => exact h.wellFormed
  case supply => exact h.supply ▸ Supply.Precedes.refl _
  case hasAtom => exact fun id hid => h.hasAtom_iff.mpr hid
  case within =>
    intro other hother pos hpos
    obtain ⟨rfl, rfl⟩ := hreached other hother pos hpos
    exact Or.inl List.mem_cons_self
  case kept =>
    intro other hother pos hpos _
    obtain ⟨rfl, rfl⟩ := hreached other hother pos hpos
    exact List.mem_cons_self
  case carries =>
    intro other hother pos hpos
    obtain ⟨rfl, rfl⟩ := hreached other hother pos hpos
    obtain ⟨old, new, hold, hnew, hcarries⟩ := h.carries
    exact ⟨old, new, Or.inl hold, hnew, hcarries⟩
  case inLine =>
    intro other hother pos hpos hpread
    obtain ⟨rfl, rfl⟩ := hreached other hother pos hpos
    exact absurd hpread hspreads
  case otherLists => exact fun id _ => congrFun h.places id
  case otherRows =>
    intro id hid
    exact h.rows id (hid root List.mem_cons_self root Relation.ReflTransGen.refl).symm

end Position

end Outline
