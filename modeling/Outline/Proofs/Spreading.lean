import Outline.Proofs.Children

/-!
# From the children to the position above them

A position spreads in three steps: its properties are stored, its list is
edited, and its children are settled.  Editing the list disturbs none of the
positions below, so that the position is settled with them.
-/

namespace Outline

namespace Position

open Update Store

/-- The first two steps of a position that spreads: from `before` to `edited`,
where its list consists of `items`. -/
structure ListEdited (visibility : Visibility) (before : Store) (pos : Position)
    (items : List Woven) (created : List AtomId) (progress₁ progress₂ : Progress) : Prop where
  wellFormed : before.WellFormed
  spreads : pos.Spreads visibility before
  notBelow : pos.atom ∉ pos.wanted.idsBelow
  synced : Synced pos.wanted pos.atom before progress₁.store
  rewoven : Rewoven visibility.defaults pos.atom (before.places pos.atom)
    (pos.wanted.children.map Note.id) 0 0
    (keptPairs (before.places pos.atom) pos.wanted.children) items created progress₁ progress₂
  places : progress₂.store.places pos.atom = items.map Woven.place
  apart : Apart progress₂.store items pos.wanted.children
  written : pos.written.children.map Note.id = items.map fun item => some item.place.atom

variable {visibility : Visibility} {before after : Store} {pos : Position} {items : List Woven}
  {created : List AtomId} {progress₁ progress₂ : Progress} {id : AtomId}

namespace ListEdited

/-- Editing the list leaves other atoms that existed, or still do not, as they were. -/
theorem sameAt (h : ListEdited visibility before pos items created progress₁ progress₂)
    (hne : id ≠ pos.atom) (hcreated : id ∉ created) : SameAt before progress₂.store id := by
  have hplaces : progress₂.store.places id = before.places id := by
    rw [h.rewoven.edited.places id hne, h.synced.places]
  refine ⟨?_, hplaces⟩
  by_cases hid : before.HasAtom id
  · refine atomRow?_eq_of_places h.wellFormed h.rewoven.edited.wellFormed ?_ hplaces
    rw [h.rewoven.edited.properties id (h.synced.hasAtom_iff.mpr hid), h.synced.rows id hne]
  · have hno : ¬progress₂.store.HasAtom id := by
      rw [h.rewoven.edited.hasAtom_iff, h.synced.hasAtom_iff]
      exact fun hor => hor.elim hid hcreated
    rw [atomRow?_eq_none.mpr hid, atomRow?_eq_none.mpr hno]

/-- A child whose place is kept is paired, and one that is inserted is not. -/
theorem childBudget_eq (h : ListEdited visibility before pos items created progress₁ progress₂)
    {index : Nat} {item : Woven} (hitem : items[index]? = some item) :
    pos.childBudget before index = if item.isInserted then 0 else pos.budget - 1 := by
  rw [childBudget]
  rcases h.rewoven.weave.getElem?_items hitem with ⟨hinserted, hunpaired, -⟩ | ⟨hkept, -, k, hk, -⟩
  · rw [Nat.zero_add] at hunpaired
    have hno : index ∉ (keptPairs (before.places pos.atom) pos.wanted.children).map Prod.snd := by
      intro hmem
      obtain ⟨pair, hpair, heq⟩ := List.mem_map.mp hmem
      exact hunpaired pair hpair heq
    rw [if_neg hno, if_pos hinserted]
  · rw [Nat.zero_add] at hk
    rw [if_pos (List.mem_map_of_mem hk), if_neg (by simp [hkept])]

/-- The positions below are those of the children. -/
theorem child_iff (h : ListEdited visibility before pos items created progress₁ progress₂)
    {child : Position} : pos.Child visibility before child ↔ child ∈ pos.below items := by
  rw [mem_childPositions]
  have hids : ∀ index : Nat, pos.written.children[index]?.map Note.id =
      items[index]?.map fun item => some item.place.atom := by
    intro index
    rw [← List.getElem?_map, h.written, List.getElem?_map]
  constructor
  · rintro (@⟨index, note, written, id, -, hchild, hwritten, hid⟩)
    have hatom := hids index
    rw [hwritten, Option.map_some, hid, eq_comm, Option.map_eq_some_iff] at hatom
    obtain ⟨item, hitem, heq⟩ := hatom
    refine ⟨index, item, note, written, hitem, hchild, hwritten, ?_⟩
    rw [h.childBudget_eq hitem, Option.some.inj heq]
  · rintro ⟨index, item, note, written, hitem, hchild, hwritten, rfl⟩
    have hatom := hids index
    rw [hwritten, hitem] at hatom
    rw [← h.childBudget_eq hitem]
    exact Child.mk h.spreads hchild hwritten (Option.some.inj hatom)

theorem hasAtom (h : ListEdited visibility before pos items created progress₁ progress₂) :
    before.HasAtom pos.atom := by
  obtain ⟨atom, hatom, -⟩ := h.spreads.shown
  exact hasAtom_of_atom hatom

/-- A place of the list holds an atom that is named below, or one that is new. -/
theorem item_within (h : ListEdited visibility before pos items created progress₁ progress₂)
    {index : Nat} {item : Woven} {child : Note} (hitem : items[index]? = some item)
    (hchild : pos.wanted.children[index]? = some child) :
    child.id = some item.place.atom ∨ before.IsNew item.place.atom := by
  rcases named_or_drawn h.rewoven hitem hchild with hname | ⟨-, hdrawn⟩
  · exact Or.inl hname
  · exact Or.inr (h.synced.isNew_iff.mp hdrawn)

/-- What the children name is named below, or is new. -/
theorem ids_within (h : ListEdited visibility before pos items created progress₁ progress₂)
    {child : Position} (hchild : child ∈ pos.below items) (hid : id ∈ child.ids) :
    id ∈ pos.wanted.idsBelow ∨ before.IsNew id := by
  obtain ⟨index, item, note, written, hitem, hnote, -, rfl⟩ := mem_childPositions.mp hchild
  rcases List.mem_cons.mp hid with rfl | hid
  · rcases h.item_within hitem hnote with hname | hnew
    · exact Or.inl (Note.mem_idsBelow_of_child hnote (Or.inl hname))
    · exact Or.inr hnew
  · exact Or.inl (Note.mem_idsBelow_of_child hnote (Or.inr hid))

theorem not_mem_ids (h : ListEdited visibility before pos items created progress₁ progress₂)
    {child : Position} (hchild : child ∈ pos.below items) : pos.atom ∉ child.ids := by
  intro hid
  rcases h.ids_within hchild hid with hbelow | hnew
  · exact h.notBelow hbelow
  · exact hnew.2 h.hasAtom

/-- What a child with a budget names is named below. -/
theorem mem_idsBelow_of_budget
    (h : ListEdited visibility before pos items created progress₁ progress₂) {child : Position}
    (hchild : child ∈ pos.below items) (hbudget : 0 < child.budget) (hid : id ∈ child.ids) :
    id ∈ pos.wanted.idsBelow := by
  obtain ⟨index, item, note, written, hitem, hnote, -, rfl⟩ := mem_childPositions.mp hchild
  refine Note.mem_idsBelow_of_child hnote ?_
  rcases List.mem_cons.mp hid with rfl | hid
  · rcases h.rewoven.weave.getElem?_items hitem with ⟨hinserted, -⟩ | ⟨-, hname, -⟩
    · simp [hinserted] at hbudget
    · rw [Nat.zero_add, List.getElem?_map, hnote, Option.map_some] at hname
      exact Or.inl (Option.some.inj hname)
  · exact Or.inr hid

/-- A child with a budget, and what is named below it, is as it was before. -/
theorem sameAt_of_budget (h : ListEdited visibility before pos items created progress₁ progress₂)
    {child : Position} (hchild : child ∈ pos.below items) (hbudget : 0 < child.budget)
    (hid : id ∈ child.ids) :
    SameAt before progress₂.store id := by
  refine h.sameAt (fun heq => h.not_mem_ids hchild (heq ▸ hid)) fun hcreated => ?_
  obtain ⟨k, item, note, written, hitem, hnote, -, rfl⟩ := mem_childPositions.mp hchild
  obtain ⟨item', hitem', hatom⟩ := h.rewoven.mem_items id hcreated
  obtain ⟨l, hl⟩ := List.mem_iff_getElem?.mp hitem'
  subst hatom
  obtain rfl := h.apart.index_eq hitem hnote hl hid
  obtain rfl := Option.some.inj (hitem.symm.trans hl)
  -- The place of a child with a budget was in the list before, and its atom existed.
  rcases h.rewoven.weave.getElem?_items hitem with ⟨hinserted, -⟩ | ⟨-, -, index, -, hold⟩
  · simp [hinserted] at hbudget
  · refine h.rewoven.edited.created_new.2 _ hcreated (h.synced.hasAtom_iff.mpr ?_)
    exact h.wellFormed.hasAtom_of_mem_places _ (List.mem_of_getElem? hold)

/-- The positions reached from one that spreads. -/
theorem reached_iff (h : ListEdited visibility before pos items created progress₁ progress₂)
    (hchildren : Settled visibility progress₂.store after (pos.below items))
    (other : Position) :
    Reached visibility before pos other ↔ other = pos ∨
      ∃ child ∈ pos.below items, Reached visibility progress₂.store child other := by
  have hbelow : ∀ child ∈ pos.below items, Reached visibility before child other ↔
        Reached visibility progress₂.store child other := fun child hchild =>
    reached_iff_of_sameAt fun other hother hbudget =>
      h.sameAt_of_budget hchild (budget_pos_of_reached hother hbudget)
        (hchildren.kept child hchild other hother hbudget)
  constructor
  · intro hother
    rcases Relation.ReflTransGen.cases_head hother with rfl | ⟨child, hchild, hother⟩
    · exact Or.inl rfl
    · have hmem := h.child_iff.mp hchild
      exact Or.inr ⟨child, hmem, (hbelow child hmem).mp hother⟩
  · rintro (rfl | ⟨child, hmem, hother⟩)
    · exact Relation.ReflTransGen.refl
    · exact ((hbelow child hmem).mpr hother).head (h.child_iff.mpr hmem)

/-- Whether a position below spreads can be seen before and after the list is
edited. -/
theorem spreads_iff (h : ListEdited visibility before pos items created progress₁ progress₂)
    (hchildren : Settled visibility progress₂.store after (pos.below items))
    {child other : Position}
    (hchild : child ∈ pos.below items) (hother : Reached visibility progress₂.store child other) :
    other.Spreads visibility progress₂.store ↔ other.Spreads visibility before := by
  by_cases hbudget : 0 < other.budget
  · exact spreads_iff_of_sameAt (h.sameAt_of_budget hchild (budget_pos_of_reached hother hbudget)
      (hchildren.kept child hchild other hother hbudget))
  · exact ⟨fun hs => absurd hs.budget hbudget, fun hs => absurd hs.budget hbudget⟩

/-- The atom of the position carries its properties once its list is edited. -/
theorem carries (h : ListEdited visibility before pos items created progress₁ progress₂) :
    ∃ old new, before.atom pos.atom = .ok old ∧ progress₂.store.atom pos.atom = .ok new ∧
      Carries pos.wanted old new := by
  obtain ⟨old, new, hold, hnew, hcarries⟩ := h.synced.carries
  have hrow := h.rewoven.edited.properties pos.atom (h.synced.hasAtom_iff.mpr h.hasAtom)
  exact ⟨old, _, hold, atom_eq_ok_of_withoutNotes h.rewoven.edited.wellFormed hrow hnew,
    { hcarries with }⟩

/-- What an atom below was before. -/
theorem wasBefore (h : ListEdited visibility before pos items created progress₁ progress₂)
    {old : Atom} (hne : id ≠ pos.atom)
    (hold : progress₂.store.WasBefore visibility.defaults id old) :
    before.WasBefore visibility.defaults id old := by
  by_cases hcreated : id ∈ created
  swap
  · exact hold.of_sameAt (h.sameAt hne hcreated)
  have hno : ¬before.HasAtom id := fun hid =>
    h.rewoven.edited.created_new.2 id hcreated (h.synced.hasAtom_iff.mpr hid)
  rcases hold with hatom | ⟨hgone, -⟩
  swap
  · exact absurd (h.rewoven.edited.hasAtom_iff.mpr (Or.inr hcreated)) hgone
  -- The row of a new atom is the one it was created with, since its list is empty.
  obtain ⟨time, hnew⟩ := h.rewoven.edited.new id hcreated
  obtain ⟨row, hrow, hread⟩ := atom_eq_ok_iff_atomRow?.mp hatom
  rw [hrow, Option.map_some, Option.some.injEq] at hnew
  have hpointer := h.rewoven.edited.wellFormed.notes_atomRow? hrow
  rw [h.rewoven.edited.places id hne, h.synced.places, places_eq_nil hno] at hpointer
  refine Or.inr ⟨hno, time, ?_⟩
  rw [← hnew, ← hread]
  congr 1
  cases row
  simp_all [AtomRow.withoutNotes]

/-- The list of the position holds the children. -/
theorem inLine (h : ListEdited visibility before pos items created progress₁ progress₂) :
    pos.InLine progress₂.store := by
  have hlength := congrArg List.length h.written
  rw [List.length_map, List.length_map, h.apart.sameLength] at hlength
  refine ⟨hlength, ?_, ?_⟩
  · intro index child written name hchild hwritten hname
    have hitem : items[index]?.map (fun item => some item.place.atom) = some written.id := by
      rw [← List.getElem?_map, ← h.written, List.getElem?_map, hwritten, Option.map_some]
    obtain ⟨item, hitem, heq⟩ := Option.map_eq_some_iff.mp hitem
    rw [← heq]
    refine congrArg some (h.rewoven.weave.atom_eq_of_named hitem ?_)
    rw [Nat.zero_add, List.getElem?_map, hchild, Option.map_some, hname]
  · rw [h.written, h.places, List.map_map]
    rfl

/-- Every atom that was created is the one of a child. -/
theorem exists_child_of_created
    (h : ListEdited visibility before pos items created progress₁ progress₂) (hid : id ∈ created) :
    ∃ child ∈ pos.below items, child.atom = id := by
  obtain ⟨item, hitem, rfl⟩ := h.rewoven.mem_items id hid
  obtain ⟨index, hindex⟩ := List.mem_iff_getElem?.mp hitem
  obtain ⟨hlt, -⟩ := List.getElem?_eq_some_iff.mp hindex
  have hchild : index < pos.wanted.children.length := h.apart.sameLength ▸ hlt
  have hwritten : index < pos.written.children.length := h.inLine.sameLength ▸ hchild
  exact ⟨_, mem_childPositions.mpr ⟨index, item, _, _, hindex, List.getElem?_eq_getElem hchild,
    List.getElem?_eq_getElem hwritten, rfl⟩, rfl⟩

theorem isNew (h : ListEdited visibility before pos items created progress₁ progress₂)
    (hid : progress₂.store.IsNew id) : before.IsNew id :=
  h.synced.isNew_iff.mp (h.rewoven.edited.isNew hid)

/-- The atom of the position is none of those below it. -/
theorem atom_ne_of_reached
    (h : ListEdited visibility before pos items created progress₁ progress₂)
    (hchildren : Settled visibility progress₂.store after (pos.below items))
    {child other : Position} (hchild : child ∈ pos.below items)
    (hother : Reached visibility progress₂.store child other) : other.atom ≠ pos.atom := by
  intro heq
  rcases hchildren.within child hchild other hother with hid | hnew
  · exact h.not_mem_ids hchild (heq ▸ hid)
  · exact (h.isNew hnew).2 (heq ▸ h.hasAtom)

/-- Once the children are settled, so is the position above them. -/
theorem settled (h : ListEdited visibility before pos items created progress₁ progress₂)
    (hchildren : Settled visibility progress₂.store after (pos.below items)) :
    Settled visibility before after [pos] := by
  have hreached := h.reached_iff hchildren
  have hedited := h.rewoven.edited
  -- The children leave the atom of the position alone.
  have hself : SameAt progress₂.store after pos.atom :=
    hchildren.sameAt fun child hchild other hother => h.atom_ne_of_reached hchildren hchild hother
  have hroot : pos ∈ [pos] := List.mem_singleton_self pos
  constructor
  case wellFormed => exact hchildren.wellFormed
  case supply => exact h.synced.supply ▸ hedited.supply.trans hchildren.supply
  case hasAtom =>
    exact fun id hid => hchildren.hasAtom id (hedited.hasAtom (h.synced.hasAtom_iff.mpr hid))
  case within =>
    intro root hroot other hother
    obtain rfl := List.mem_singleton.mp hroot
    rcases (hreached other).mp hother with rfl | ⟨child, hchild, hother⟩
    · exact Or.inl List.mem_cons_self
    · rcases hchildren.within child hchild other hother with hid | hnew
      · exact (h.ids_within hchild hid).imp_left (List.mem_cons_of_mem _)
      · exact Or.inr (h.isNew hnew)
  case kept =>
    intro root hroot other hother hbudget
    obtain rfl := List.mem_singleton.mp hroot
    rcases (hreached other).mp hother with rfl | ⟨child, hchild, hother⟩
    · exact List.mem_cons_self
    · exact List.mem_cons_of_mem _ (h.mem_idsBelow_of_budget hchild
        (budget_pos_of_reached hother hbudget) (hchildren.kept child hchild other hother hbudget))
  case carries =>
    intro root hroot other hother
    obtain rfl := List.mem_singleton.mp hroot
    rcases (hreached other).mp hother with rfl | ⟨child, hchild, hother⟩
    · obtain ⟨old, new, hold, hnew, hcarries⟩ := h.carries
      exact ⟨old, new, Or.inl hold, hself.atom_eq.trans hnew, hcarries⟩
    · obtain ⟨old, new, hold, hnew, hcarries⟩ := hchildren.carries child hchild other hother
      have hne := h.atom_ne_of_reached hchildren hchild hother
      exact ⟨old, new, h.wasBefore hne hold, hnew, hcarries⟩
  case inLine =>
    intro root hroot other hother hspreads
    obtain rfl := List.mem_singleton.mp hroot
    rcases (hreached other).mp hother with rfl | ⟨child, hchild, hother⟩
    · exact h.inLine.of_sameAt hself
    · exact hchildren.inLine child hchild other hother
        ((h.spreads_iff hchildren hchild hother).mpr hspreads)
  case otherLists =>
    intro id hid
    have hne : id ≠ pos.atom := fun heq =>
      hid pos hroot pos Relation.ReflTransGen.refl h.spreads heq.symm
    rw [← h.synced.places, ← hedited.places id hne]
    refine hchildren.otherLists id fun child hchild other hother hspreads => ?_
    have hpos := (hreached other).mpr (Or.inr ⟨child, hchild, hother⟩)
    exact hid pos hroot other hpos ((h.spreads_iff hchildren hchild hother).mp hspreads)
  case otherRows =>
    intro id hid
    have hne : id ≠ pos.atom := fun heq =>
      hid pos hroot pos Relation.ReflTransGen.refl heq.symm
    have hbelow : ∀ child ∈ pos.below items, ∀ other,
        Reached visibility progress₂.store child other → other.atom ≠ id :=
      fun child hchild other hother =>
        hid pos hroot other ((hreached other).mpr (Or.inr ⟨child, hchild, hother⟩))
    refine (hchildren.otherRows id hbelow).trans (h.sameAt hne fun hmem => ?_).row
    obtain ⟨child, hchild, heq⟩ := h.exists_child_of_created hmem
    exact hbelow child hchild child Relation.ReflTransGen.refl heq

end ListEdited

end Position

end Outline
