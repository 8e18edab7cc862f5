import Outline.Proofs.Settling

/-!
# The children of an edited list

Once the list of an atom is edited, each child of its note has an atom: the one
that it names, or one that was drawn for it.  Children that name different atoms
have different ones.
-/

namespace Outline

namespace Position

open Update Store

variable {pos : Position} {visibility : Visibility} {items : List Woven}

/-- The positions of the children of an edited list, where those whose places
are kept have the given budget. -/
def childPositions (budget : Nat) (items : List Woven) (children written : List Note) :
    List Position :=
  (items.zip (children.zip written)).map fun x => {
    atom := x.1.place.atom
    budget := if x.1.isInserted then 0 else budget
    wanted := x.2.1
    written := x.2.2 }

/-- The positions below one whose list consists of `items`. -/
abbrev below (pos : Position) (items : List Woven) : List Position :=
  childPositions (pos.budget - 1) items pos.wanted.children pos.written.children

theorem mem_childPositions {budget : Nat} {items : List Woven} {children written : List Note} :
    pos ∈ childPositions budget items children written ↔
      ∃ (index : Nat) (item : Woven) (child note : Note), items[index]? = some item ∧
        children[index]? = some child ∧ written[index]? = some note ∧
        pos = {
          atom := item.place.atom
          budget := if item.isInserted then 0 else budget
          wanted := child
          written := note } := by
  rw [childPositions, List.mem_map]
  constructor
  · rintro ⟨⟨item, child, note⟩, hx, rfl⟩
    obtain ⟨index, hindex⟩ := List.mem_iff_getElem?.mp hx
    obtain ⟨hitem, hrest⟩ := List.getElem?_zip_eq_some.mp hindex
    obtain ⟨hchild, hnote⟩ := List.getElem?_zip_eq_some.mp hrest
    exact ⟨index, item, child, note, hitem, hchild, hnote, rfl⟩
  · rintro ⟨index, item, child, note, hitem, hchild, hnote, rfl⟩
    refine ⟨(item, child, note), List.mem_iff_getElem?.mpr ⟨index, ?_⟩, rfl⟩
    exact List.getElem?_zip_eq_some.mpr ⟨hitem, List.getElem?_zip_eq_some.mpr ⟨hchild, hnote⟩⟩

/-- The children of an edited list name different atoms, all of which exist or
are not to be drawn. -/
structure Apart (store : Store) (items : List Woven) (children : List Note) : Prop where
  sameLength : items.length = children.length
  nodup : ∀ x ∈ items.zip children, (x.1.place.atom :: x.2.idsBelow).Nodup
  pairwise : (items.zip children).Pairwise fun x y =>
    ∀ id ∈ x.1.place.atom :: x.2.idsBelow, id ∉ y.1.place.atom :: y.2.idsBelow
  notNew : ∀ x ∈ items.zip children, ∀ id ∈ x.1.place.atom :: x.2.idsBelow, ¬store.IsNew id

/-- Children at different places name different atoms. -/
theorem Apart.index_eq {store : Store} {children : List Note} (h : Apart store items children)
    {k l : Nat} {item item' : Woven} {child : Note} (hk : items[k]? = some item)
    (hchild : children[k]? = some child) (hl : items[l]? = some item')
    (hid : item'.place.atom ∈ item.place.atom :: child.idsBelow) : k = l := by
  obtain ⟨child', hchild'⟩ : ∃ child', children[l]? = some child' := by
    obtain ⟨hlt, -⟩ := List.getElem?_eq_some_iff.mp hl
    exact ⟨_, List.getElem?_eq_getElem (h.sameLength ▸ hlt)⟩
  obtain ⟨hk, hx⟩ := List.getElem?_eq_some_iff.mp
    (List.getElem?_zip_eq_some.mpr ⟨hk, hchild⟩ : (items.zip children)[k]? = some (item, child))
  obtain ⟨hl, hy⟩ := List.getElem?_eq_some_iff.mp
    (List.getElem?_zip_eq_some.mpr ⟨hl, hchild'⟩ : (items.zip children)[l]? = some (item', child'))
  have hpairwise := List.pairwise_iff_getElem.mp h.pairwise
  have hself : item'.place.atom ∈ item'.place.atom :: child'.idsBelow := List.mem_cons_self
  rcases Nat.lt_trichotomy k l with hlt | heq | hlt
  · have hno := hpairwise k l hk hl hlt
    rw [hx, hy] at hno
    exact absurd hself (hno _ hid)
  · exact heq
  · have hno := hpairwise l k hl hk hlt
    rw [hx, hy] at hno
    exact absurd hid (hno _ hself)

/-! ## Children that name different atoms -/

variable {root : AtomId} {note : Note} {olds : List Place} {defaults : Defaults}
  {pairs : List (Nat × Nat)} {created : List AtomId} {progress₁ progress₂ : Progress}

/-- The atom at the place of a child is named in its note, or was drawn for it. -/
theorem named_or_drawn
    (h : Rewoven defaults root olds (note.children.map Note.id) 0 0 pairs items created
      progress₁ progress₂) {index : Nat} {item : Woven} {child : Note}
    (hitem : items[index]? = some item) (hchild : note.children[index]? = some child) :
    child.id = some item.place.atom ∨ child.id = none ∧ progress₁.store.IsNew item.place.atom := by
  have hwanted : (note.children.map Note.id)[0 + index]? = some child.id := by
    rw [Nat.zero_add, List.getElem?_map, hchild, Option.map_some]
  rcases h.weave.getElem?_items hitem with ⟨-, -, id, hid, hnew⟩ | ⟨-, hid, -⟩
  · obtain rfl := Option.some.inj (hwanted.symm.trans hid)
    cases hname : child.id with
    | none => exact Or.inr ⟨rfl, hnew.unnamed hname⟩
    | some name => exact Or.inl (congrArg some (hnew.named name hname)).symm
  · exact Or.inl (Option.some.inj (hwanted.symm.trans hid))

/-- What a child names with its place is named in its note, or was drawn for it. -/
theorem mem_named_or_drawn
    (h : Rewoven defaults root olds (note.children.map Note.id) 0 0 pairs items created
      progress₁ progress₂) {index : Nat} {item : Woven} {child : Note} {id : AtomId}
    (hitem : items[index]? = some item) (hchild : note.children[index]? = some child)
    (hid : id ∈ item.place.atom :: child.idsBelow) :
    id ∈ child.id.toList ++ child.idsBelow ∨
      child.id = none ∧ id = item.place.atom ∧ progress₁.store.IsNew id := by
  rcases named_or_drawn h hitem hchild with hname | ⟨hnone, hdrawn⟩
  · exact Or.inl (by rwa [hname])
  · rcases List.mem_cons.mp hid with rfl | hid
    · exact Or.inr ⟨hnone, rfl, hdrawn⟩
    · exact Or.inl (List.mem_append_right _ hid)

/-- Children that name different atoms still do once their list is edited. -/
theorem apart_of_rewoven
    (h : Rewoven defaults root olds (note.children.map Note.id) 0 0 pairs items created
      progress₁ progress₂)
    (hplaces : progress₂.store.places root = items.map Woven.place)
    (hnodup : note.idsBelow.Nodup) (hnew : ∀ id ∈ note.idsBelow, ¬progress₁.store.IsNew id) :
    Apart progress₂.store items note.children := by
  rw [Note.idsBelow_eq, Note.idsAmong_eq_flatMap, List.nodup_flatMap] at hnodup
  obtain ⟨heach, hpairwise⟩ := hnodup
  have hnamed : ∀ child ∈ note.children, ∀ id ∈ child.id.toList ++ child.idsBelow,
      ¬progress₁.store.IsNew id := by
    intro child hchild id hid
    refine hnew id ?_
    rw [Note.idsBelow_eq, Note.idsAmong_eq_flatMap]
    exact List.mem_flatMap.mpr ⟨child, hchild, hid⟩
  have hlength := h.weave.length_items
  rw [Nat.add_zero, List.length_map] at hlength
  constructor
  case sameLength => exact hlength
  case nodup =>
    rintro ⟨item, child⟩ hx
    obtain ⟨index, hindex⟩ := List.mem_iff_getElem?.mp hx
    obtain ⟨hitem, hchild⟩ := List.getElem?_zip_eq_some.mp hindex
    have hmem := List.mem_of_getElem? hchild
    have hnodup := heach child hmem
    rcases named_or_drawn h hitem hchild with hname | ⟨-, hdrawn⟩
    · rwa [hname] at hnodup
    · refine List.nodup_cons.mpr ⟨fun hid => ?_, hnodup.of_append_right⟩
      exact hnamed child hmem _ (List.mem_append_right _ hid) hdrawn
  case pairwise =>
    refine List.pairwise_iff_getElem.mpr fun k l hk hl hlt id hidk hidl => ?_
    obtain ⟨hitemk, hchildk⟩ := List.getElem?_zip_eq_some.mp (List.getElem?_eq_getElem hk)
    obtain ⟨hiteml, hchildl⟩ := List.getElem?_zip_eq_some.mp (List.getElem?_eq_getElem hl)
    have hmemk := List.mem_of_getElem? hchildk
    have hmeml := List.mem_of_getElem? hchildl
    rcases mem_named_or_drawn h hitemk hchildk hidk with hnamek | ⟨-, heqk, hdrawnk⟩
    · rcases mem_named_or_drawn h hiteml hchildl hidl with hnamel | ⟨-, -, hdrawnl⟩
      · obtain ⟨hk', hxk⟩ := List.getElem?_eq_some_iff.mp hchildk
        obtain ⟨hl', hxl⟩ := List.getElem?_eq_some_iff.mp hchildl
        have hdisjoint := List.pairwise_iff_getElem.mp hpairwise k l hk' hl' hlt
        rw [hxk, hxl] at hdisjoint
        exact hdisjoint hnamek hnamel
      · exact hnamed _ hmemk _ hnamek hdrawnl
    · rcases mem_named_or_drawn h hiteml hchildl hidl with hnamel | ⟨hnonel, heql, -⟩
      · exact hnamed _ hmeml _ hnamel hdrawnk
      · refine h.apart k l _ _ hlt hitemk hiteml ?_ (heqk.symm.trans heql)
        rw [Nat.zero_add, List.getElem?_map, hchildl, Option.map_some, hnonel]
  case notNew =>
    intro ⟨item, child⟩ hx id hid hisNew
    obtain ⟨hitem, hchild⟩ := List.of_mem_zip hx
    rcases List.mem_cons.mp hid with rfl | hid
    · refine hisNew.2 (h.edited.wellFormed.hasAtom_of_mem_places root ?_)
      rw [hplaces]
      exact List.mem_map_of_mem hitem
    · exact hnamed child hchild id (List.mem_append_right _ hid) (h.edited.isNew hisNew)

/-! ## One child after the other -/

/-- The position of a child names what the child names with its place. -/
theorem exists_ids_eq {budget : Nat} {children written : List Note}
    (h : pos ∈ childPositions budget items children written) :
    ∃ x ∈ items.zip children, pos.ids = x.1.place.atom :: x.2.idsBelow := by
  obtain ⟨index, item, child, note, hitem, hchild, -, rfl⟩ := mem_childPositions.mp h
  exact ⟨(item, child),
    List.mem_of_getElem? (List.getElem?_zip_eq_some.mpr ⟨hitem, hchild⟩), rfl⟩

/-- The children after the first one, once the first one is settled. -/
theorem Apart.tail {a b : Store} {item : Woven} {child : Note} {children : List Note}
    {roots : List Position} (h : Apart a (item :: items) (child :: children))
    (hsettled : Settled visibility a b roots) : Apart b items children where
  sameLength := Nat.succ.inj h.sameLength
  nodup := (List.forall_mem_cons.mp h.nodup).2
  pairwise := (List.pairwise_cons.mp h.pairwise).2
  notNew x hx id hid hnew :=
    h.notNew x (List.mem_cons_of_mem _ hx) id hid (hsettled.isNew hnew)

end Position

end Outline
