import Mathlib.Data.List.Perm.Basic
import Outline.Proofs.Children

/-!
# Notes that are written back

An update gives its notes back with the identifiers that they got.  It fills in what
was missing and changes nothing else, and what it fills in was drawn for it: so notes
that name different atoms still do when they come back.
-/

namespace Outline

/-- The second note is the first one with identifiers filled in, here and below. -/
inductive Note.Filled : Note → Note → Prop
  | mk {note written : Note} : (∀ name, note.id = some name → written.id = some name) →
      written = { note with id := written.id, children := written.children } →
      List.Forall₂ Filled note.children written.children → Filled note written

namespace Note

variable {note written : Note} {children : List Note}

mutual

theorem Filled.refl (note : Note) : Filled note note := by
  cases note with
  | mk own value byname weight sharability created children =>
      exact .mk (fun _ h => h) rfl (forall₂_filled_refl children)

theorem forall₂_filled_refl (children : List Note) : List.Forall₂ Filled children children := by
  cases children with
  | nil => exact .nil
  | cons child children => exact .cons (Filled.refl child) (forall₂_filled_refl children)

end

mutual

theorem Filled.trans {a b c : Note} (hab : Filled a b) (hbc : Filled b c) : Filled a c := by
  obtain ⟨hid, hfields, hchildren⟩ := hab
  obtain ⟨hid', hfields', hchildren'⟩ := hbc
  refine .mk (fun name h => hid' name (hid name h)) ?_ (forall₂_filled_trans hchildren hchildren')
  rw [hfields', hfields]
termination_by sizeOf a
decreasing_by
  cases a
  simp only [Note.mk.sizeOf_spec]
  omega

theorem forall₂_filled_trans {as bs cs : List Note} (hab : List.Forall₂ Filled as bs)
    (hbc : List.Forall₂ Filled bs cs) : List.Forall₂ Filled as cs := by
  cases hab with
  | nil => exact hbc
  | cons hfirst hrest =>
      cases hbc with
      | cons hfirst' hrest' =>
          exact .cons (hfirst.trans hfirst') (forall₂_filled_trans hrest hrest')
termination_by sizeOf as

end

/-- The identifiers among some notes are their own and those below them. -/
theorem idsAmong_perm (children : List Note) :
    (idsAmong children).Perm (children.filterMap Note.id ++ children.flatMap idsBelow) := by
  rw [idsAmong_eq_flatMap, List.filterMap_eq_flatMap_toList]
  exact (List.flatMap_append_perm children _ _).symm

end Note

namespace Store

/-- Nothing is lost from a store, and its supply goes on. -/
structure Grows (before after : Store) : Prop where
  wellFormed : after.WellFormed
  supply : before.supply.Precedes after.supply
  hasAtom : ∀ id, before.HasAtom id → after.HasAtom id

variable {a b c : Store} {id : AtomId} {xs ys xs' ys' : List AtomId}

theorem Grows.trans (hab : Grows a b) (hbc : Grows b c) : Grows a c :=
  ⟨hbc.wellFormed, hab.supply.trans hbc.supply, fun id hid => hbc.hasAtom id (hab.hasAtom id hid)⟩

theorem Grows.isNew (h : Grows a b) (hid : b.IsNew id) : a.IsNew id :=
  ⟨h.supply.upcoming hid.1, fun hatom => hid.2 (h.hasAtom id hatom)⟩

theorem SameLists.grows (h : SameLists a b) : Grows a b :=
  ⟨h.wellFormed, h.supply ▸ Supply.Precedes.refl _, fun _ hid => h.hasAtom_iff.mpr hid⟩

theorem Edited.grows {defaults : Defaults} {owner : AtomId} {created : List AtomId}
    (h : Edited defaults owner created a b) : Grows a b :=
  ⟨h.wellFormed, h.supply, fun _ => h.hasAtom⟩

/-- To the identifiers `xs` others were added that are new atoms, each once. -/
def Refilled (before after : Store) (xs ys : List AtomId) : Prop :=
  ∃ drawn : List AtomId, ys.Perm (xs ++ drawn) ∧ drawn.Nodup ∧
    ∀ id ∈ drawn, before.IsNew id ∧ after.HasAtom id

theorem Refilled.refl (a b : Store) (xs : List AtomId) : Refilled a b xs xs :=
  ⟨[], by simp, List.nodup_nil, by simp⟩

/-- What is drawn later is different from what was drawn before. -/
theorem Refilled.append (hab : Refilled a b xs ys) (hbc : Refilled b c xs' ys') (hgrows : Grows a b)
    (hgrows' : Grows b c) : Refilled a c (xs ++ xs') (ys ++ ys') := by
  obtain ⟨drawn, hperm, hnodup, hdrawn⟩ := hab
  obtain ⟨drawn', hperm', hnodup', hdrawn'⟩ := hbc
  refine ⟨drawn ++ drawn', ?_, ?_, ?_⟩
  · have hmiddle : ((xs ++ drawn) ++ (xs' ++ drawn')).Perm ((xs ++ xs') ++ (drawn ++ drawn')) := by
      rw [List.perm_iff_count]
      intro id
      simp only [List.count_append]
      omega
    exact (hperm.append hperm').trans hmiddle
  · -- What was drawn first is an atom by the time the rest is drawn.
    refine hnodup.append hnodup' fun id hid hid' => ?_
    exact (hdrawn' id hid').1.2 (hdrawn id hid).2
  · intro id hid
    rcases List.mem_append.mp hid with hid | hid
    · exact ⟨(hdrawn id hid).1, hgrows'.hasAtom id (hdrawn id hid).2⟩
    · exact ⟨hgrows.isNew (hdrawn' id hid).1, (hdrawn' id hid).2⟩

theorem Refilled.of_grows (hab : Grows a b) (h : Refilled b c xs ys) : Refilled a c xs ys := by
  obtain ⟨drawn, hperm, hnodup, hdrawn⟩ := h
  exact ⟨drawn, hperm, hnodup, fun id hid => (hdrawn id hid).imp_left hab.isNew⟩

theorem Refilled.of_perm (h : Refilled a b xs ys) (hxs : xs.Perm xs') (hys : ys.Perm ys') :
    Refilled a b xs' ys' := by
  obtain ⟨drawn, hperm, hnodup, hdrawn⟩ := h
  exact ⟨drawn, hys.symm.trans (hperm.trans (hxs.append_right drawn)), hnodup, hdrawn⟩

end Store

namespace Update

open Store

/-! ## The identifiers of an edited list -/

/-- Where each atom is the one asked for, or one asked for by none, the latter are
those that were added. -/
theorem exists_drawn {asked : List (Option AtomId × AtomId)}
    (hcases : ∀ x ∈ asked, x.1 = some x.2 ∨ x.1 = none)
    (hapart : asked.Pairwise fun x y => y.1 = none → x.2 ≠ y.2) :
    ∃ drawn : List AtomId, (asked.map Prod.snd).Perm (asked.filterMap Prod.fst ++ drawn) ∧
      drawn.Nodup ∧ ∀ id ∈ drawn, (none, id) ∈ asked := by
  induction asked with
  | nil => exact ⟨[], .nil, List.nodup_nil, by simp⟩
  | cons x asked ih =>
      obtain ⟨hfirst, hrest⟩ := List.forall_mem_cons.mp hcases
      obtain ⟨hdiffer, hapart⟩ := List.pairwise_cons.mp hapart
      obtain ⟨drawn, hperm, hnodup, hdrawn⟩ := ih hrest hapart
      obtain ⟨want, id⟩ := x
      rcases hfirst with hname | hnone
      · obtain rfl : want = some id := hname
        refine ⟨drawn, ?_, hnodup, fun other hother => List.mem_cons_of_mem _ (hdrawn other hother)⟩
        exact hperm.cons id
      · obtain rfl : want = none := hnone
        refine ⟨id :: drawn, ?_, ?_, ?_⟩
        · exact (hperm.cons id).trans List.perm_middle.symm
        · refine List.nodup_cons.mpr ⟨fun hid => ?_, hnodup⟩
          exact hdiffer _ (hdrawn id hid) rfl rfl
        · intro other hother
          rcases List.mem_cons.mp hother with rfl | hother
          · exact List.mem_cons_self
          · exact List.mem_cons_of_mem _ (hdrawn other hother)

variable {visibility : Visibility} {progress₁ progress₂ : Progress} {root : AtomId} {note : Note}
  {olds : List Place} {defaults : Defaults} {pairs : List (Nat × Nat)} {items : List Woven}
  {created : List AtomId}

/-- Editing a list fills in identifiers for the children that named none. -/
theorem refilled_of_rewoven
    (h : Rewoven defaults root olds (note.children.map Note.id) 0 0 pairs items created
      progress₁ progress₂)
    (hplaces : progress₂.store.places root = items.map Woven.place) :
    Refilled progress₁.store progress₂.store (note.children.filterMap Note.id)
      (items.map fun item => item.place.atom) := by
  have hlength := h.weave.length_items
  rw [Nat.add_zero, List.length_map] at hlength
  let asked := (note.children.map Note.id).zip (items.map fun item => item.place.atom)
  have hasked : ∀ (index : Nat) (x : Option AtomId × AtomId), asked[index]? = some x →
      ∃ item child, items[index]? = some item ∧ item.place.atom = x.2 ∧
        note.children[index]? = some child ∧ child.id = x.1 := by
    intro index x hx
    obtain ⟨hwant, hatom⟩ := List.getElem?_zip_eq_some.mp hx
    rw [List.getElem?_map, Option.map_eq_some_iff] at hatom hwant
    obtain ⟨item, hitem, hatom⟩ := hatom
    obtain ⟨child, hchild, hwant⟩ := hwant
    exact ⟨item, child, hitem, hatom, hchild, hwant⟩
  have hcases : ∀ x ∈ asked, x.1 = some x.2 ∨ x.1 = none ∧ progress₁.store.IsNew x.2 := by
    intro x hx
    obtain ⟨index, hindex⟩ := List.mem_iff_getElem?.mp hx
    obtain ⟨item, child, hitem, hatom, hchild, hwant⟩ := hasked index x hindex
    rw [← hatom, ← hwant]
    exact Position.named_or_drawn h hitem hchild
  have hapart : asked.Pairwise fun x y => y.1 = none → x.2 ≠ y.2 := by
    refine List.pairwise_iff_getElem.mpr fun k l hk hl hlt hnone => ?_
    obtain ⟨item, -, hitem, hatom, -⟩ := hasked k _ (List.getElem?_eq_getElem hk)
    obtain ⟨item', child, hitem', hatom', hchild, hwant⟩ :=
      hasked l _ (List.getElem?_eq_getElem hl)
    rw [← hatom, ← hatom']
    refine h.apart k l item item' hlt hitem hitem' ?_
    rw [Nat.zero_add, List.getElem?_map, hchild, Option.map_some, hwant, hnone]
  obtain ⟨drawn, hperm, hnodup, hdrawn⟩ :=
    exists_drawn (fun x hx => (hcases x hx).imp_right And.left) hapart
  have hsnd : asked.map Prod.snd = items.map fun item => item.place.atom :=
    List.map_snd_zip (Nat.le_of_eq (by rw [List.length_map, List.length_map, hlength]))
  have hfst : asked.filterMap Prod.fst = note.children.filterMap Note.id := by
    have hmap : asked.map Prod.fst = note.children.map Note.id :=
      List.map_fst_zip (Nat.le_of_eq (by rw [List.length_map, List.length_map, hlength]))
    rw [← Function.id_comp Prod.fst, ← List.filterMap_map, hmap, List.filterMap_map]
    rfl
  rw [hsnd, hfst] at hperm
  refine ⟨drawn, hperm, hnodup, fun id hid => ⟨?_, ?_⟩⟩
  · rcases hcases _ (hdrawn id hid) with hname | ⟨-, hnew⟩
    · cases hname
    · exact hnew
  · obtain ⟨index, hindex⟩ := List.mem_iff_getElem?.mp (hdrawn id hid)
    obtain ⟨item, -, hitem, rfl, -⟩ := hasked index _ hindex
    refine h.edited.wellFormed.hasAtom_of_mem_places root ?_
    rw [hplaces]
    exact List.mem_map_of_mem (List.mem_of_getElem? hitem)

/-- The atoms of an edited list are those that the children name. -/
theorem forall₂_named {before : Store}
    (h : Weave before olds (note.children.map Note.id) 0 0 pairs items) :
    List.Forall₂ (fun item child => ∀ name, child.id = some name → item.place.atom = name) items
      note.children := by
  have hlength := h.length_items
  rw [Nat.add_zero, List.length_map] at hlength
  refine List.forall₂_iff_get.mpr ⟨hlength, fun index hitem hchild name hname => ?_⟩
  refine h.atom_eq_of_named (List.getElem?_eq_getElem hitem) ?_
  rw [Nat.zero_add, List.getElem?_map, List.getElem?_eq_getElem hchild, Option.map_some]
  exact congrArg some hname

/-! ## Whole updates -/

mutual

/-- A level that succeeds gives its note back with identifiers filled in below it. -/
theorem applyNote_written (visibility : Visibility) (id : AtomId) (depth : Nat)
    (progress : Progress) (note : Note) (hwf : progress.store.WellFormed)
    (hok : (applyNote visibility id depth progress note).failure = none) :
    note.Filled (applyNote visibility id depth progress note).notes ∧
      Grows progress.store (applyNote visibility id depth progress note).progress.store ∧
      Refilled progress.store (applyNote visibility id depth progress note).progress.store
        note.idsBelow (applyNote visibility id depth progress note).notes.idsBelow := by
  cases depth with
  | zero =>
      obtain ⟨atom, progress₁, hstore, heq⟩ := applyNote_zero_ok hok
      obtain ⟨-, -, -, -, hsynced⟩ := storeProperties_synced hwf hstore
      rw [heq]
      exact ⟨.refl note, hsynced.toSameLists.grows, Refilled.refl _ _ _⟩
  | succ depth =>
      obtain ⟨atom, progress₁, hstore, hcases⟩ := applyNote_succ_ok hok
      obtain ⟨stored, hstored, rfl, -, hsynced⟩ := storeProperties_synced hwf hstore
      have hfirst := hsynced.toSameLists.grows
      rcases hcases with ⟨-, -, heq⟩ | ⟨-, slots, progress₂, hedit, hbelow, heq⟩
      · rw [heq]
        exact ⟨.refl note, hfirst, Refilled.refl _ _ _⟩
      · obtain ⟨items, created, hrewoven, rfl, hplaces⟩ :=
          editList_of_synced hwf hstored hsynced hedit
        obtain ⟨hfilled, hids, hrest, hrefilled⟩ := applyChildren_written visibility depth
          progress₂ items note.children hrewoven.edited.wellFormed
          (forall₂_named hrewoven.weave) hbelow
        have hsecond := hrewoven.edited.grows
        rw [heq]
        refine ⟨.mk (fun _ hname => hname) rfl hfilled, hfirst.trans (hsecond.trans hrest), ?_⟩
        have hlist := refilled_of_rewoven hrewoven hplaces
        have hboth := (hlist.append hrefilled hsecond hrest).of_grows hfirst
        have hown : items.map (fun item => item.place.atom) = (applyChildren visibility depth
            progress₂ (items.map Woven.slot) note.children).notes.filterMap Note.id := by
          rw [← Function.id_comp Note.id, ← List.filterMap_map, hids, List.filterMap_map]
          exact (congrFun List.filterMap_eq_map items).symm
        rw [hown] at hboth
        rw [Note.idsBelow_eq, Note.idsBelow_eq]
        exact hboth.of_perm (Note.idsAmong_perm _).symm (Note.idsAmong_perm _).symm
termination_by sizeOf note
decreasing_by
  cases note
  simp only [Note.mk.sizeOf_spec]
  omega

theorem applyChildren_written (visibility : Visibility) (depth : Nat) (progress : Progress)
    (items : List Woven) (children : List Note) (hwf : progress.store.WellFormed)
    (hitems : List.Forall₂
      (fun item child => ∀ name, child.id = some name → item.place.atom = name) items children)
    (hok : (applyChildren visibility depth progress (items.map Woven.slot) children).failure =
      none) :
    List.Forall₂ Note.Filled children
        (applyChildren visibility depth progress (items.map Woven.slot) children).notes ∧
      (applyChildren visibility depth progress (items.map Woven.slot) children).notes.map Note.id =
        items.map (fun item => some item.place.atom) ∧
      Grows progress.store
        (applyChildren visibility depth progress (items.map Woven.slot) children).progress.store ∧
      Refilled progress.store
        (applyChildren visibility depth progress (items.map Woven.slot) children).progress.store
        (children.flatMap Note.idsBelow)
        ((applyChildren visibility depth progress (items.map Woven.slot) children).notes.flatMap
          Note.idsBelow) := by
  cases hitems with
  | nil =>
      rw [List.map_nil, applyChildren]
      exact ⟨.nil, rfl, ⟨hwf, Supply.Precedes.refl _, fun _ hid => hid⟩, Refilled.refl _ _ _⟩
  | @cons item child items children hname hitems =>
      obtain ⟨id, first, rest, hid, hfirst, hrest, hfirstOk, hrestOk, heq⟩ :=
        applyChildren_cons_ok hok
      obtain rfl : item.place.atom = id := Option.some.inj hid
      subst hfirst hrest
      obtain ⟨hfilled, hgrows, hrefilled⟩ := applyNote_written visibility _ _ _ _ hwf hfirstOk
      obtain ⟨hfilledRest, hids, hgrowsRest, hrefilledRest⟩ :=
        applyChildren_written visibility depth _ items children hgrows.wellFormed hitems hrestOk
      rw [List.map_cons, heq]
      refine ⟨.cons ?_ hfilledRest, congrArg (some item.place.atom :: ·) hids,
        hgrows.trans hgrowsRest, ?_⟩
      · obtain ⟨-, hfields, hbelow⟩ := hfilled
        refine .mk (fun name h => congrArg some (hname name h)) ?_ hbelow
        rw [hfields]
      · have hbelow : ∀ written : Note,
            ({ written with id := some item.place.atom } : Note).idsBelow = written.idsBelow := by
          intro written
          rw [Note.idsBelow_eq, Note.idsBelow_eq]
        rw [List.flatMap_cons, List.flatMap_cons, hbelow]
        exact hrefilled.append hrefilledRest hgrows hgrowsRest
termination_by sizeOf children

end

end Update

end Outline
