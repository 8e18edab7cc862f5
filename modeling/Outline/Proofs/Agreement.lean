import Outline.Proofs.PlainLists
import Outline.Proofs.Properties

/-!
# Notes that agree with the store

A note agrees with the store down to some depth if an update of that depth finds
nothing to do: the properties that it sets are stored, and below, as far as atoms
are shown, the lists hold its children.  A view agrees with the store it was taken
from, so that writing it back changes nothing, also where lists repeat atoms or
lead back to them.
-/

namespace Outline

namespace Update

open Store

/-- The note sets nothing that is not stored, and down to the given depth its
children are those in the lists. -/
def Agrees (visibility : Visibility) (store : Store) : (depth : Nat) → AtomId → Note → Prop
  | 0, id, note => ∃ atom, store.atom id = .ok atom ∧ changes note atom = false
  | depth + 1, id, note =>
    ∃ atom, store.atom id = .ok atom ∧ changes note atom = false ∧
      if visibility.shows atom then
        ∃ neighbours, store.sequence atom = .ok neighbours ∧
          List.Forall₂ (fun neighbour child =>
            child.id = some neighbour.id ∧ Agrees visibility store depth neighbour.id child)
            neighbours note.children
      else note.children = []

variable {visibility : Visibility} {store : Store} {progress : Progress} {depth : Nat} {id : AtomId}
  {atom : Atom} {note : Note} {neighbours : List Atom} {children : List Note}

/-- If everything is shown, the lists below hold the children in any case. -/
theorem agrees_everything_succ : Agrees .everything store (depth + 1) id note ↔
    ∃ atom neighbours, store.atom id = .ok atom ∧ changes note atom = false ∧
      store.sequence atom = .ok neighbours ∧ List.Forall₂ (fun neighbour child =>
        child.id = some neighbour.id ∧ Agrees .everything store depth neighbour.id child)
        neighbours note.children := by
  constructor
  · rintro ⟨atom, hatom, hsame, neighbours, hneighbours, hchildren⟩
    exact ⟨atom, neighbours, hatom, hsame, hneighbours, hchildren⟩
  · rintro ⟨atom, neighbours, hatom, hsame, hneighbours, hchildren⟩
    exact ⟨atom, hatom, hsame, neighbours, hneighbours, hchildren⟩

/-! ## Updates that find nothing to do -/

theorem merge_eq_self (h : changes note atom = false) : merge note atom = atom := by
  simp only [changes, changesProperties, Bool.or_eq_false_iff] at h
  obtain ⟨hvalue, ⟨hbyname, hweight⟩, hsharability⟩ := h
  rw [merge, ← eq_of_not_changesText hvalue, ← eq_of_not_changesText hbyname]
  simp [mergeNumber, hweight, hsharability]

theorem storeProperties_of_unchanged (hatom : progress.store.atom id = .ok atom)
    (hsame : changes note atom = false) :
    storeProperties id note progress = .ok atom progress := by
  have hmerge := merge_eq_self hsame
  rw [storeProperties_eq, bind_of_ok (Progress.look_of_ok hatom), if_neg (by simp [hsame]),
    noteProperties, hmerge]
  simp only [changes, Bool.or_eq_false_iff] at hsame
  rw [if_neg (by simp [hsame.1]), if_neg (by simp [hsame.2])]
  rfl

/-- A list whose atoms are those of the children is not edited. -/
theorem editList_of_forall₂ (visibility : Visibility)
    (hneighbours : progress.store.sequence atom = .ok neighbours)
    (hids : List.Forall₂ (fun neighbour child => child.id = some neighbour.id) neighbours
      children) :
    editList visibility atom children progress =
      (none, children.map fun child => { id := child.id }, progress) := by
  have hscript : Edit.script Note.samePosition (neighbours.map .ofAtom) children = [] := by
    refine Edit.script_eq_nil (List.forall₂_map_left_iff.mpr (hids.imp ?_))
    intro neighbour child hid
    simp [Note.samePosition, Note.ofAtom, hid]
  rw [editList]
  simp only [hneighbours, hscript, applyScript]

theorem applyChildren_of_forall₂
    (h : List.Forall₂ (fun neighbour child => child.id = some neighbour.id ∧
      applyNote visibility neighbour.id depth progress child = { notes := child, progress })
      neighbours children) :
    applyChildren visibility depth progress (children.map fun child => { id := child.id })
      children = { notes := children, progress } := by
  induction h with
  | nil => rw [applyChildren]
  | @cons neighbour child neighbours children hchild _ ih =>
      obtain ⟨hid, hnote⟩ := hchild
      have hself : { child with id := some neighbour.id } = child := by
        cases child
        cases hid
        rfl
      rw [List.map_cons, applyChildren]
      simp only [hid]
      rw [if_neg Bool.false_ne_true, hnote]
      simp only [ih, hself]

/-- An update of a note that agrees with the store leaves everything as it is. -/
theorem applyNote_of_agrees (h : Agrees visibility progress.store depth id note) :
    applyNote visibility id depth progress note = { notes := note, progress } := by
  induction depth generalizing id note with
  | zero =>
      obtain ⟨atom, hatom, hsame⟩ := h
      cases note
      rw [applyNote, storeProperties_of_unchanged hatom hsame]
  | succ depth ih =>
      obtain ⟨atom, hatom, hsame, hbelow⟩ := h
      cases note
      rw [applyNote, storeProperties_of_unchanged hatom hsame]
      dsimp only at hbelow ⊢
      split at hbelow
      next hshows =>
        obtain ⟨neighbours, hneighbours, hchildren⟩ := hbelow
        have hedit := editList_of_forall₂ visibility hneighbours (hchildren.imp fun _ _ => And.left)
        have hrest := applyChildren_of_forall₂
          (hchildren.imp fun _ _ hchild => ⟨hchild.1, ih hchild.2⟩)
        rw [if_pos hshows, hedit]
        simp only [hrest]
      next hshows =>
        rw [if_neg hshows, hbelow]
        rfl

/-! ## Views -/

theorem changes_ofAtom (hvalid : atom.validate = .ok ()) (children : List Note) :
    changes { Note.ofAtom atom with children } atom = false := by
  obtain ⟨-, -, -, hsharability, hweight⟩ := Atom.validate_eq_ok.mp hvalid
  have htext : ∀ text : Option String, changesText text text = false := by
    intro text
    cases text <;> simp [changesText]
  have hnumber : ∀ number : Option Single, isUnsetOrFinite number →
      changesNumber number number = false := by
    intro number hfinite
    cases number with
    | none => rfl
    | some x => simp [changesNumber, Single.sameValue_refl hfinite]
  simp [changes, changesProperties, Note.ofAtom, htext, hnumber _ hweight, hnumber _ hsharability]

/-- An atom that is found is stored under its own identifier. -/
theorem atom_of_atom? (h : store.atom? id = .ok (some atom)) :
    store.atom atom.id = .ok atom ∧ atom.validate = .ok () := by
  have hatom := atom_eq_ok.mpr h
  obtain rfl := id_of_atom hatom
  exact ⟨hatom, valid_of_atom hatom⟩

theorem atom_of_content {cell : Cell} (h : store.content cell = .ok atom) :
    store.atom atom.id = .ok atom ∧ atom.validate = .ok () := by
  rw [content, except_bind_eq_ok] at h
  obtain ⟨found, hfound, h⟩ := h
  cases found with
  | none => cases h
  | some found =>
      cases h
      exact atom_of_atom? hfound

theorem atom_of_mem_sequence (h : store.sequence atom = .ok neighbours) :
    ∀ neighbour ∈ neighbours,
      store.atom neighbour.id = .ok neighbour ∧ neighbour.validate = .ok () := by
  rw [Store.sequence, except_bind_eq_ok] at h
  obtain ⟨cells, -, hcells⟩ := h
  rw [mapM_eq_ok_iff_forall₂] at hcells
  induction hcells with
  | nil => simp
  | cons hcontent _ ih => exact List.forall_mem_cons.mpr ⟨atom_of_content hcontent, ih⟩

theorem id_of_view {adjacency : Adjacency} {parent : Option Atom}
    (h : store.view visibility adjacency depth parent atom = .ok note) :
    note.id = some atom.id := by
  cases depth with
  | zero =>
      rw [view] at h
      cases h
      rfl
  | succ depth =>
      rw [view, except_bind_eq_ok] at h
      obtain ⟨_, -, h⟩ := h
      rw [except_bind_eq_ok] at h
      obtain ⟨_, -, h⟩ := h
      cases h
      rfl

/-- An atom that is not shown stands in a view without children. -/
theorem agrees_of_hidden (hatom : store.atom atom.id = .ok atom) (hvalid : atom.validate = .ok ())
    (hhidden : ¬visibility.shows atom) (depth : Nat) :
    Agrees visibility store depth atom.id (.ofAtom atom) := by
  cases depth with
  | zero => exact ⟨atom, hatom, changes_ofAtom hvalid []⟩
  | succ depth =>
      refine ⟨atom, hatom, changes_ofAtom hvalid [], ?_⟩
      rw [if_neg hhidden]
      rfl

/-- The view lists what is below its root also if the root is not shown; then it
agrees with the store only if nothing is below. -/
theorem agrees_of_view {parent : Option Atom} (hatom : store.atom atom.id = .ok atom)
    (hvalid : atom.validate = .ok ())
    (hview : store.view visibility .forward depth parent atom = .ok note)
    (hshows : visibility.shows atom ∨ depth = 0 ∨ note.children = []) :
    Agrees visibility store depth atom.id note := by
  induction depth generalizing atom parent note with
  | zero =>
      rw [view] at hview
      cases hview
      exact ⟨atom, hatom, changes_ofAtom hvalid []⟩
  | succ depth ih =>
      rw [view, except_bind_eq_ok] at hview
      obtain ⟨neighbours, hneighbours, hview⟩ := hview
      rw [except_bind_eq_ok] at hview
      obtain ⟨children, hchildren, hview⟩ := hview
      cases hview
      refine ⟨atom, hatom, changes_ofAtom hvalid children, ?_⟩
      split
      next =>
        refine ⟨neighbours, hneighbours, ?_⟩
        have hviews := (List.forall₂_and_left _ _).mpr
          ⟨atom_of_mem_sequence hneighbours, mapM_eq_ok_iff_forall₂.mp hchildren⟩
        refine hviews.imp ?_
        rintro neighbour child ⟨⟨hatom, hvalid⟩, hrun⟩
        split at hrun
        next hshown => exact ⟨id_of_view hrun, ih hatom hvalid hrun (Or.inl hshown)⟩
        next hhidden =>
          cases hrun
          exact ⟨rfl, agrees_of_hidden hatom hvalid hhidden depth⟩
      next hhidden =>
        rcases hshows with hshows | hzero | hnone
        · exact absurd hshows hhidden
        · cases hzero
        · exact hnone

/-! ## Writing a view back -/

theorem levels_eq_zero {depth : Depth} (h : depth ≤ 0) : depth.levels = 0 :=
  Int.toNat_of_nonpos (Int32.le_iff_toInt_le.mp h)

theorem viewAt_eq_ok {adjacency : Adjacency}
    (h : store.viewAt visibility adjacency depth id = .ok note) :
    ∃ atom, store.atom? id = .ok (some atom) ∧
      store.view visibility adjacency depth none atom = .ok note := by
  rw [viewAt] at h
  split at h
  next => cases h
  next => cases h
  next atom hfound =>
    refine ⟨atom, hfound, ?_⟩
    cases hview : store.view visibility adjacency depth none atom with
    | error cause =>
        rw [hview] at h
        cases h
    | ok shown =>
        rw [hview] at h
        cases h
        rfl

/-- Writing a view back changes nothing: nothing is stored, drawn, counted or
logged, and the note stays as it was.  The root must be shown, unless the view has
no levels or no notes below its root. -/
theorem atRootWith_of_viewAt {log : Option (List Event)} {depth : Depth}
    (hview : store.viewAt visibility .forward depth.levels id = .ok note)
    (hshows : (∃ atom, store.atom id = .ok atom ∧ visibility.shows atom) ∨ depth ≤ 0 ∨
      note.children = []) :
    atRootWith log visibility id depth.levels note store =
      { notes := note, progress := { store, log } } := by
  obtain ⟨atom, hfound, hview⟩ := viewAt_eq_ok hview
  obtain ⟨hatom, hvalid⟩ := atom_of_atom? hfound
  have hroot : visibility.shows atom ∨ depth.levels = 0 ∨ note.children = [] := by
    rcases hshows with ⟨other, hother, hshows⟩ | hdepth | hnone
    · cases (atom_eq_ok.mpr hfound).symm.trans hother
      exact Or.inl hshows
    · exact Or.inr (Or.inl (levels_eq_zero hdepth))
    · exact Or.inr (Or.inr hnone)
  have hagrees := agrees_of_view hatom hvalid hview hroot
  rw [atRootWith, hfound]
  exact applyNote_of_agrees hagrees

/-- The list of the sample, as a view shows it. -/
def sampleView : Note where
  id := some "a"
  created := some 0
  children := [{ id := some "b", created := some 0 }, { id := some "c", created := some 0 }]

/-- The view of the sample is written back. -/
theorem sample_written_back :
    sample.viewAt .everything .forward (2 : Depth).levels "a" = .ok sampleView ∧
    (∃ atom, sample.atom "a" = .ok atom ∧ Visibility.everything.shows atom) ∧
    atRootWith (some []) .everything "a" (2 : Depth).levels sampleView sample =
      { notes := sampleView, progress := { store := sample } } :=
  have hview : sample.viewAt .everything .forward (2 : Depth).levels "a" = .ok sampleView := by
    with_unfolding_all rfl
  have hshows : ∃ atom, sample.atom "a" = .ok atom ∧ Visibility.everything.shows atom :=
    ⟨{ id := "a", notes := some "p" }, rfl, rfl⟩
  ⟨hview, hshows, atRootWith_of_viewAt hview (Or.inl hshows)⟩

end Update

end Outline
