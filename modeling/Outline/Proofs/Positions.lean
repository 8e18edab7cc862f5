import Mathlib.Logic.Relation
import Outline.Proofs.Properties

/-!
# Positions of an update

An update goes from position to position down its tree of notes.  Which ones it
comes to can be read off the store before it: below a position it goes on if the
budget allows and the atom is shown, and a child whose place is kept has one
level less to go, while one that is put into the list has none.
-/

namespace Outline

namespace Note

mutual

/-- The identifiers below a note, in order. -/
def idsBelow : Note → List AtomId
  | { id := _, value := _, byname := _, weight := _, sharability := _, created := _, children } =>
    idsAmong children

/-- The identifiers of some notes and of those below them, in order. -/
def idsAmong : List Note → List AtomId
  | [] => []
  | child :: children => child.id.toList ++ child.idsBelow ++ idsAmong children

end

theorem idsBelow_eq (note : Note) : note.idsBelow = idsAmong note.children := by
  cases note
  rw [idsBelow]

theorem idsAmong_eq_flatMap (children : List Note) :
    idsAmong children = children.flatMap fun child => child.id.toList ++ child.idsBelow := by
  induction children with
  | nil => rw [idsAmong, List.flatMap_nil]
  | cons child children ih => rw [idsAmong, List.flatMap_cons, ih]

/-- A child and what is below it are below the note. -/
theorem mem_idsBelow_of_child {note child : Note} {index : Nat} {id : AtomId}
    (hchild : note.children[index]? = some child) (hid : child.id = some id ∨ id ∈ child.idsBelow) :
    id ∈ note.idsBelow := by
  rw [idsBelow_eq, idsAmong_eq_flatMap]
  refine List.mem_flatMap.mpr ⟨child, List.mem_of_getElem? hchild, ?_⟩
  rcases hid with hid | hid
  · exact List.mem_append_left _ (by simp [hid])
  · exact List.mem_append_right _ hid

/-- What a child names is below the note. -/
theorem mem_idsBelow_of_mem_map {note : Note} {name : AtomId}
    (h : some name ∈ note.children.map Note.id) : name ∈ note.idsBelow := by
  obtain ⟨child, hchild, hid⟩ := List.mem_map.mp h
  obtain ⟨index, hindex⟩ := List.mem_iff_getElem?.mp hchild
  exact mem_idsBelow_of_child hindex (Or.inl hid)

end Note

/-- A position that an update comes to: an atom, how many levels below it may
still be edited, and its note as it is wanted and as it is written back. -/
structure Position where
  atom : AtomId
  budget : Nat
  wanted : Note
  written : Note

namespace Position

open Update

/-- The list of the atom is edited, and the children have their turn after it. -/
structure Spreads (visibility : Visibility) (before : Store) (pos : Position) : Prop where
  budget : 0 < pos.budget
  shown : ∃ atom, before.atom pos.atom = .ok atom ∧ visibility.shows (merge pos.wanted atom)

/-- The budget of a child: one level less if its place in the list is kept, and
none if it is put there. -/
def childBudget (before : Store) (pos : Position) (index : Nat) : Nat :=
  if index ∈ (keptPairs (before.places pos.atom) pos.wanted.children).map Prod.snd then
    pos.budget - 1
  else 0

/-- A position that an update comes to from the one above it. -/
inductive Child (visibility : Visibility) (before : Store) (pos : Position) : Position → Prop
  | mk {index : Nat} {child written : Note} {id : AtomId} :
      pos.Spreads visibility before → pos.wanted.children[index]? = some child →
      pos.written.children[index]? = some written → written.id = some id →
      Child visibility before pos
        { atom := id, budget := pos.childBudget before index, wanted := child, written }

/-- A position that an update comes to from a root. -/
def Reached (visibility : Visibility) (before : Store) (root pos : Position) : Prop :=
  Relation.ReflTransGen (Child visibility before) root pos

/-- The atom of a position and those that are named below it. -/
def ids (pos : Position) : List AtomId :=
  pos.atom :: pos.wanted.idsBelow

end Position

namespace Store

/-! ## Atoms that are as they were -/

/-- An atom, with its list, is the same in two stores. -/
structure SameAt (a b : Store) (id : AtomId) : Prop where
  row : b.atomRow? id = a.atomRow? id
  places : b.places id = a.places id

variable {a b c : Store} {id : AtomId}

theorem SameAt.trans (hab : SameAt a b id) (hbc : SameAt b c id) : SameAt a c id :=
  ⟨hbc.row.trans hab.row, hbc.places.trans hab.places⟩

theorem SameAt.atom_eq (h : SameAt a b id) : b.atom id = a.atom id := by
  simp only [Store.atom, atom?, h.row]

theorem SameAt.hasAtom_iff (h : SameAt a b id) : b.HasAtom id ↔ a.HasAtom id := by
  refine not_iff_not.mp ?_
  rw [← atomRow?_eq_none, ← atomRow?_eq_none, h.row]

end Store

namespace Position

open Update Store

variable {visibility : Visibility} {a b : Store} {root pos : Position}

theorem spreads_iff_of_sameAt (h : SameAt a b pos.atom) :
    pos.Spreads visibility b ↔ pos.Spreads visibility a := by
  constructor
  · rintro ⟨hbudget, hshown⟩
    exact ⟨hbudget, h.atom_eq ▸ hshown⟩
  · rintro ⟨hbudget, hshown⟩
    exact ⟨hbudget, h.atom_eq ▸ hshown⟩

theorem childBudget_eq_of_sameAt (h : SameAt a b pos.atom) :
    pos.childBudget b = pos.childBudget a := by
  funext index
  rw [childBudget, childBudget, h.places]

theorem child_iff_of_sameAt {child : Position} (h : SameAt a b pos.atom) :
    pos.Child visibility b child ↔ pos.Child visibility a child := by
  have hbudget := childBudget_eq_of_sameAt h
  constructor
  · rintro ⟨hspreads, hchild, hwritten, hid⟩
    rw [hbudget]
    exact Child.mk ((spreads_iff_of_sameAt h).mp hspreads) hchild hwritten hid
  · rintro ⟨hspreads, hchild, hwritten, hid⟩
    rw [← hbudget]
    exact Child.mk ((spreads_iff_of_sameAt h).mpr hspreads) hchild hwritten hid

theorem Child.spreads {child : Position} (h : pos.Child visibility a child) :
    pos.Spreads visibility a := by
  obtain ⟨hspreads, -, -, -⟩ := h
  exact hspreads

/-- Which positions are reached depends only on the atoms of those that have a
budget. -/
theorem reached_iff_of_sameAt
    (h : ∀ pos, Reached visibility b root pos → 0 < pos.budget → SameAt a b pos.atom) :
    Reached visibility a root pos ↔ Reached visibility b root pos := by
  constructor
  · intro hreached
    induction hreached with
    | refl => exact Relation.ReflTransGen.refl
    | tail _ hchild ih =>
        exact ih.tail ((child_iff_of_sameAt (h _ ih hchild.spreads.budget)).mpr hchild)
  · intro hreached
    induction hreached with
    | refl => exact Relation.ReflTransGen.refl
    | @tail parent child hparent hchild ih =>
        exact ih.tail ((child_iff_of_sameAt (h _ hparent hchild.spreads.budget)).mp hchild)

/-- From a position that does not spread, no other is reached. -/
theorem reached_iff_of_not_spreads (h : ¬root.Spreads visibility a) :
    Reached visibility a root pos ↔ pos = root := by
  constructor
  · intro hreached
    rcases Relation.ReflTransGen.cases_head hreached with rfl | ⟨child, hchild, -⟩
    · rfl
    · exact absurd hchild.spreads h
  · rintro rfl
    exact Relation.ReflTransGen.refl

/-- Only a position with a budget leads to one with a budget. -/
theorem budget_pos_of_reached (h : Reached visibility a root pos) (hbudget : 0 < pos.budget) :
    0 < root.budget := by
  rcases Relation.ReflTransGen.cases_head h with rfl | ⟨child, hchild, -⟩
  · exact hbudget
  · exact hchild.spreads.budget

end Position

end Outline
