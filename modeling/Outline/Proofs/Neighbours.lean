import Outline.Listing
import Outline.Proofs.Agreement
import Outline.Proofs.Owners

/-!
# Neighbours in both directions

Walked backwards, the relation between an atom and the atoms in its list is the inverse
of the one walked forwards, although the one side follows the successors of cells and
the other goes back from cells to the atoms that own them.  So the undirected relation is
symmetric, and the atoms in no list are those without a backward neighbour.
-/

namespace Outline

/-- One atom is a neighbour of another, wherever the walk came from. -/
def Adjacency.Links (adjacency : Adjacency) (store : Store) (a b : Atom) : Prop :=
  ∃ neighbours, adjacency.linked store a none = .ok neighbours ∧ b ∈ neighbours

namespace Store

open Update

variable {store : Store} {a b : Atom}

/-- The atoms of a list are the stored atoms in its places. -/
theorem WellFormed.sequence_mem_iff (h : store.WellFormed) (ha : store.StoresAtom a) :
    ∃ items, store.sequence a = .ok items ∧
      ∀ b, b ∈ items ↔ store.StoresAtom b ∧ ∃ place ∈ store.places a.id, place.atom = b.id := by
  obtain ⟨items, hitems, hids⟩ := sequence_eq_ok h (h.notes_eq ha)
  have hstored : ∀ b ∈ items, store.StoresAtom b := fun b hb =>
    (h.atom_eq_iff.mp (atom_of_mem_sequence hitems b hb).1).1
  refine ⟨items, hitems, fun b => ?_⟩
  constructor
  · intro hb
    have hid : b.id ∈ (store.places a.id).map Place.atom := hids ▸ List.mem_map_of_mem hb
    exact ⟨hstored b hb, List.mem_map.mp hid⟩
  · rintro ⟨hb, hplace⟩
    have hid : b.id ∈ items.map Atom.id := hids ▸ List.mem_map.mpr hplace
    obtain ⟨c, hc, heq⟩ := List.mem_map.mp hid
    rwa [← h.eq_of_id_eq (hstored c hc) hb heq]

/-- The neighbours of an atom in each direction: `owners` have it in their lists, and
`items` are in its own. -/
structure Neighbourhood (store : Store) (a : Atom) (owners items : List Atom) : Prop where
  backward : ∀ parent, Adjacency.backward.linked store a parent = .ok owners
  forward : ∀ parent, Adjacency.forward.linked store a parent = .ok items
  stored : ∀ b ∈ owners ++ items, store.StoresAtom b
  inverse : ∀ q, store.StoresAtom q → (q ∈ owners ↔ Adjacency.forward.Links store q a)
  once : (owners.map Atom.id).Nodup
  sorted : owners.Pairwise fun b c => b.created < c.created ∨ b.created = c.created ∧ b.id ≤ c.id
  undirected : Adjacency.undirected.linked store a none = .ok (owners ++ items)
  symmetric : ∀ b, store.StoresAtom b →
    (Adjacency.undirected.Links store a b ↔ Adjacency.undirected.Links store b a)
  /-- Every occurrence of the atom that the walk came from is left out. -/
  without : ∀ parent : Atom, Adjacency.undirected.linked store a (some parent) =
    .ok ((owners ++ items).filter fun b => b.id != parent.id)

/-- Both directions of a walk at once. -/
theorem linked_undirected {owners items : List Atom} (hbackward : store.owners a.id = .ok owners)
    (hforward : store.sequence a = .ok items) (parent : Option Atom) :
    Adjacency.undirected.linked store a parent =
      .ok ((owners ++ items).filter fun b => parent.all fun parent => b.id != parent.id) := by
  rw [Adjacency.linked]
  simp only [hbackward, hforward, bind, Except.bind]
  rfl

/-- A forward neighbour is an atom in a place of the list. -/
theorem WellFormed.forward_links_iff (h : store.WellFormed) (ha : store.StoresAtom a) :
    Adjacency.forward.Links store a b ↔
      store.StoresAtom b ∧ ∃ place ∈ store.places a.id, place.atom = b.id := by
  obtain ⟨items, hitems, hmem⟩ := h.sequence_mem_iff ha
  rw [← hmem]
  constructor
  · rintro ⟨neighbours, hneighbours, hb⟩
    cases hitems.symm.trans hneighbours
    exact hb
  · exact fun hb => ⟨items, hitems, hb⟩

/-- An undirected neighbour is one in either direction. -/
theorem WellFormed.undirected_links_iff (h : store.WellFormed) (ha : store.StoresAtom a)
    (hb : store.StoresAtom b) : Adjacency.undirected.Links store a b ↔
      Adjacency.forward.Links store b a ∨ Adjacency.forward.Links store a b := by
  obtain ⟨owners, howners, -, -, hmem⟩ := h.owners_eq_ok a.id
  obtain ⟨items, hitems, hmem'⟩ := h.sequence_mem_iff ha
  have hlinked := linked_undirected howners hitems none
  have hlisted : Adjacency.undirected.Links store a b ↔ b ∈ owners ∨ b ∈ items := by
    rw [Adjacency.Links, hlinked]
    simp
  rw [hlisted, hmem, hmem', h.forward_links_iff hb, h.forward_links_iff ha]
  simp only [ha, hb, true_and]

theorem WellFormed.exists_neighbourhood (h : store.WellFormed) (ha : store.StoresAtom a) :
    ∃ owners items, store.Neighbourhood a owners items := by
  obtain ⟨owners, howners, hnodup, hsorted, hmem⟩ := h.owners_eq_ok a.id
  obtain ⟨items, hitems, hmem'⟩ := h.sequence_mem_iff ha
  refine ⟨owners, items, ?_⟩
  constructor
  case backward => exact fun _ => howners
  case forward => exact fun _ => hitems
  case stored =>
    intro b hb
    rcases List.mem_append.mp hb with hb | hb
    · exact ((hmem b).mp hb).1
    · exact ((hmem' b).mp hb).1
  case inverse =>
    intro q hq
    rw [hmem, h.forward_links_iff hq]
    simp only [ha, hq, true_and]
  case once =>
    apply hnodup.map_on
    intro b hb c hc hid
    exact h.eq_of_id_eq ((hmem b).mp hb).1 ((hmem c).mp hc).1 hid
  case sorted => exact hsorted.imp isOlder_iff.mp
  case undirected =>
    rw [linked_undirected howners hitems none]
    simp
  case symmetric =>
    intro b hb
    rw [h.undirected_links_iff ha hb, h.undirected_links_iff hb ha]
    exact or_comm
  case without =>
    intro parent
    rw [linked_undirected howners hitems (some parent)]
    simp

/-! ## Atoms in no list -/

/-- The atoms in no list are found: those that have no owners. -/
theorem WellFormed.listUnreferenced_eq_ok (h : store.WellFormed) :
    ∃ atoms, store.listUnreferenced = .ok atoms ∧
      ∀ a, a ∈ atoms ↔ store.StoresAtom a ∧ store.owners a.id = .ok [] := by
  have hread : ∀ row ∈ (store.atoms.filter fun row =>
      !store.cells.any fun cell => cell.first == row.id).mergeSort AtomRow.le,
      ∃ atom, row.toAtom = .ok atom := fun row hrow =>
    h.atomsReadable row (List.mem_filter.mp (List.mem_mergeSort.mp hrow)).1
  obtain ⟨atoms, hatoms⟩ := exists_mapM_eq_ok hread
  refine ⟨atoms, hatoms, fun a => ?_⟩
  obtain ⟨owners, howners, -, -, hmem⟩ := h.owners_eq_ok a.id
  have hunheld : owners = [] ↔ ∀ cell ∈ store.cells, cell.first ≠ .text a.id := by
    rw [List.eq_nil_iff_forall_not_mem]
    constructor
    · intro hnone row hrow hfirst
      obtain ⟨cell, hread⟩ := h.cellsReadable row hrow
      obtain rfl := CellRow.toCell_eq_ok.mp hread
      obtain ⟨q, hq, hlinked⟩ := h.exists_owner ⟨_, hrow, hread⟩
      apply hnone q
      exact (hmem q).mpr
        ⟨hq, cell.place, place_mem_of_mem_linkedTo hlinked, Datum.text.inj hfirst⟩
    · intro hno q hq
      obtain ⟨-, place, hplace, hid⟩ := (hmem q).mp hq
      obtain ⟨cell, hlinked, rfl⟩ := exists_mem_linkedTo none hplace
      exact hno _ (h.arranged.linked (some q.id) cell hlinked) (congrArg Datum.text hid)
  rw [mem_of_mapM_eq_ok hatoms, howners, Except.ok.injEq, hunheld]
  constructor
  · rintro ⟨row, hrow, hread⟩
    obtain ⟨hmem, hno⟩ := List.mem_filter.mp (List.mem_mergeSort.mp hrow)
    refine ⟨⟨row, hmem, hread⟩, ?_⟩
    simpa [(AtomRow.toAtom_eq_ok.mp hread).id] using hno
  · rintro ⟨⟨row, hrow, hread⟩, hno⟩
    refine ⟨row, List.mem_mergeSort.mpr (List.mem_filter.mpr ⟨hrow, ?_⟩), hread⟩
    simpa [(AtomRow.toAtom_eq_ok.mp hread).id] using hno

/-- A stored atom is a candidate where everything is shown. -/
theorem WellFormed.candidate?_eq (h : store.WellFormed) (ha : store.StoresAtom a)
    (adjacency : Adjacency) :
    store.candidate? .everything adjacency 0 a.id = .ok (some (.ofAtom a)) := by
  rw [candidate?, atom_eq_ok.mp (h.atom_eq ha)]
  rfl

/-- The atoms in no list are listed, and no other notes. -/
theorem WellFormed.roots_eq_ok (h : store.WellFormed) (adjacency : Adjacency) :
    ∃ note, store.roots .everything adjacency = .ok note ∧
      ∀ child, child ∈ note.children ↔
        ∃ a, store.StoresAtom a ∧ store.owners a.id = .ok [] ∧ child = .ofAtom a := by
  obtain ⟨atoms, hatoms, hmem⟩ := h.listUnreferenced_eq_ok
  have hcandidate : ∀ id ∈ (atoms.map Atom.id).eraseDups, ∃ a ∈ atoms, a.id = id ∧
      store.candidate? .everything adjacency 0 id = .ok (some (.ofAtom a)) := by
    intro id hid
    obtain ⟨a, ha, rfl⟩ := List.mem_map.mp (List.mem_eraseDups.mp hid)
    exact ⟨a, ha, rfl, h.candidate?_eq ((hmem a).mp ha).1 adjacency⟩
  have hfound : ∀ id ∈ (atoms.map Atom.id).eraseDups,
      ∃ note, store.candidate? .everything adjacency 0 id = .ok note := by
    intro id hid
    obtain ⟨a, -, -, ha⟩ := hcandidate id hid
    exact ⟨_, ha⟩
  obtain ⟨notes, hnotes⟩ := exists_mapM_eq_ok hfound
  refine ⟨{ children := Note.ranked (notes.filterMap id) }, ?_, fun child => ?_⟩
  · rw [roots, hatoms]
    simp only [listing, hnotes, bind, Except.bind]
    rfl
  · have hlisted : child ∈ Note.ranked (notes.filterMap id) ↔ some child ∈ notes := by
      rw [Note.ranked, List.mem_mergeSort, List.mem_filterMap]
      simp
    rw [hlisted, mem_of_mapM_eq_ok hnotes]
    constructor
    · rintro ⟨name, hname, hchild⟩
      obtain ⟨a, ha, rfl, hrun⟩ := hcandidate name hname
      obtain ⟨hstored, hnone⟩ := (hmem a).mp ha
      exact ⟨a, hstored, hnone, Option.some.inj (Except.ok.inj (hchild.symm.trans hrun))⟩
    · rintro ⟨a, ha, hnone, rfl⟩
      have hmember : a ∈ atoms := (hmem a).mpr ⟨ha, hnone⟩
      exact ⟨a.id, List.mem_eraseDups.mpr (List.mem_map_of_mem hmember),
        h.candidate?_eq ha adjacency⟩

/-- In a well-formed store every atom has its neighbours, and the two directions are the
inverse of each other; the atoms that are listed as in no list are those without a
backward neighbour. -/
theorem WellFormed.adjacency_inverse (h : store.WellFormed) :
    (∀ a, store.StoresAtom a → ∃ owners items, store.Neighbourhood a owners items) ∧
      ∀ adjacency, ∃ note, store.roots .everything adjacency = .ok note ∧
        ∀ child, child ∈ note.children ↔ ∃ a, store.StoresAtom a ∧
          Adjacency.backward.linked store a none = .ok [] ∧ child = .ofAtom a :=
  ⟨fun _ ha => h.exists_neighbourhood ha, h.roots_eq_ok⟩

/-- The last atom of the sample stands in one list and has none of its own. -/
theorem sample_adjacency_inverse :
    sample.WellFormed ∧ sample.StoresAtom { id := "c" } ∧
    Adjacency.backward.linked sample { id := "c" } none =
      .ok [{ id := "a", notes := some "p" }] ∧
    (∃ owners items, sample.Neighbourhood { id := "c" } owners items) ∧
    ∃ note, sample.roots .everything .forward = .ok note ∧
      ∀ child, child ∈ note.children ↔ ∃ a, sample.StoresAtom a ∧
        Adjacency.backward.linked sample a none = .ok [] ∧ child = .ofAtom a := by
  have hstored : sample.StoresAtom { id := "c" } :=
    ⟨.ofAtom { id := "c" }, by decide, by decide +kernel⟩
  obtain ⟨hneighbours, hroots⟩ := sample_wellFormed.adjacency_inverse
  exact ⟨sample_wellFormed, hstored, by decide +kernel, hneighbours _ hstored, hroots .forward⟩

end Store

end Outline
