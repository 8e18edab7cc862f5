import Outline.Proofs.Owners

/-!
# Atoms by age

Rows are listed in the order of their stored creation times and identifiers, and stored
values of any kind have an order.  Where every row can be read, this is the order of the
atoms themselves, each of which is listed once.
-/

namespace Outline

theorem Datum.le_integer (m n : Int) : (integer m).le (integer n) = decide (m ≤ n) := by
  have hquotient (n : Int) :
      quotient (.finite (decide (n < 0)) n.natAbs 0) = (n, 1) := by
    have hsign : (if n < 0 then -(n.natAbs : Int) else n.natAbs) = n := by omega
    have hscaled : Number.scaleDown 2 n.natAbs 1 (-0) = (n.natAbs, 1) := rfl
    simp only [quotient, hscaled, decide_eq_true_eq, hsign]
  simp [le, meaning?, atMost, hquotient]

theorem Datum.le_text (s t : String) : (text s).le (text t) = decide (s ≤ t) :=
  rfl

/-- Rows are in the order of the atoms that they store. -/
theorem AtomRow.Reads.le_eq {row row' : AtomRow} {a b : Atom} (h : row.Reads a)
    (h' : row'.Reads b) : row.le row' = Store.isOlder a b := by
  rw [AtomRow.le, h.created, h'.created, h.id, h'.id]
  simp only [Datum.le_integer, Datum.le_text, Store.isOlder]
  grind

namespace Store

variable {store : Store} {atoms : List Atom}

/-- The rows of the atoms in the order in which they are listed. -/
theorem forall₂_reads_of_listAtoms (h : store.listAtoms = .ok atoms) :
    List.Forall₂ AtomRow.Reads (store.atoms.mergeSort AtomRow.le) atoms :=
  (mapM_eq_ok_iff_forall₂.mp h).imp fun _ _ => AtomRow.toAtom_eq_ok.mp

theorem mem_listAtoms (h : store.listAtoms = .ok atoms) {atom : Atom} :
    atom ∈ atoms ↔ store.StoresAtom atom := by
  rw [mem_of_mapM_eq_ok h]
  simp only [List.mem_mergeSort, StoresAtom]

theorem nodup_listAtoms (hids : (store.atoms.map AtomRow.id).Nodup)
    (h : store.listAtoms = .ok atoms) : (atoms.map Atom.id).Nodup := by
  have hrows : (store.atoms.mergeSort AtomRow.le).map AtomRow.id =
      atoms.map fun atom => .text atom.id := by
    rw [← List.forall₂_eq_eq_eq, List.forall₂_map_left_iff, List.forall₂_map_right_iff]
    exact (forall₂_reads_of_listAtoms h).imp fun _ _ hread => hread.id
  have hsorted := ((List.mergeSort_perm store.atoms AtomRow.le).map AtomRow.id).nodup_iff.mpr hids
  rw [hrows] at hsorted
  refine List.Nodup.of_map Datum.text ?_
  rwa [List.map_map]

/-- Atoms are listed by age, and atoms of one age by their identifiers. -/
theorem pairwise_listAtoms (h : store.listAtoms = .ok atoms) :
    atoms.Pairwise fun a b => isOlder a b := by
  have hreads := forall₂_reads_of_listAtoms h
  -- Only rows that can be read have a place in the order of atoms, so the order of the rows
  -- is carried over to what they read as.
  let read (row : AtomRow) : Atom := (row.toAtom.toOption).getD { id := "" }
  have hread {row : AtomRow} {atom : Atom} (hrow : row.Reads atom) : read row = atom := by
    simp only [read, AtomRow.toAtom_eq_ok.mpr hrow]
    rfl
  have hatoms : atoms = (store.atoms.mergeSort AtomRow.le).map read := by
    rw [← List.forall₂_eq_eq_eq, List.forall₂_map_right_iff]
    exact (hreads.imp fun _ _ hrow => (hread hrow).symm).flip
  have hexists : ∀ row ∈ store.atoms, ∃ atom, row.Reads atom := by
    intro row hrow
    obtain ⟨atom, hatom⟩ := exists_ok_of_mapM_eq_ok h (List.mem_mergeSort.mpr hrow)
    exact ⟨atom, AtomRow.toAtom_eq_ok.mp hatom⟩
  have hle : ∀ row ∈ store.atoms, ∀ row' ∈ store.atoms,
      row.le row' = isOlder (read row) (read row') := by
    intro row hrow row' hrow'
    obtain ⟨a, ha⟩ := hexists row hrow
    obtain ⟨b, hb⟩ := hexists row' hrow'
    rw [hread ha, hread hb, ha.le_eq hb]
  rw [hatoms, List.map_mergeSort hle]
  exact List.pairwise_mergeSort isOlder_trans isOlder_total _

/-- Identifiers of stored atoms, each once, in the order of the creation times of the atoms
and then of the identifiers. -/
def InOrderOfAge (store : Store) (ids : List AtomId) : Prop :=
  ∃ atoms : List Atom, atoms.map Atom.id = ids ∧ (∀ atom ∈ atoms, store.StoresAtom atom) ∧
    atoms.Pairwise fun a b => a.created < b.created ∨ a.created = b.created ∧ a.id < b.id

/-- The listed atoms of any kind are in the order of age. -/
theorem inOrderOfAge_filter (hids : (store.atoms.map AtomRow.id).Nodup)
    (h : store.listAtoms = .ok atoms) (p : Atom → Bool) :
    store.InOrderOfAge ((atoms.filter p).map Atom.id) := by
  have hnames := List.pairwise_map.mp (nodup_listAtoms hids h)
  refine ⟨atoms.filter p, rfl, fun atom hatom => ?_, List.Pairwise.filter p ?_⟩
  · exact (mem_listAtoms h).mp (List.mem_filter.mp hatom).1
  · refine ((pairwise_listAtoms h).and hnames).imp fun {a b} hab => ?_
    obtain ⟨holder, hne⟩ := hab
    refine (isOlder_iff.mp holder).imp id fun hsame => ⟨hsame.1, ?_⟩
    by_contra hlt
    exact hne (String.le_antisymm hsame.2 (String.not_lt.mp hlt))

end Store

end Outline
