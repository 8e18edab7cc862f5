import Outline.Proofs.ByAge
import Outline.Proofs.TextIndex

/-!
# Indexing all values again

Indexing again goes through the atoms that have a value and writes the entry of each.
Whatever the index held before, each of these atoms has its value as its only entry
afterwards.  Entries of other names are never looked at, so the index mirrors the atoms
again exactly if there were no such entries: an entry that an atom left behind when it
lost its value outlives every later pass.
-/

namespace Outline.Store

variable {store before after : Store} {id : AtomId} {text : String} {count : Nat}

/-! ## Writing the entries of some names -/

/-- The entries of some names and texts. -/
def entriesOf (valued : List (AtomId × String)) : List IndexRow :=
  valued.map fun pair => { atom := pair.1, text := pair.2 }

/-- Writing the entries of different names, one after the other, leaves what was there of
other names and then has these entries. -/
theorem foldl_indexText_eq {valued : List (AtomId × String)}
    (hnodup : (valued.map Prod.fst).Nodup) :
    valued.foldl (fun store (id, value) => store.indexText id value) store =
      { store with
        index := store.index.map fun entries =>
          entries.filter (fun entry => !(valued.map Prod.fst).contains entry.atom) ++
            entriesOf valued } := by
  induction valued generalizing store with
  | nil =>
      cases hindex : store.index <;> simp [entriesOf, ← hindex]
  | cons pair valued ih =>
      obtain ⟨id, value⟩ := pair
      obtain ⟨hnew, hnodup⟩ := List.nodup_cons.mp hnodup
      have hkept : (!(valued.map Prod.fst).contains id) = true := by simpa using hnew
      rw [List.foldl_cons, ih hnodup]
      simp only [Store.indexText, Option.map_map]
      congr 2
      funext entries
      simp only [Function.comp, List.filter_append, List.filter_filter, List.filter_singleton,
        hkept, entriesOf, List.map_cons, List.append_assoc]
      congr 1
      refine List.filter_congr fun entry _ => ?_
      simp [Bool.and_comm, bne]

/-! ## The atoms with a value -/

/-- The identifiers and values of the atoms that have a value. -/
def valuesOf (atoms : List Atom) : List (AtomId × String) :=
  atoms.filterMap fun atom => atom.value.map fun value => (atom.id, value)

/-- What indexing again does when it succeeds. -/
theorem reindex_eq_ok :
    reindex before = .ok count after ↔ ∃ atoms, before.listAtoms = .ok atoms ∧
      count = (valuesOf atoms).length ∧
      after = (valuesOf atoms).foldl (fun store (id, value) => store.indexText id value)
        before := by
  rw [reindex, bind_eq_ok]
  constructor
  · rintro ⟨atoms, store, hlook, hrun⟩
    obtain ⟨hatoms, rfl⟩ := look_eq_ok.mp hlook
    cases hrun
    exact ⟨atoms, hatoms, rfl, rfl⟩
  · rintro ⟨atoms, hatoms, rfl, rfl⟩
    exact ⟨atoms, before, look_of_ok hatoms, rfl⟩

theorem mem_valuesOf {atoms : List Atom} :
    (id, text) ∈ valuesOf atoms ↔ ∃ atom ∈ atoms, atom.id = id ∧ atom.value = some text := by
  simp only [valuesOf, List.mem_filterMap, Option.map_eq_some_iff, Prod.mk.injEq]
  constructor
  · rintro ⟨atom, hatom, value, hvalue, rfl, rfl⟩
    exact ⟨atom, hatom, rfl, hvalue⟩
  · rintro ⟨atom, hatom, rfl, hvalue⟩
    exact ⟨atom, hatom, text, hvalue, rfl, rfl⟩

theorem map_fst_valuesOf_sublist (atoms : List Atom) :
    ((valuesOf atoms).map Prod.fst).Sublist (atoms.map Atom.id) := by
  induction atoms with
  | nil => exact .slnil
  | cons atom atoms ih =>
      cases hvalue : atom.value with
      | none => simpa [valuesOf, hvalue] using ih.cons atom.id
      | some value => simpa [valuesOf, hvalue] using ih.cons_cons atom.id

variable {atoms : List Atom}

theorem nodup_valuesOf_listAtoms (hids : (store.atoms.map AtomRow.id).Nodup)
    (h : store.listAtoms = .ok atoms) : ((valuesOf atoms).map Prod.fst).Nodup :=
  (nodup_listAtoms hids h).sublist (map_fst_valuesOf_sublist atoms)

theorem mem_valuesOf_listAtoms (hids : (store.atoms.map AtomRow.id).Nodup)
    (h : store.listAtoms = .ok atoms) : (id, text) ∈ valuesOf atoms ↔ store.HasValue id text := by
  simp only [mem_valuesOf, mem_listAtoms h, HasValue, atom_eq_ok, atom?_eq_some hids, and_assoc]

theorem length_valuesOf_listAtoms (h : store.listAtoms = .ok atoms) :
    (valuesOf atoms).length = store.atoms.countP fun row => row.value.isSome := by
  have hlisted : ∀ {rows : List AtomRow} {atoms : List Atom},
      List.Forall₂ AtomRow.Reads rows atoms →
        (valuesOf atoms).length = rows.countP fun row => row.value.isSome := by
    intro rows atoms hreads
    induction hreads with
    | nil => rfl
    | @cons row atom rows atoms hread _ ih =>
        rw [List.countP_cons, ← ih, hread.value]
        cases hvalue : atom.value <;> simp [valuesOf, hvalue]
  rw [hlisted (forall₂_reads_of_listAtoms h)]
  exact (List.mergeSort_perm store.atoms AtomRow.le).countP_eq _

/-! ## The index afterwards -/

/-- The outcome of indexing again: rows, number and entries. -/
structure Reindexed (before after : Store) (count : Nat) : Prop where
  atoms : after.atoms = before.atoms
  cells : after.cells = before.cells
  count_eq : count = before.atoms.countP fun row => row.value.isSome
  /-- The table of the index is neither created nor dropped. -/
  isSome_index : after.index.isSome = before.index.isSome
  /-- The only entry of an atom with a value is that value. -/
  valued : ∀ entries, after.index = some entries → ∀ id text, before.HasValue id text →
    entries.filter (·.atom == id) = [{ atom := id, text }]
  /-- The entries of all other names stay. -/
  unvalued : ∀ prior entries, before.index = some prior → after.index = some entries →
    ∀ id, (∀ text, ¬before.HasValue id text) →
      entries.filter (·.atom == id) = prior.filter (·.atom == id)

theorem filter_entriesOf {valued : List (AtomId × String)}
    (hnodup : (valued.map Prod.fst).Nodup) (h : (id, text) ∈ valued) :
    (entriesOf valued).filter (·.atom == id) = [{ atom := id, text }] := by
  induction valued with
  | nil => simp at h
  | cons pair valued ih =>
      obtain ⟨hnew, hnodup⟩ := List.nodup_cons.mp hnodup
      rcases List.mem_cons.mp h with rfl | h
      · have hnone : (entriesOf valued).filter (·.atom == id) = [] := by
          rw [List.filter_eq_nil_iff]
          intro entry hentry hsame
          obtain ⟨other, hother, rfl⟩ := List.mem_map.mp hentry
          refine hnew (List.mem_map.mpr ⟨other, hother, ?_⟩)
          simpa using hsame
        rw [entriesOf, List.map_cons, List.filter_cons_of_pos (by simp)]
        exact congrArg _ hnone
      · have hne : pair.1 ≠ id := by
          rintro rfl
          exact hnew (List.mem_map.mpr ⟨_, h, rfl⟩)
        rw [entriesOf, List.map_cons, List.filter_cons_of_neg (by simpa using hne)]
        exact ih hnodup h

theorem index_of_reindex (hids : (before.atoms.map AtomRow.id).Nodup)
    (hrun : reindex before = .ok count after) :
    ∃ valued : List (AtomId × String), (valued.map Prod.fst).Nodup ∧
      (∀ id text, (id, text) ∈ valued ↔ before.HasValue id text) ∧
      count = valued.length ∧ count = before.atoms.countP (fun row => row.value.isSome) ∧
      after = { before with
        index := before.index.map fun prior =>
          prior.filter (fun entry => !(valued.map Prod.fst).contains entry.atom) ++
            entriesOf valued } := by
  obtain ⟨atoms, hatoms, rfl, rfl⟩ := reindex_eq_ok.mp hrun
  have hnodup := nodup_valuesOf_listAtoms hids hatoms
  exact ⟨valuesOf atoms, hnodup, fun _ _ => mem_valuesOf_listAtoms hids hatoms, rfl,
    length_valuesOf_listAtoms hatoms, foldl_indexText_eq hnodup⟩

theorem reindexed_of_ok (hids : (before.atoms.map AtomRow.id).Nodup)
    (hrun : reindex before = .ok count after) : Reindexed before after count := by
  obtain ⟨valued, hnodup, hvalued, -, hcount, rfl⟩ := index_of_reindex hids hrun
  constructor
  case atoms => rfl
  case cells => rfl
  case count_eq => exact hcount
  case isSome_index => exact Option.isSome_map
  case valued =>
    intro entries hentries id text hvalue
    obtain ⟨prior, -, rfl⟩ := Option.map_eq_some_iff.mp hentries
    have hmem := (hvalued id text).mpr hvalue
    have hnone : (prior.filter fun entry =>
        !(valued.map Prod.fst).contains entry.atom).filter (·.atom == id) = [] := by
      rw [List.filter_filter, List.filter_eq_nil_iff]
      intro entry _ hkept
      obtain ⟨hsame, hkept⟩ := Bool.and_eq_true_iff.mp hkept
      obtain rfl : entry.atom = id := by simpa using hsame
      simp [List.mem_map_of_mem (f := Prod.fst) hmem] at hkept
    rw [List.filter_append, hnone, List.nil_append, filter_entriesOf hnodup hmem]
  case unvalued =>
    intro prior entries hprior hentries id hnone
    have hother : ∀ pair ∈ valued, pair.1 ≠ id := by
      rintro pair hpair rfl
      exact hnone pair.2 ((hvalued _ _).mp hpair)
    simp only [hprior, Option.map_some, Option.some.injEq] at hentries
    have hwritten : (entriesOf valued).filter (·.atom == id) = [] := by
      rw [List.filter_eq_nil_iff]
      intro entry hentry hsame
      obtain ⟨pair, hpair, rfl⟩ := List.mem_map.mp hentry
      exact hother pair hpair (by simpa using hsame)
    rw [← hentries, List.filter_append, hwritten, List.append_nil, List.filter_filter]
    refine List.filter_congr fun entry _ => ?_
    by_cases hsame : entry.atom = id
    · subst hsame
      simpa using fun text hpair => hother _ hpair rfl
    · simp [hsame]

theorem Reindexed.hasValue_iff (h : Reindexed before after count) :
    after.HasValue id text ↔ before.HasValue id text := by
  have hatom : after.atom id = before.atom id := by
    simp only [Store.atom, Store.atom?, Store.atomRow?, h.atoms]
  rw [HasValue, HasValue, hatom]

/-- Once the index mirrors the atoms again, all entries before it were of atoms that have
a value. -/
theorem Reindexed.hasValue_of_mem (h : Reindexed before after count)
    {prior entries : List IndexRow} (hprior : before.index = some prior)
    (hentries : after.IndexedBy entries) {entry : IndexRow} (hentry : entry ∈ prior) :
    ∃ text, before.HasValue entry.atom text := by
  by_contra hnone
  have hkept := h.unvalued prior entries hprior hentries.index entry.atom (not_exists.mp hnone)
  have hmem : entry ∈ entries.filter (·.atom == entry.atom) := by
    rw [hkept]
    exact List.mem_filter.mpr ⟨hentry, by simp⟩
  exact hnone ⟨entry.text,
    h.hasValue_iff.mp ((hentries.mem_iff entry).mp (List.mem_filter.mp hmem).1)⟩

/-- If all entries before it were of atoms that have a value, the index mirrors the
atoms. -/
theorem Reindexed.indexedBy (h : Reindexed before after count) {prior entries : List IndexRow}
    (hprior : before.index = some prior)
    (hvalued : ∀ entry ∈ prior, ∃ text, before.HasValue entry.atom text)
    (hentries : after.index = some entries) : after.IndexedBy entries := by
  have hof : ∀ entry ∈ entries, ∃ text, before.HasValue entry.atom text := by
    intro entry hentry
    by_contra hnone
    have hkept := h.unvalued prior entries hprior hentries entry.atom (not_exists.mp hnone)
    have hmem : entry ∈ prior.filter (·.atom == entry.atom) := by
      rw [← hkept]
      exact List.mem_filter.mpr ⟨hentry, by simp⟩
    exact hnone (hvalued entry (List.mem_filter.mp hmem).1)
  constructor
  case index => exact hentries
  case once =>
    rw [List.nodup_iff_count_le_one]
    intro name
    by_cases hname : name ∈ entries.map IndexRow.atom
    · obtain ⟨entry, hentry, rfl⟩ := List.mem_map.mp hname
      obtain ⟨text, hvalue⟩ := hof entry hentry
      have honly := h.valued entries hentries _ _ hvalue
      rw [List.count, List.countP_map, List.countP_eq_length_filter]
      exact Nat.le_of_eq (congrArg List.length honly)
    · rw [List.count_eq_zero_of_not_mem hname]
      exact Nat.zero_le 1
  case mem_iff =>
    intro entry
    rw [h.hasValue_iff]
    have hmem {text : String} (hvalue : before.HasValue entry.atom text) :
        entry ∈ entries ↔ entry = { atom := entry.atom, text } := by
      rw [← List.mem_singleton, ← h.valued entries hentries _ _ hvalue, List.mem_filter]
      simp
    constructor
    · intro hentry
      obtain ⟨text, hvalue⟩ := hof entry hentry
      rw [(hmem hvalue).mp hentry]
      exact hvalue
    · exact fun hvalue => (hmem hvalue).mpr rfl

/-- Indexing again leaves all rows as they are, counts the atoms with a value, and gives
each of them its value as the only entry.  The index holds nothing else exactly if it is
there and each of its entries before was of an atom that has a value. -/
theorem reindex_mirrors_iff (hids : (before.atoms.map AtomRow.id).Nodup)
    (hrun : reindex before = .ok count after) :
    Reindexed before after count ∧
      ((∃ entries, after.IndexedBy entries) ↔
        ∃ prior, before.index = some prior ∧
          ∀ entry ∈ prior, ∃ text, before.HasValue entry.atom text) := by
  have h := reindexed_of_ok hids hrun
  refine ⟨h, ?_, ?_⟩
  · rintro ⟨entries, hentries⟩
    have hsome : before.index.isSome := by
      rw [← h.isSome_index, hentries.index]
      rfl
    obtain ⟨prior, hprior⟩ := Option.isSome_iff_exists.mp hsome
    exact ⟨prior, hprior, fun _ hentry => h.hasValue_of_mem hprior hentries hentry⟩
  · rintro ⟨prior, hprior, hvalued⟩
    have hsome : after.index.isSome := by
      rw [h.isSome_index, hprior]
      rfl
    obtain ⟨entries, hentries⟩ := Option.isSome_iff_exists.mp hsome
    exact ⟨entries, h.indexedBy hprior hvalued hentries⟩

/-- Two atoms; the index has an outdated and a repeated entry of the first, and none of
the second. -/
def sampleOutdated : Store where
  atoms := [.ofAtom { id := "a", value := some "new" }, .ofAtom { id := "b", value := some "own" }]
  index := some [{ atom := "a", text := "old" }, { atom := "a", text := "new" }]

theorem sample_reindexed :
    (sampleOutdated.atoms.map AtomRow.id).Nodup ∧
    ∃ after, reindex sampleOutdated = .ok 2 after ∧
      after.index = some [{ atom := "a", text := "new" }, { atom := "b", text := "own" }] ∧
      Reindexed sampleOutdated after 2 ∧
      ((∃ entries, after.IndexedBy entries) ↔
        ∃ prior, sampleOutdated.index = some prior ∧
          ∀ entry ∈ prior, ∃ text, sampleOutdated.HasValue entry.atom text) := by
  have hids : (sampleOutdated.atoms.map AtomRow.id).Nodup := by decide
  have hlist : sampleOutdated.listAtoms =
      .ok [{ id := "a", value := some "new" }, { id := "b", value := some "own" }] := by
    rw [listAtoms, List.mergeSort_of_pairwise (by decide +kernel)]
    rfl
  have hrun := reindex_eq_ok.mpr ⟨_, hlist, rfl, rfl⟩
  exact ⟨hids, _, hrun, by decide +kernel, reindex_mirrors_iff hids hrun⟩

/-- An atom gets a value and loses it again, which only a call that stores the row as it
is given can do. -/
def clearedCalls : List Call := [
  .createAtom (some "a") {},
  .updateAtRoot .everything "a" 0 { value := "first" },
  .updateAtom { id := "a" }]

/-- The entry of a lost value is still there when all values have been indexed again. -/
theorem reindex_keeps_lost_value :
    ∃ after, reindex (clearedCalls.foldl Call.run {}) = .ok 0 after ∧
      after.index = some [{ atom := "a", text := "first" }] ∧
      (∀ text, ¬after.HasValue "a" text) ∧ ¬∃ entries, after.IndexedBy entries := by
  have hlist : (clearedCalls.foldl Call.run {}).listAtoms =
      .ok [{ id := "a", created := 1000 }] := by decide +kernel
  have hatom : (clearedCalls.foldl Call.run {}).atom "a" = .ok { id := "a", created := 1000 } := by
    decide +kernel
  have hindex : (clearedCalls.foldl Call.run {}).index =
      some [{ atom := "a", text := "first" }] := by decide +kernel
  have hvalue : ∀ text, ¬(clearedCalls.foldl Call.run {}).HasValue "a" text := by
    rintro text ⟨atom, hfound, hvalue⟩
    cases hatom.symm.trans hfound
    cases hvalue
  refine ⟨_, reindex_eq_ok.mpr ⟨_, hlist, rfl, rfl⟩, hindex, hvalue, ?_⟩
  rintro ⟨entries, hentries⟩
  obtain rfl := Option.some.inj (hindex.symm.trans hentries.index)
  exact hvalue "first" ((hentries.mem_iff _).mp (List.mem_singleton_self _))

end Outline.Store
