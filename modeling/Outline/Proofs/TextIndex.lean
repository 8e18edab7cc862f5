import Outline.Proofs.Calls
import Outline.Proofs.Properties

/-!
# The full-text index beside the atoms

The values of atoms are stored twice: in their rows, and as entries of the full-text
index, which are written after the rows and by statements of their own.  Whatever
calls are made, the index has one entry for each atom with a value, which is the value
that the atom has then.  Only a call that stores the row of an atom as it is given goes
past the index.
-/

namespace Outline

namespace Store

/-- An atom has a text as its value. -/
def HasValue (store : Store) (id : AtomId) (text : String) : Prop :=
  ∃ atom, store.atom id = .ok atom ∧ atom.value = some text

/-- The entries of the index are the values of the atoms, one for each atom that has one. -/
structure IndexedBy (store : Store) (entries : List IndexRow) : Prop where
  index : store.index = some entries
  once : (entries.map IndexRow.atom).Nodup
  mem_iff : ∀ entry, entry ∈ entries ↔ store.HasValue entry.atom entry.text

/-- A well-formed store in which the index mirrors the atoms. -/
structure Indexed (store : Store) : Prop where
  wellFormed : store.WellFormed
  entries : ∃ entries, store.IndexedBy entries

/-- What the row of an atom says about its value. -/
def storedValue (store : Store) (id : AtomId) : Option Datum :=
  (store.atomRow? id).bind AtomRow.value

variable {store before after : Store} {id owner : AtomId} {text text' : String}
  {defaults : Defaults}

theorem storedValue_of_atom {atom : Atom} (h : store.atom id = .ok atom) :
    store.storedValue id = atom.value.map .text := by
  obtain ⟨row, hrow, hread⟩ := atom_eq_ok_iff_atomRow?.mp h
  rw [storedValue, hrow]
  exact (AtomRow.toAtom_eq_ok.mp hread).value

theorem hasValue_iff (h : store.WellFormed) :
    store.HasValue id text ↔ store.storedValue id = some (.text text) := by
  constructor
  · rintro ⟨atom, hatom, hvalue⟩
    rw [storedValue_of_atom hatom, hvalue, Option.map_some]
  · intro hvalue
    have hid : store.HasAtom id := by
      by_contra hno
      rw [storedValue, atomRow?_eq_none.mpr hno] at hvalue
      cases hvalue
    obtain ⟨atom, hatom, -, -⟩ := h.arranged.exists_atom hid
    rw [storedValue_of_atom hatom] at hvalue
    obtain ⟨found, hfound, heq⟩ := Option.map_eq_some_iff.mp hvalue
    exact ⟨atom, hatom, by rw [hfound, Datum.text.inj heq]⟩

theorem HasValue.unique (h : store.HasValue id text) (h' : store.HasValue id text') :
    text = text' := by
  obtain ⟨atom, hatom, hvalue⟩ := h
  obtain ⟨atom', hatom', hvalue'⟩ := h'
  cases hatom.symm.trans hatom'
  exact Option.some.inj (hvalue.symm.trans hvalue')

/-! ## Steps that change no value -/

theorem Indexed.of_storedValue (h : before.Indexed) (hafter : after.WellFormed)
    (hindex : after.index = before.index)
    (hvalues : ∀ id, after.storedValue id = before.storedValue id) : after.Indexed := by
  obtain ⟨entries, hentries⟩ := h.entries
  refine ⟨hafter, entries, hindex.trans hentries.index, hentries.once, fun entry => ?_⟩
  rw [hentries.mem_iff, hasValue_iff h.wellFormed, hasValue_iff hafter, hvalues]

/-- Rows that agree but for the list pointer have the same value. -/
theorem storedValue_eq_of_withoutNotes (h : (after.atomRow? id).map AtomRow.withoutNotes =
    (before.atomRow? id).map AtomRow.withoutNotes) :
    after.storedValue id = before.storedValue id := by
  have hvalue : ∀ row : Option AtomRow,
      row.bind AtomRow.value = (row.map AtomRow.withoutNotes).bind AtomRow.value := by
    intro row
    cases row <;> rfl
  rw [storedValue, storedValue, hvalue, h, ← hvalue]

/-- A new atom has no value. -/
theorem Edited.storedValue_eq {created : List AtomId}
    (h : Edited defaults owner created before after) (id : AtomId) :
    after.storedValue id = before.storedValue id := by
  by_cases hid : before.HasAtom id
  · exact storedValue_eq_of_withoutNotes (h.properties id hid)
  · have hnone : before.storedValue id = none := by
      rw [storedValue, atomRow?_eq_none.mpr hid, Option.bind_none]
    rw [hnone]
    by_cases hnew : id ∈ created
    · obtain ⟨time, hrow⟩ := h.new id hnew
      obtain ⟨row, hfound, heq⟩ := Option.map_eq_some_iff.mp hrow
      rw [storedValue, hfound]
      exact congrArg AtomRow.value heq
    · have hno : ¬after.HasAtom id := fun hatom => (h.hasAtom_iff.mp hatom).elim hid hnew
      rw [storedValue, atomRow?_eq_none.mpr hno, Option.bind_none]

theorem Relisted.indexed {places : List Place} (h : Relisted before after owner places)
    (hbefore : before.Indexed) : after.Indexed :=
  hbefore.of_storedValue h.wellFormed h.relinked.index fun id =>
    storedValue_eq_of_withoutNotes (h.relinked.withoutNotes_atomRow? id)

theorem keptByEdits_indexed (defaults : Defaults) (owner : AtomId) :
    KeptByEdits defaults owner Indexed where
  createAtom id store h := by
    have hwf := keeps_wellFormed_createAtom id defaults store h.wellFormed
    cases hrun : createAtom id defaults store with
    | ok atom store' =>
        have hedited : Edited defaults owner [atom.id] store store' :=
          edited_createAtom h.wellFormed hrun
        obtain ⟨-, -, -, rfl⟩ := createAtom_eq_ok hrun
        exact h.of_storedValue hedited.wellFormed rfl hedited.storedValue_eq
    | error cause store' =>
        obtain ⟨supply, rfl⟩ := createAtom_eq_error hrun
        exact h.of_storedValue (h.wellFormed.of_rows rfl rfl) rfl fun _ => rfl
  insertAt position child store h := by
    rcases insertAt_cases h.wellFormed owner position child with
      ⟨_, _, cell, store', -, hrun, hrelisted⟩ | ⟨cause, supply, hrun⟩
    · rw [hrun]
      exact hrelisted.indexed h
    · rw [hrun]
      exact h.of_storedValue (h.wellFormed.of_rows rfl rfl) rfl fun _ => rfl
  deleteAt position store h := by
    rcases deleteAt_cases h.wellFormed owner position with
      ⟨_, _, _, store', -, hrun, hrelisted⟩ | ⟨cause, hrun⟩
    · rw [hrun]
      exact hrelisted.indexed h
    · rw [hrun]
      exact h

/-! ## Steps that write entries -/

/-- The entry of an atom gives way to its new value. -/
theorem Indexed.withText (h : before.Indexed) (hafter : after.WellFormed)
    (hindex : after.index = (before.indexText id text).index) (hself : after.HasValue id text)
    (hothers : ∀ other, other ≠ id → after.storedValue other = before.storedValue other) :
    after.Indexed := by
  obtain ⟨entries, hentries⟩ := h.entries
  refine ⟨hafter, entries.filter (·.atom != id) ++ [{ atom := id, text }], ?_, ?_, ?_⟩
  · rw [hindex, indexText, hentries.index, Option.map_some]
  · rw [List.map_append, List.map_singleton]
    refine (hentries.once.sublist (List.filter_sublist.map _)).append (List.nodup_singleton _) ?_
    intro name hname hself
    obtain ⟨entry, hentry, rfl⟩ := List.mem_map.mp hname
    simp [List.mem_singleton.mp hself] at hentry
  · intro entry
    rw [List.mem_append, List.mem_filter, List.mem_singleton, hentries.mem_iff]
    by_cases hid : entry.atom = id
    · constructor
      · rintro (⟨-, hne⟩ | rfl)
        · simp [hid] at hne
        · exact hself
      · intro hvalue
        refine Or.inr ?_
        cases entry
        dsimp only at hid hvalue
        subst hid
        rw [hvalue.unique hself]
    · have hne : entry ≠ { atom := id, text } := fun heq => hid (congrArg IndexRow.atom heq)
      rw [hasValue_iff h.wellFormed, hasValue_iff hafter, hothers entry.atom hid]
      simp [hid, hne]

/-- An entry that is written again says what it said. -/
theorem Indexed.indexText (h : store.Indexed) (hvalue : store.HasValue id text) :
    (store.indexText id text).Indexed :=
  h.withText (h.wellFormed.of_rows rfl rfl) rfl hvalue fun _ _ => rfl

theorem Indexed.foldl_indexText {valued : List (AtomId × String)} (h : store.Indexed)
    (hvalued : ∀ pair ∈ valued, store.HasValue pair.1 pair.2) :
    (valued.foldl (fun store (id, value) => store.indexText id value) store).Indexed := by
  induction valued generalizing store with
  | nil => exact h
  | cons pair valued ih =>
      obtain ⟨hfirst, hrest⟩ := List.forall_mem_cons.mp hvalued
      exact ih (h.indexText hfirst) hrest

/-- Every atom that is listed is stored as it is listed. -/
theorem atom_of_mem_listAtoms (h : store.WellFormed) {atoms : List Atom}
    (hlist : store.listAtoms = .ok atoms) {atom : Atom} (hatom : atom ∈ atoms) :
    store.atom atom.id = .ok atom := by
  obtain ⟨row, hrow, hread⟩ := (mem_of_mapM_eq_ok hlist).mp hatom
  exact h.atom_eq ⟨row, List.mem_mergeSort.mp hrow, hread⟩

theorem keeps_indexed_reindex : Keeps Indexed reindex := by
  intro store h
  refine finalState_look_bind h fun atoms hatoms => ?_
  apply h.foldl_indexText
  intro pair hpair
  obtain ⟨atom, hatom, hvalue⟩ := List.mem_filterMap.mp hpair
  obtain ⟨value, hsome, rfl⟩ := Option.map_eq_some_iff.mp hvalue
  exact ⟨atom, atom_of_mem_listAtoms h.wellFormed hatoms hatom, hsome⟩

/-- An atom goes with its entry. -/
theorem Indexed.withoutAtom (h : store.Indexed) (hafter : (store.withoutAtom id).WellFormed) :
    (store.withoutAtom id).Indexed := by
  obtain ⟨entries, hentries⟩ := h.entries
  refine ⟨hafter, entries.filter (·.atom != id), ?_, ?_, ?_⟩
  · rw [Store.withoutAtom, hentries.index, Option.map_some]
  · exact hentries.once.sublist (List.filter_sublist.map _)
  · intro entry
    rw [List.mem_filter, hentries.mem_iff, hasValue_iff h.wellFormed, hasValue_iff hafter,
      storedValue, storedValue, atomRow?_withoutAtom]
    by_cases hid : entry.atom = id
    · simp [hid]
    · simp [hid]

theorem keeps_indexed_removeAtom (id : AtomId) : Keeps Indexed (removeAtom id) := by
  intro store h
  have hwf := keeps_wellFormed_removeAtom id store h.wellFormed
  rcases removeAtom_cases store id with hsame | hgone
  · rw [hsame]
    exact h
  · rw [hgone] at hwf ⊢
    exact h.withoutAtom hwf

end Store

namespace Update

open Store

/-- Storing the properties of an atom writes an entry if the value changes. -/
theorem keeps_indexed_storeProperties (id : AtomId) (note : Note) :
    Keeps (OfStore Indexed) (storeProperties id note) := by
  intro progress h
  have hwf := Indexed.wellFormed h
  cases hrun : storeProperties id note progress with
  | error cause progress' =>
      rw [(storeProperties_eq_error hrun).1]
      exact h
  | ok atom progress' =>
      obtain ⟨stored, hstored, -, -, hsynced⟩ := storeProperties_synced hwf hrun
      obtain ⟨old, new, hold, hnew, hcarries⟩ := hsynced.carries
      obtain rfl : stored = old := Except.ok.inj (hstored.symm.trans hold)
      have hothers : ∀ other, other ≠ id →
          progress'.store.storedValue other = progress.store.storedValue other :=
        fun other hother => by rw [storedValue, storedValue, hsynced.rows other hother]
      have hindex : progress'.store.index = indexAfter id note stored progress.store := by
        obtain ⟨stored', store, hstored', -, -, -, rfl⟩ := storeProperties_eq_ok hrun
        cases hstored.symm.trans hstored'
        rfl
      by_cases hchanges : changesText note.value stored.value
      · obtain ⟨text, htext⟩ := exists_of_changesText hchanges
        rw [indexAfter, if_pos hchanges, htext] at hindex
        refine Indexed.withText h hsynced.wellFormed hindex ⟨new, hnew, ?_⟩ hothers
        rw [hcarries.value, htext]
        rfl
      · rw [indexAfter, if_neg hchanges] at hindex
        refine Indexed.of_storedValue h hsynced.wellFormed hindex fun other => ?_
        by_cases hother : other = id
        · subst hother
          change progress'.store.storedValue other = _
          rw [storedValue_of_atom hnew, storedValue_of_atom hold, hcarries.value,
            ← eq_of_not_changesText (by simpa using hchanges)]
        · exact hothers other hother

theorem keptBySteps_indexed (visibility : Visibility) :
    KeptBySteps visibility (OfStore Indexed) :=
  ⟨keeps_indexed_storeProperties, fun parent => keeps_applyEdit (keptByEdits_indexed _ parent)⟩

end Update

namespace Store

variable {store : Store}

/-- Every call but one that stores a row as it is given keeps the index in step. -/
theorem Indexed.run (h : store.Indexed) (call : Call) (hcall : ∀ atom, call ≠ .updateAtom atom) :
    (Call.run store call).Indexed := by
  cases call with
  | createAtom id defaults => exact (keptByEdits_indexed defaults "").createAtom id store h
  | updateAtom atom => exact absurd rfl (hcall atom)
  | removeAtom id => exact keeps_indexed_removeAtom id store h
  | insertAt owner position child =>
      exact (keptByEdits_indexed {} owner).insertAt position child store h
  | deleteAt owner position => exact (keptByEdits_indexed {} owner).deleteAt position store h
  | updateAtRoot visibility id depth note =>
      exact Update.atRootWith_keeps (Update.keptBySteps_indexed visibility) _ id _ note store h
  | updateAtAtom visibility id depth note =>
      exact Update.atAtomWith_keeps (Update.keptBySteps_indexed visibility) _ id _ note store h
  | reindex => exact keeps_indexed_reindex store h

theorem indexed_empty (references : ReferenceCheck) (supply : Supply) :
    ({ references, supply } : Store).Indexed := by
  have hvalue : ∀ id text, ¬({ references, supply } : Store).HasValue id text := by
    rintro id text ⟨atom, hatom, -⟩
    cases hatom
  exact ⟨wellFormed_empty references supply, [], rfl, List.nodup_nil, fun entry => by
    simp [hvalue]⟩

theorem Indexed.foldl_run {calls : List Call} (hcalls : ∀ atom, Call.updateAtom atom ∉ calls)
    (h : store.Indexed) : (calls.foldl Call.run store).Indexed := by
  induction calls generalizing store with
  | nil => exact h
  | cons call calls ih =>
      apply ih
      · exact fun atom hmem => hcalls atom (List.mem_cons_of_mem _ hmem)
      · refine h.run call ?_
        rintro atom rfl
        exact hcalls atom List.mem_cons_self

/-- Whatever calls are made from a store without rows, in whatever order and with
whatever arguments, and whether they succeed or fail, the index has one entry for each
atom with a value, and no other. -/
theorem indexedBy_of_calls (references : ReferenceCheck) (supply : Supply) {calls : List Call}
    (hcalls : ∀ atom, Call.updateAtom atom ∉ calls) :
    ∃ entries, (calls.foldl Call.run { references, supply }).IndexedBy entries :=
  ((indexed_empty references supply).foldl_run hcalls).entries

/-- An atom gets two children; one is taken out and removed, and the other gets a value. -/
def sampleCalls : List Call := [
  .createAtom (some "a") {},
  .updateAtAtom .everything (some "a") 1 {
    value := "first"
    children := [{ id := some "b", value := "second" }, { id := some "c" }] },
  .updateAtAtom .everything (some "a") 1 { children := [{ id := some "c" }] },
  .removeAtom "b",
  .updateAtAtom .everything (some "c") 0 { value := "third" }]

theorem sample_indexedBy :
    (∀ atom, Call.updateAtom atom ∉ sampleCalls) ∧
    (sampleCalls.foldl Call.run {}).index =
      some [{ atom := "a", text := "first" }, { atom := "c", text := "third" }] ∧
    ∃ entries, (sampleCalls.foldl Call.run {}).IndexedBy entries := by
  have hcalls : ∀ atom, Call.updateAtom atom ∉ sampleCalls := by simp [sampleCalls]
  exact ⟨hcalls, by decide +kernel, indexedBy_of_calls .immediate {} hcalls⟩

end Store

end Outline
