import Outline.Proofs.ByAge
import Outline.Proofs.QueryGrammar

/-!
# Conjunctions of property queries

Two queries with terms that are written one after the other, with white space or the word
`and` between them, are one query for the terms of both.  Nothing is read differently
across the joint, since a sentence ends with a term and only then with white space.  So the
atoms that answer the longer query are those that answer both parts.
-/

namespace Outline.PropertyQuery

variable {query : String} {store : Store} {found found' : List QueryTerm}
  {s s' gap between : List Char} {atoms : List Atom}

/-! ## Sentences one after the other -/

theorem IsGap.append (h : IsGap s) (h' : IsGap s') : IsGap (s ++ s') :=
  List.forall_mem_append.mpr ⟨h, h'⟩

/-- White space after a sentence belongs to it. -/
theorem Sentence.append_gap (h : Sentence found s) (hgap : IsGap gap) :
    Sentence found (s ++ gap) := by
  cases h with
  | blank hs => exact .blank (hs.append hgap)
  | term h hjoiner hwritten hfield hlast =>
      have hlonger := h.term hjoiner hwritten hfield (hlast.append hgap)
      simpa only [List.append_assoc] using hlonger

theorem Sentence.isGap (h : Sentence [] s) : IsGap s := by
  generalize hnone : ([] : List QueryTerm) = none at h
  cases h with
  | blank hgap => exact hgap
  | term => simp at hnone

/-- What may stand between two sentences: white space, and perhaps the word `and` after it. -/
inductive Joins : List Char → Prop
  | gap {gap : List Char} (hgap : IsGap gap) : Joins gap
  | word {gap joiner : List Char} (hgap : IsGap gap) (hjoiner : IsJoiner joiner) :
      Joins (gap ++ joiner)

theorem IsJoiner.append_gap {joiner : List Char} (h : IsJoiner joiner) (hgap : IsGap gap) :
    IsJoiner (joiner ++ gap) := by
  obtain ⟨hword, hne, hfirst⟩ := h
  rw [List.append_assoc]
  exact .mk hword (by simp [hne]) (hfirst.append hgap)

/-- A sentence goes on with another one.  The white space that the second begins with comes
under the joint. -/
theorem Sentence.append (h : Sentence found s) (hne : found ≠ []) (hbetween : Joins between)
    (h' : Sentence found' s') (hne' : found' ≠ []) :
    Sentence (found ++ found') (s ++ (between ++ s')) := by
  induction h' with
  | blank => exact absurd rfl hne'
  | @term earlier s' joiner name text written gap field hearlier hjoiner hwritten hfield hgap ih =>
      rw [← List.append_assoc]
      by_cases hfirst : earlier = []
      · subst hfirst
        obtain rfl : joiner = [] := hjoiner.resolve_right fun hjoined => hjoined.1 rfl
        have hs' := hearlier.isGap
        cases hbetween with
        | gap hgap' =>
            have hterm := (h.append_gap (hgap'.append hs')).term (.inl rfl) hwritten hfield hgap
            simpa only [List.append_assoc, List.nil_append] using hterm
        | word hgap' hword =>
            have hterm := (h.append_gap hgap').term (.inr ⟨hne, hword.append_gap hs'⟩) hwritten
              hfield hgap
            simpa only [List.append_assoc, List.nil_append] using hterm
      · have hmayJoin : MayJoin (found ++ earlier) joiner :=
          hjoiner.imp id fun hjoined => ⟨by simp [hne], hjoined.2⟩
        have hterm := (ih hfirst).term hmayJoin hwritten hfield hgap
        simpa only [List.append_assoc] using hterm

/-- A query that is accepted is a sentence. -/
theorem sentence_of_terms (h : terms query = .ok found) : Sentence found query.toList := by
  obtain ⟨found', hsentence⟩ | ⟨_, _, _, cause, heq, hdue, hoffence⟩ := sentence_or_offence query
  · cases hsentence.terms_eq.symm.trans h
    exact hsentence
  · cases (hdue.terms_eq heq hoffence).symm.trans h

theorem terms_append {first second joint : String} (hfirst : terms first = .ok found)
    (hne : found ≠ []) (hsecond : terms second = .ok found') (hne' : found' ≠ [])
    (hjoint : Joins joint.toList) : terms (first ++ joint ++ second) = .ok (found ++ found') := by
  refine Sentence.terms_eq ?_
  have hboth := (sentence_of_terms hfirst).append hne hjoint (sentence_of_terms hsecond) hne'
  rwa [String.toList_append, String.toList_append, List.append_assoc]

theorem joins_blank : Joins " ".toList :=
  .gap (by simp [IsGap]; decide)

theorem joins_and : Joins " and ".toList := by
  have hblank : IsGap [' '] := by simp [IsGap]; decide
  have hword : Text.asciiLowerCase ['a', 'n', 'd'] = ['a', 'n', 'd'] := by decide
  exact .word hblank (.mk hword (by simp) hblank)

/-! ## Atoms that answer both -/

/-- A query with terms is answered by the listed atoms that meet all of them. -/
theorem candidates_eq (h : terms query = .ok found) (hne : found ≠ []) :
    candidates query store =
      match store.listAtoms with
      | .ok atoms => .ok ((atoms.filter fun atom => found.all (·.holds atom)).map Atom.id)
      | .error cause => .error (.store cause) := by
  obtain ⟨term, later, rfl⟩ := List.exists_cons_of_ne_nil hne
  rw [candidates, h]
  cases store.listAtoms <;> rfl

/-- The atoms that meet the conditions of both queries are those that answer both, since
no two atoms have the same identifier. -/
theorem mem_filter_append_iff (hnames : (atoms.map Atom.id).Nodup) {id : AtomId} :
    id ∈ (atoms.filter fun atom => (found ++ found').all (·.holds atom)).map Atom.id ↔
      id ∈ (atoms.filter fun atom => found.all (·.holds atom)).map Atom.id ∧
        id ∈ (atoms.filter fun atom => found'.all (·.holds atom)).map Atom.id := by
  simp only [List.mem_map, List.mem_filter, List.all_append, Bool.and_eq_true]
  constructor
  · rintro ⟨atom, ⟨hatom, hfound, hfound'⟩, rfl⟩
    exact ⟨⟨atom, ⟨hatom, hfound⟩, rfl⟩, ⟨atom, ⟨hatom, hfound'⟩, rfl⟩⟩
  · rintro ⟨⟨atom, ⟨hatom, hfound⟩, rfl⟩, ⟨other, ⟨hother, hfound'⟩, hsame⟩⟩
    obtain rfl := List.inj_on_of_nodup_map hnames hother hatom hsame
    exact ⟨other, ⟨hother, hfound, hfound'⟩, rfl⟩

/-- Two queries with terms, written one after the other with a blank or the word `and`
between them, are a query for the terms of both.  It is answered by the atoms that answer
both of them, each once and by age.  Where the atoms cannot be listed, all three fail for
the same cause. -/
theorem candidates_of_both {first second joint : String}
    (hids : (store.atoms.map AtomRow.id).Nodup) (hfirst : terms first = .ok found)
    (hne : found ≠ []) (hsecond : terms second = .ok found') (hne' : found' ≠ [])
    (hjoint : joint = " and " ∨ joint = " ") :
    terms (first ++ joint ++ second) = .ok (found ++ found') ∧
      (∀ atoms, store.listAtoms = .ok atoms → ∃ ids ids' both,
        candidates first store = .ok ids ∧ candidates second store = .ok ids' ∧
          candidates (first ++ joint ++ second) store = .ok both ∧
          (∀ id, id ∈ both ↔ id ∈ ids ∧ id ∈ ids') ∧ both.Nodup ∧ store.InOrderOfAge both) ∧
      ∀ cause, store.listAtoms = .error cause →
        ∀ query ∈ [first, second, first ++ joint ++ second],
          candidates query store = .error (.store cause) := by
  have hjoins : Joins joint.toList := by
    obtain rfl | rfl := hjoint
    · exact joins_and
    · exact joins_blank
  have hboth := terms_append hfirst hne hsecond hne' hjoins
  have hneBoth : found ++ found' ≠ [] := by simp [hne]
  refine ⟨hboth, fun atoms hatoms => ?_, fun cause hcause => ?_⟩
  · have hnames := Store.nodup_listAtoms hids hatoms
    refine ⟨_, _, _, by rw [candidates_eq hfirst hne, hatoms],
      by rw [candidates_eq hsecond hne', hatoms], by rw [candidates_eq hboth hneBoth, hatoms],
      fun id => mem_filter_append_iff hnames, ?_, Store.inOrderOfAge_filter hids hatoms _⟩
    exact hnames.sublist (List.filter_sublist.map _)
  · simp only [List.forall_mem_cons, List.not_mem_nil, false_imp_iff, implies_true, and_true]
    rw [candidates_eq hfirst hne, candidates_eq hsecond hne', candidates_eq hboth hneBoth, hcause]
    exact ⟨rfl, rfl, rfl⟩

/-- Three atoms of one age; the text `and` is in the values of all of them. -/
def sampleWords : Store where
  atoms := [
    .ofAtom { id := "c", value := some "Salt and C", byname := some "lang", created := 7 },
    .ofAtom { id := "b", value := some "Bed and B", created := 7 },
    .ofAtom { id := "a", value := some "SAND", byname := some "Languid", created := 7 }]

/-- The text of the first query is like a joint, white space is at the end of it, and more
of it at the beginning of the second one. -/
theorem sample_candidates_of_both :
    (sampleWords.atoms.map AtomRow.id).Nodup ∧
      terms "VALUE = \" and\" " = .ok [{ field := .value, needle := [' ', 'a', 'n', 'd'] }] ∧
      terms "  alias=\"LANG\"" = .ok [{ field := .byname, needle := ['l', 'a', 'n', 'g'] }] ∧
      terms ("VALUE = \" and\" " ++ " and " ++ "  alias=\"LANG\"") =
        .ok [{ field := .value, needle := [' ', 'a', 'n', 'd'] },
          { field := .byname, needle := ['l', 'a', 'n', 'g'] }] ∧
      candidates "VALUE = \" and\" " sampleWords = .ok ["b", "c"] ∧
      candidates "  alias=\"LANG\"" sampleWords = .ok ["a", "c"] ∧
      candidates ("VALUE = \" and\" " ++ " and " ++ "  alias=\"LANG\"") sampleWords = .ok ["c"] ∧
      (∀ id, id ∈ ["c"] ↔ id ∈ ["b", "c"] ∧ id ∈ ["a", "c"]) ∧ ["c"].Nodup ∧
      sampleWords.InOrderOfAge ["c"] := by
  have hids : (sampleWords.atoms.map AtomRow.id).Nodup := by decide
  have hfirst : terms "VALUE = \" and\" " =
      .ok [{ field := .value, needle := [' ', 'a', 'n', 'd'] }] := by
    decide +kernel
  have hsecond : terms "  alias=\"LANG\"" =
      .ok [{ field := .byname, needle := ['l', 'a', 'n', 'g'] }] := by
    decide +kernel
  have hsorted : sampleWords.atoms.mergeSort AtomRow.le = sampleWords.atoms.reverse := by
    simp +decide [sampleWords, List.mergeSort, List.MergeSort.Internal.splitInTwo]
  have hatoms : sampleWords.listAtoms = .ok [
      { id := "a", value := some "SAND", byname := some "Languid", created := 7 },
      { id := "b", value := some "Bed and B", created := 7 },
      { id := "c", value := some "Salt and C", byname := some "lang", created := 7 }] := by
    rw [Store.listAtoms, hsorted]
    rfl
  obtain ⟨hboth, hlisted, -⟩ :=
    candidates_of_both hids hfirst (by simp) hsecond (by simp) (Or.inl (Eq.refl " and "))
  obtain ⟨ids, ids', both, hanswer, hanswer', hanswers, hmem, hnodup, hage⟩ := hlisted _ hatoms
  have hbc : candidates "VALUE = \" and\" " sampleWords = .ok ["b", "c"] := by
    rw [candidates_eq hfirst (by simp), hatoms]
    decide +kernel
  have hac : candidates "  alias=\"LANG\"" sampleWords = .ok ["a", "c"] := by
    rw [candidates_eq hsecond (by simp), hatoms]
    decide +kernel
  have hc : candidates ("VALUE = \" and\" " ++ " and " ++ "  alias=\"LANG\"") sampleWords =
      .ok ["c"] := by
    rw [candidates_eq hboth (by simp), hatoms]
    decide +kernel
  obtain rfl := Except.ok.inj (hbc.symm.trans hanswer)
  obtain rfl := Except.ok.inj (hac.symm.trans hanswer')
  obtain rfl := Except.ok.inj (hc.symm.trans hanswers)
  exact ⟨hids, hfirst, hsecond, hboth, hbc, hac, hc, hmem, hnodup, hage⟩

end Outline.PropertyQuery
