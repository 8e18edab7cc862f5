import Mathlib.Data.List.Perm.Subperm
import Outline.Proofs.PlainSearches
import Outline.Proofs.TextIndex

/-!
# Finding what was stored

The index mirrors the values of the atoms, plain words are read back as they were written,
and a text holds the tokens of its words.  So a search for any words of the value of an atom
finds that atom, and finds it once, as long as it asks for enough atoms.
-/

namespace Outline

open Search Store

variable {store : Store} {entries : List IndexRow} {request : SearchRequest}
  {word text : List Char} {words : List (List Char)} {id : AtomId}

namespace Store

theorem IndexedBy.not_blank (h : store.IndexedBy entries) {entry : IndexRow}
    (hentry : entry ∈ entries) : ¬Text.isBlankText entry.atom := by
  obtain ⟨atom, hatom, -⟩ := (h.mem_iff entry).mp hentry
  rw [← id_of_atom hatom]
  exact (Atom.validate_eq_ok.mp (valid_of_atom hatom)).1

/-- There are no more entries than atoms. -/
theorem IndexedBy.length_le (h : store.IndexedBy entries) :
    entries.length ≤ store.atoms.length := by
  have hsubset : (entries.map IndexRow.atom).map .text ⊆ store.atoms.map AtomRow.id := by
    intro id hid
    obtain ⟨_, hname, rfl⟩ := List.mem_map.mp hid
    obtain ⟨entry, hentry, rfl⟩ := List.mem_map.mp hname
    obtain ⟨atom, hatom, -⟩ := (h.mem_iff entry).mp hentry
    exact hasAtom_iff_mem.mp (hasAtom_of_atom hatom)
  have honce := h.once.map fun _ _ => Datum.text.inj
  simpa using (honce.subperm hsubset).length_le

end Store

namespace SearchRequest

/-- A request for plain words and enough atoms finds the atoms whose entries match each
word. -/
theorem hits_perm (h : store.IndexedBy entries) (hplain : request.isExpression = false)
    (htext : Text.Spaced (word :: words) request.text.toList)
    (hnull : ∀ w ∈ word :: words, '\x00' ∉ w) (hlimit : entries.length ≤ request.limit) :
    ∃ ids, request.hits store = .ok ids ∧
      ids.Perm ((entries.filter fun entry => ∀ w ∈ word :: words,
        (Expression.ofWord w).Matches (Text.tokens entry.text.toList)).map IndexRow.atom) := by
  refine ⟨_, ?_, relevantAtoms_ofWords_perm entries word words⟩
  rw [hits_of_enough h.index hplain htext hnull hlimit]
  refine mapM_accept fun id hid => ?_
  obtain ⟨entry, hentry, rfl⟩ := mem_of_mem_relevantAtoms hid
  exact h.not_blank hentry

/-- The entry of a text matches each of the words of the text, unless a word has no tokens. -/
theorem matches_of_mem_words (hword : word ∈ Text.words text)
    (hletter : ∃ c ∈ word, Text.Token.isWordChar c) :
    (Expression.ofWord word).Matches (Text.tokens text) := by
  rw [Expression.matches_ofWord_iff, Text.tokens_ne_nil]
  refine ⟨hletter, ?_⟩
  obtain ⟨before, after, heq⟩ := List.append_of_mem hword
  rw [Text.tokens_eq text, heq, List.flatMap_append, List.flatMap_cons, ← List.append_assoc]
  exact ⟨_, _, rfl⟩

/-- Whatever calls have been made from a store without rows, but for those that store a row
as it is given, a search for some words of a value finds the atom with that value, and
finds it once. -/
theorem hits_of_words (references : ReferenceCheck) (supply : Supply) {calls : List Call}
    (hcalls : ∀ atom, Call.updateAtom atom ∉ calls) {value : String}
    (hvalue : (calls.foldl Call.run { references, supply }).HasValue id value)
    (hne : words ≠ [])
    (hwords : ∀ word ∈ words, word ∈ Text.words value.toList ∧ '\x00' ∉ word ∧
      ∃ c ∈ word, Text.Token.isWordChar c)
    (hplain : request.isExpression = false) (htext : Text.Spaced words request.text.toList)
    (hlimit : (calls.foldl Call.run { references, supply }).atoms.length ≤ request.limit) :
    ∃ ids, request.hits (calls.foldl Call.run { references, supply }) = .ok ids ∧
      ids.count id = 1 := by
  obtain ⟨entries, hentries⟩ := ((indexed_empty references supply).foldl_run hcalls).entries
  obtain ⟨first, later, rfl⟩ := List.exists_cons_of_ne_nil hne
  obtain ⟨ids, hids, hperm⟩ := hits_perm hentries hplain htext
    (fun w hw => (hwords w hw).2.1) (hentries.length_le.trans hlimit)
  have honce : ids.Nodup :=
    hperm.nodup_iff.mpr (hentries.once.sublist (List.filter_sublist.map _))
  have hfound : id ∈ ids := by
    have hentry := (hentries.mem_iff { atom := id, text := value }).mpr hvalue
    refine hperm.mem_iff.mpr (List.mem_map.mpr ⟨_, List.mem_filter.mpr ⟨hentry, ?_⟩, rfl⟩)
    refine decide_eq_true fun w hw => ?_
    obtain ⟨hmem, -, hletter⟩ := hwords w hw
    exact matches_of_mem_words hmem hletter
  exact ⟨ids, hids, List.count_eq_one_of_mem honce hfound⟩

/-- An atom with a value among whose words are a joiner, a quote and a parenthesis, and
another atom. -/
def sampleValued : List Call := [
  .createAtom (some "a") {},
  .createAtom (some "b") {},
  .updateAtAtom .everything (some "b") 0 { value := "say" },
  .updateAtAtom .everything (some "a") 0 { value := "they \"say\" AND NEAR( it's" }]

/-- Some of the words, in another order. -/
def sampleWords : List (List Char) :=
  [['N', 'E', 'A', 'R', '('], ['A', 'N', 'D'], ['"', 's', 'a', 'y', '"']]

def sampleRequest : SearchRequest where
  text := "  NEAR( AND\t\"say\" "
  limit := 2

theorem sample_hits_of_words :
    (∀ atom, Call.updateAtom atom ∉ sampleValued) ∧ sampleWords ≠ [] ∧
    (sampleValued.foldl Call.run {}).HasValue "a" "they \"say\" AND NEAR( it's" ∧
    (∀ word ∈ sampleWords, word ∈ Text.words "they \"say\" AND NEAR( it's".toList ∧
      '\x00' ∉ word ∧ ∃ c ∈ word, Text.Token.isWordChar c) ∧
    Text.Spaced sampleWords sampleRequest.text.toList ∧
    ∃ ids, sampleRequest.hits (sampleValued.foldl Call.run {}) = .ok ids ∧ ids.count "a" = 1 := by
  have hcalls : ∀ atom, Call.updateAtom atom ∉ sampleValued := by simp [sampleValued]
  have hne : sampleWords ≠ [] := by decide
  have hvalue : (sampleValued.foldl Call.run {}).HasValue "a" "they \"say\" AND NEAR( it's" :=
    (hasValue_iff ((indexed_empty .immediate {}).foldl_run hcalls).wellFormed).mpr
      (by decide +kernel)
  have hwords : ∀ word ∈ sampleWords, word ∈ Text.words "they \"say\" AND NEAR( it's".toList ∧
      '\x00' ∉ word ∧ ∃ c ∈ word, Text.Token.isWordChar c := by
    have hsplit : Text.words "they \"say\" AND NEAR( it's".toList =
        ['t', 'h', 'e', 'y'] :: sampleWords.reverse ++ [['i', 't', '\'', 's']] := by
      decide +kernel
    have hletters : ∀ word ∈ sampleWords, '\x00' ∉ word ∧ ∃ c ∈ word, Text.Token.isWordChar c :=
      List.forall_mem_cons.mpr ⟨⟨by decide, 'N', by decide, by decide⟩,
        List.forall_mem_cons.mpr ⟨⟨by decide, 'A', by decide, by decide⟩,
          List.forall_mem_singleton.mpr ⟨by decide, 's', by decide, by decide⟩⟩⟩
    intro word hword
    rw [hsplit]
    exact ⟨by simp [hword], hletters word hword⟩
  have htext : Text.Spaced sampleWords sampleRequest.text.toList :=
    Text.spaced_iff.mpr (by decide +kernel)
  exact ⟨hcalls, hne, hvalue, hwords, htext,
    hits_of_words .immediate {} hcalls hvalue hne hwords rfl htext (by decide +kernel)⟩

end SearchRequest

end Outline
