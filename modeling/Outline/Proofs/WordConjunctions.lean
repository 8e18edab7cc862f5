import Mathlib.Data.List.Nodup
import Outline.Proofs.PlainSearches

/-!
# Conjunctions of words

A search for plain words finds the atoms of the rows that hold every one of the words, where a
row holds a word if the tokens of the word follow each other in it.  So it finds what the searches
for the single words have in common.  The order of the words, their repetition and the white space
between them do not count, and no word is anything but a word.
-/

namespace Outline

open Search

/-- A row holds a word: the tokens of the word follow each other in it.  A word without tokens is
held by no row. -/
def IndexRow.Holds (row : IndexRow) (word : List Char) : Prop :=
  Text.tokens word ≠ [] ∧ Text.tokens word <:+: Text.tokens row.text.toList

instance (row : IndexRow) (word : List Char) : Decidable (row.Holds word) :=
  inferInstanceAs (Decidable (_ ∧ _))

namespace SearchRequest

variable {store : Store} {rows : List IndexRow} {request other : SearchRequest}
  {words others : List (List Char)}

/-- A request for one or more words, and for at least as many atoms as there are rows. -/
structure AsksFor (request : SearchRequest) (rows : List IndexRow) (words : List (List Char)) :
    Prop where
  plain : request.isExpression = false
  text : Text.Spaced words request.text.toList
  notBlank : words ≠ []
  noNull : '\x00' ∉ request.text.toList
  enough : rows.length ≤ request.limit

/-- Each atom whose row holds all the words is found once, as long as its identifier is not
blank. -/
theorem AsksFor.exists_hits (h : request.AsksFor rows words) (hindex : store.index = some rows)
    (honce : (rows.map IndexRow.atom).Nodup) :
    ∃ relevant : List AtomId, relevant.Nodup ∧
      (∀ id, id ∈ relevant ↔ ∃ row ∈ rows, row.atom = id ∧ ∀ w ∈ words, row.Holds w) ∧
      request.hits store = relevant.mapM accept := by
  obtain ⟨word, later, rfl⟩ := List.exists_cons_of_ne_nil h.notBlank
  have hnull : ∀ w ∈ word :: later, '\x00' ∉ w := fun w hw hmem =>
    h.noNull ((null_mem_iff h.text).mpr ⟨w, hw, hmem⟩)
  have hperm := relevantAtoms_ofWords_perm rows word later
  refine ⟨_, ?_, fun id => ?_, hits_of_enough hindex h.plain h.text hnull h.enough⟩
  · exact hperm.nodup_iff.mpr (honce.sublist (List.filter_sublist.map _))
  · simp only [hperm.mem_iff, List.mem_map, List.mem_filter, decide_eq_true_eq,
      Expression.matches_ofWord_iff, IndexRow.Holds, and_assoc]
    exact exists_congr fun row => and_congr_right fun _ => and_comm

/-- What a search for some words has to do with the rows and with other searches. -/
structure FindsAll (request : SearchRequest) (store : Store) (rows : List IndexRow)
    (words : List (List Char)) : Prop where
  /-- The atoms of the rows that hold all the words are found, each once. -/
  found : ∀ ids, request.hits store = .ok ids → ids.Nodup ∧
    ∀ id, id ∈ ids ↔ ∃ row ∈ rows, row.atom = id ∧ ∀ w ∈ words, row.Holds w
  /-- The search is refused only if one of these atoms has a blank identifier. -/
  refused : ∀ cause, request.hits store = .error cause ↔ cause = .blankAtom ∧
    ∃ row ∈ rows, Text.isBlankText row.atom ∧ ∀ w ∈ words, row.Holds w
  /-- What is found is what the searches for the single words have in common. -/
  common : ∀ found : List Char → List AtomId,
    (∀ w ∈ words, ∃ single : SearchRequest,
      single.AsksFor rows [w] ∧ single.hits store = .ok (found w)) →
    ∃ ids, request.hits store = .ok ids ∧ ∀ id, id ∈ ids ↔ ∀ w ∈ words, id ∈ found w
  /-- A search for further words finds no further atoms, and one for the same words the same. -/
  further : ∀ (other : SearchRequest) (others : List (List Char)),
    other.AsksFor rows others → words ⊆ others → ∀ ids, request.hits store = .ok ids →
    ∃ fewer, other.hits store = .ok fewer ∧ fewer ⊆ ids ∧ (others ⊆ words → fewer.Perm ids)

theorem AsksFor.found (h : request.AsksFor rows words) (hindex : store.index = some rows)
    (honce : (rows.map IndexRow.atom).Nodup) {ids : List AtomId}
    (hids : request.hits store = .ok ids) :
    ids.Nodup ∧ ∀ id, id ∈ ids ↔ ∃ row ∈ rows, row.atom = id ∧ ∀ w ∈ words, row.Holds w := by
  obtain ⟨relevant, hnodup, hmem, hhits⟩ := h.exists_hits hindex honce
  rw [hhits, mapM_accept_eq_ok] at hids
  obtain ⟨rfl, -⟩ := hids
  exact ⟨hnodup, hmem⟩

theorem AsksFor.refused (h : request.AsksFor rows words) (hindex : store.index = some rows)
    (honce : (rows.map IndexRow.atom).Nodup) {cause : SearchError} :
    request.hits store = .error cause ↔ cause = .blankAtom ∧
      ∃ row ∈ rows, Text.isBlankText row.atom ∧ ∀ w ∈ words, row.Holds w := by
  obtain ⟨relevant, -, hmem, hhits⟩ := h.exists_hits hindex honce
  rw [hhits, mapM_accept_eq_error]
  refine and_congr_right fun _ => ⟨?_, ?_⟩
  · rintro ⟨id, hid, hblank⟩
    obtain ⟨row, hrow, rfl, hwords⟩ := (hmem id).mp hid
    exact ⟨row, hrow, hblank, hwords⟩
  · rintro ⟨row, hrow, hblank, hwords⟩
    exact ⟨row.atom, (hmem _).mpr ⟨row, hrow, rfl, hwords⟩, hblank⟩

/-- A search is not refused if no row with a blank identifier holds all the words. -/
theorem AsksFor.exists_ids (h : request.AsksFor rows words) (hindex : store.index = some rows)
    (honce : (rows.map IndexRow.atom).Nodup)
    (hblank : ∀ row ∈ rows, (∀ w ∈ words, row.Holds w) → ¬Text.isBlankText row.atom) :
    ∃ ids, request.hits store = .ok ids := by
  cases hhits : request.hits store with
  | ok ids => exact ⟨ids, rfl⟩
  | error cause =>
      obtain ⟨-, row, hrow, hid, hwords⟩ := (h.refused hindex honce).mp hhits
      exact absurd hid (hblank row hrow hwords)

theorem AsksFor.not_blank (h : request.AsksFor rows words) (hindex : store.index = some rows)
    (honce : (rows.map IndexRow.atom).Nodup) {ids : List AtomId}
    (hids : request.hits store = .ok ids) {row : IndexRow} (hrow : row ∈ rows)
    (hwords : ∀ w ∈ words, row.Holds w) : ¬Text.isBlankText row.atom := by
  intro hblank
  have hfails := (h.refused hindex honce).mpr ⟨rfl, row, hrow, hblank, hwords⟩
  rw [hids] at hfails
  cases hfails

/-- An atom has one row, so the rows in which it has the single words are one row. -/
theorem exists_row_holds_all_iff (honce : (rows.map IndexRow.atom).Nodup) (hwords : words ≠ [])
    {id : AtomId} :
    (∃ row ∈ rows, row.atom = id ∧ ∀ w ∈ words, row.Holds w) ↔
      ∀ w ∈ words, ∃ row ∈ rows, row.atom = id ∧ row.Holds w := by
  constructor
  · rintro ⟨row, hrow, hatom, hholds⟩ w hw
    exact ⟨row, hrow, hatom, hholds w hw⟩
  · intro hall
    obtain ⟨w, hw⟩ := List.exists_mem_of_ne_nil _ hwords
    obtain ⟨row, hrow, rfl, -⟩ := hall w hw
    refine ⟨row, hrow, rfl, fun w hw => ?_⟩
    obtain ⟨same, hsame, hatom, hholds⟩ := hall w hw
    rwa [List.inj_on_of_nodup_map honce hsame hrow hatom] at hholds

/-- If the searches for the single words succeed, so does the search for all of them, and it finds
what they have in common. -/
theorem AsksFor.common (h : request.AsksFor rows words) (hindex : store.index = some rows)
    (honce : (rows.map IndexRow.atom).Nodup) {found : List Char → List AtomId}
    (hfound : ∀ w ∈ words, ∃ single : SearchRequest,
      single.AsksFor rows [w] ∧ single.hits store = .ok (found w)) :
    ∃ ids, request.hits store = .ok ids ∧ ∀ id, id ∈ ids ↔ ∀ w ∈ words, id ∈ found w := by
  obtain ⟨ids, hids⟩ : ∃ ids, request.hits store = .ok ids := by
    refine h.exists_ids hindex honce fun row hrow hwords => ?_
    obtain ⟨w, hw⟩ := List.exists_mem_of_ne_nil _ h.notBlank
    obtain ⟨single, hasks, hhits⟩ := hfound w hw
    exact hasks.not_blank hindex honce hhits hrow (by simpa using hwords w hw)
  refine ⟨ids, hids, fun id => ?_⟩
  rw [(h.found hindex honce hids).2 id, exists_row_holds_all_iff honce h.notBlank]
  refine forall₂_congr fun w hw => ?_
  obtain ⟨single, hasks, hhits⟩ := hfound w hw
  simpa using ((hasks.found hindex honce hhits).2 id).symm

theorem AsksFor.further (h : request.AsksFor rows words) (hindex : store.index = some rows)
    (honce : (rows.map IndexRow.atom).Nodup) (hother : other.AsksFor rows others)
    (hsubset : words ⊆ others) {ids : List AtomId} (hids : request.hits store = .ok ids) :
    ∃ fewer, other.hits store = .ok fewer ∧ fewer ⊆ ids ∧ (others ⊆ words → fewer.Perm ids) := by
  obtain ⟨hnodup, hmem⟩ := h.found hindex honce hids
  obtain ⟨fewer, hfewer⟩ := hother.exists_ids hindex honce fun row hrow hothers =>
    h.not_blank hindex honce hids hrow fun w hw => hothers w (hsubset hw)
  obtain ⟨hnodup', hmem'⟩ := hother.found hindex honce hfewer
  have hless : fewer ⊆ ids := by
    intro id hid
    obtain ⟨row, hrow, hatom, hothers⟩ := (hmem' id).mp hid
    exact (hmem id).mpr ⟨row, hrow, hatom, fun w hw => hothers w (hsubset hw)⟩
  refine ⟨fewer, hfewer, hless, fun hsame => ?_⟩
  refine (List.perm_ext_iff_of_nodup hnodup' hnodup).mpr fun id => ⟨fun hid => hless hid, ?_⟩
  intro hid
  obtain ⟨row, hrow, hatom, hwords⟩ := (hmem id).mp hid
  exact (hmem' id).mpr ⟨row, hrow, hatom, fun w hw => hwords w (hsame hw)⟩

/-- A search for plain words is the conjunction of the searches for the single words: it finds
the atoms of the rows that hold all of them, whatever characters the words are made of. -/
theorem hits_conjunction (hindex : store.index = some rows)
    (honce : (rows.map IndexRow.atom).Nodup) (h : request.AsksFor rows words) :
    request.FindsAll store rows words where
  found _ hids := h.found hindex honce hids
  refused _ := h.refused hindex honce
  common _ hfound := h.common hindex honce hfound
  further _ _ hother hsubset _ hids := h.further hindex honce hother hsubset hids

/-- A row that holds both words that are searched for, and one that holds one of them. -/
def sampleRows : List IndexRow := [
  { atom := "a", text := "a red AND green apple" }, { atom := "b", text := "red brick" }]

/-- The words of the request: a joiner, and a word that is written twice. -/
def sampleAsked : List (List Char) :=
  [['A', 'N', 'D'], ['R', 'E', 'D'], ['A', 'N', 'D']]

def sampleConjunction : SearchRequest where
  text := " AND RED\tAND"
  limit := 2

theorem sample_hits_conjunction :
    ({ index := some sampleRows } : Store).index = some sampleRows ∧
    (sampleRows.map IndexRow.atom).Nodup ∧ sampleConjunction.AsksFor sampleRows sampleAsked ∧
    sampleConjunction.FindsAll { index := some sampleRows } sampleRows sampleAsked ∧
    ∃ ids, sampleConjunction.hits { index := some sampleRows } = .ok ids ∧ "a" ∈ ids ∧
      "b" ∉ ids := by
  have honce : (sampleRows.map IndexRow.atom).Nodup := by decide
  have hasks : sampleConjunction.AsksFor sampleRows sampleAsked :=
    ⟨rfl, Text.spaced_iff.mpr (by decide +kernel), by decide, by decide +kernel, by decide⟩
  have hindex : ({ index := some sampleRows } : Store).index = some sampleRows := rfl
  have hfinds := hits_conjunction hindex honce hasks
  have hblank : ∀ row ∈ sampleRows, (∀ w ∈ sampleAsked, row.Holds w) →
      ¬Text.isBlankText row.atom := by decide +kernel
  obtain ⟨ids, hids⟩ := hasks.exists_ids hindex honce hblank
  have hmem := (hfinds.found ids hids).2
  refine ⟨hindex, honce, hasks, hfinds, ids, hids, (hmem "a").mpr ?_, fun hb => ?_⟩
  · exact (by decide +kernel : ∃ row ∈ sampleRows, row.atom = "a" ∧
      ∀ w ∈ sampleAsked, row.Holds w)
  · exact (by decide +kernel : ¬∃ row ∈ sampleRows, row.atom = "b" ∧
      ∀ w ∈ sampleAsked, row.Holds w) ((hmem "b").mp hb)

end SearchRequest

end Outline
