import Outline.Proofs.CutWords
import Outline.Proofs.Matching
import Outline.Proofs.Running

/-!
# Searches for plain words

Plain words are quoted, so whatever characters they are made of, nothing in them can be at odds
with the grammar of expressions.  The exception is the null character, which ends an expression
inside the quotes.  So a search for plain words fails exactly if there is a null character among
them, unless no atom is asked for at all; a search that is read fails only at a row of an atom
with a blank identifier.
-/

namespace Outline.SearchRequest

open Search

variable {store : Store} {rows : List IndexRow} {request : SearchRequest} {word : List Char}
  {words : List (List Char)} {written : List Char} {expression : Expression} {ids : List AtomId}
  {scoring : Scoring}

/-! ## What is searched for -/

/-- A request without words asks for nothing. -/
theorem expression?_of_blank (hblank : Text.words request.text.toList = []) :
    request.expression? = none := by
  rw [expression?, Text.trim_eq_nil hblank]

/-- A request for plain words asks for all of them. -/
theorem expression?_of_spaced (hplain : request.isExpression = false)
    (htext : Text.Spaced (word :: words) request.text.toList) :
    request.expression? = some (allOf (word :: words)) := by
  have hwords : Text.words (Text.trim request.text.toList) = word :: words := by
    rw [Text.words_trim, htext.words_eq]
  rw [expression?]
  split
  · rename_i hnil
    rw [hnil, Text.words_nil] at hwords
    cases hwords
  · rw [hplain, if_neg Bool.false_ne_true, hwords]

/-- A null character in a text is in one of its words. -/
theorem null_mem_iff (htext : Text.Spaced words request.text.toList) :
    '\x00' ∈ request.text.toList ↔ ∃ w ∈ words, '\x00' ∈ w :=
  htext.mem_iff (by decide)

/-! ## What is found -/

theorem mapM_accept (hids : ∀ id ∈ ids, ¬Text.isBlankText id) : ids.mapM accept = .ok ids := by
  induction ids with
  | nil => rfl
  | cons id ids ih =>
      obtain ⟨hid, hids⟩ := List.forall_mem_cons.mp hids
      rw [List.mapM_cons, accept, if_neg hid, ih hids]
      rfl

theorem mapM_accept_of_blank (hids : ∃ id ∈ ids, Text.isBlankText id) :
    ids.mapM accept = .error .blankAtom := by
  induction ids with
  | nil => simp at hids
  | cons id ids ih =>
      rw [List.mapM_cons, accept]
      split
      · rfl
      · rename_i hid
        obtain ⟨blank, hmem, hblank⟩ := hids
        rcases List.mem_cons.mp hmem with rfl | hmem
        · exact absurd hblank hid
        · rw [ih ⟨blank, hmem, hblank⟩]
          rfl

/-- Atoms are found unless one of them has a blank identifier. -/
theorem mapM_accept_eq_ok {found : List AtomId} :
    ids.mapM accept = .ok found ↔ found = ids ∧ ∀ id ∈ ids, ¬Text.isBlankText id := by
  by_cases hids : ∀ id ∈ ids, ¬Text.isBlankText id
  · rw [mapM_accept hids, Except.ok.injEq, and_iff_left hids, eq_comm]
  · have hblank : ∃ id ∈ ids, Text.isBlankText id := by simpa using hids
    rw [mapM_accept_of_blank hblank]
    exact iff_of_false (by simp) fun h => hids h.2

theorem mapM_accept_eq_error {cause : SearchError} :
    ids.mapM accept = .error cause ↔ cause = .blankAtom ∧ ∃ id ∈ ids, Text.isBlankText id := by
  by_cases hids : ∀ id ∈ ids, ¬Text.isBlankText id
  · rw [mapM_accept hids]
    exact iff_of_false (by simp) fun ⟨_, id, hid, hblank⟩ => hids id hid hblank
  · have hblank : ∃ id ∈ ids, Text.isBlankText id := by simpa using hids
    rw [mapM_accept_of_blank hblank, Except.error.injEq, and_iff_left hblank, eq_comm]

/-- Where the expression can be read, the most relevant atoms are found. -/
theorem hits_of_read (hindex : store.index = some rows)
    (hwritten : request.expression? = some written)
    (hread : Expression.read written = .ok expression) :
    request.hits store scoring =
      ((relevantAtoms rows expression scoring).take request.limit).mapM accept := by
  rw [hits, hwritten]
  by_cases hzero : request.limit = 0
  · simp only [hzero, if_true, List.take_zero]
    rfl
  · simp only [hzero, if_false, hindex, hread]

/-- Plain words without null characters can be read. -/
theorem hits_of_spaced (hindex : store.index = some rows) (hplain : request.isExpression = false)
    (htext : Text.Spaced (word :: words) request.text.toList)
    (hnull : ∀ w ∈ word :: words, '\x00' ∉ w) :
    request.hits store =
      ((relevantAtoms rows (.ofWords word words)).take request.limit).mapM accept :=
  hits_of_read hindex (expression?_of_spaced hplain htext) (Expression.read_allOf hnull)

theorem relevantAtoms_ofWords_perm (rows : List IndexRow) (word : List Char)
    (words : List (List Char)) :
    (relevantAtoms rows (.ofWords word words)).Perm ((rows.filter fun row =>
      ∀ w ∈ word :: words, (Expression.ofWord w).Matches (Text.tokens row.text.toList)).map
        IndexRow.atom) := by
  have hperm := relevantAtoms_perm rows (.ofWords word words) byRarity
  simpa only [Expression.matches_ofWords_iff] using hperm

/-- A request for as many atoms as there are rows is for all that match. -/
theorem hits_of_enough (hindex : store.index = some rows) (hplain : request.isExpression = false)
    (htext : Text.Spaced (word :: words) request.text.toList)
    (hnull : ∀ w ∈ word :: words, '\x00' ∉ w) (hlimit : rows.length ≤ request.limit) :
    request.hits store = (relevantAtoms rows (.ofWords word words)).mapM accept := by
  have hlength : (relevantAtoms rows (.ofWords word words)).length ≤ request.limit := by
    rw [(relevantAtoms_ofWords_perm rows word words).length_eq, List.length_map]
    exact (List.length_filter_le _ _).trans hlimit
  rw [hits_of_spaced hindex hplain htext hnull, List.take_of_length_le hlength]

/-- A null character among plain words makes a search fail. -/
theorem hits_of_null (hindex : store.index = some rows) (hplain : request.isExpression = false)
    (hlimit : 0 < request.limit) (hnull : '\x00' ∈ request.text.toList) :
    request.hits store = .error (.invalidQuery
      (String.ofList (allOf (Text.words request.text.toList))) .unterminated) := by
  have htext := Text.spaced_words request.text.toList
  have hword := (null_mem_iff htext).mp hnull
  obtain ⟨word, words, hwords⟩ : ∃ word words, Text.words request.text.toList = word :: words := by
    obtain ⟨w, hw, -⟩ := hword
    exact List.exists_cons_of_ne_nil (List.ne_nil_of_mem hw)
  rw [hwords] at htext hword ⊢
  have hinvalid : ExpressionFault.unterminated.isInvalidQuery := by decide +kernel
  rw [hits, expression?_of_spaced hplain htext]
  simp only [hlimit.ne', if_false, hindex, Expression.read_allOf_of_null hword, hinvalid, if_true]

theorem mem_of_mem_relevantAtoms {id : AtomId} (h : id ∈ relevantAtoms rows expression) :
    ∃ row ∈ rows, row.atom = id := by
  have hmem := (relevantAtoms_perm rows expression byRarity).mem_iff.mp h
  obtain ⟨row, hrow, rfl⟩ := List.mem_map.mp hmem
  exact ⟨row, (List.mem_filter.mp hrow).1, rfl⟩

/-- A search for plain words, whatever they are, fails only for a null character: the expression
for them is then found not to end. -/
theorem hits_of_plain (hplain : request.isExpression = false) (hindex : store.index = some rows)
    (hrows : ∀ row ∈ rows, ¬Text.isBlankText row.atom) :
    (request.limit = 0 ∨ '\x00' ∉ request.text.toList → ∃ ids, request.hits store = .ok ids) ∧
    (0 < request.limit → '\x00' ∈ request.text.toList →
      request.hits store = .error (.invalidQuery
        (String.ofList (allOf (Text.words request.text.toList))) .unterminated)) := by
  refine ⟨fun h => ?_, hits_of_null hindex hplain⟩
  have htext := Text.spaced_words request.text.toList
  cases hwords : Text.words request.text.toList with
  | nil => exact ⟨[], by rw [hits, expression?_of_blank hwords]⟩
  | cons word words =>
      rw [hwords] at htext
      rcases h with hzero | hnull
      · exact ⟨[], by rw [hits, expression?_of_spaced hplain htext]; exact if_pos hzero⟩
      · have hnone : ∀ w ∈ word :: words, '\x00' ∉ w := by
          intro w hw hmem
          exact hnull ((null_mem_iff htext).mpr ⟨w, hw, hmem⟩)
        refine ⟨_, (hits_of_spaced hindex hplain htext hnone).trans (mapM_accept ?_)⟩
        intro id hid
        obtain ⟨row, hrow, rfl⟩ := mem_of_mem_relevantAtoms (List.mem_of_mem_take hid)
        exact hrows row hrow

/-- An index with one row. -/
def sampleIndexed : Store where
  index := some [{ atom := "a", text := "say \"AND\" ( NEAR it" }]

/-- Joiners, marks and quotes that are not closed. -/
def sampleMarks : SearchRequest where
  text := "\" AND (\u2028 NEAR( \x07 say* \"\"\" ^ : OR NOT -"

theorem sample_hits_of_plain :
    sampleMarks.isExpression = false ∧
    sampleIndexed.index = some [{ atom := "a", text := "say \"AND\" ( NEAR it" }] ∧
    (∀ row ∈ [({ atom := "a", text := "say \"AND\" ( NEAR it" } : IndexRow)],
      ¬Text.isBlankText row.atom) ∧
    '\x00' ∉ sampleMarks.text.toList ∧
    ∃ ids, sampleMarks.hits sampleIndexed = .ok ids := by
  have hrows : ∀ row ∈ [({ atom := "a", text := "say \"AND\" ( NEAR it" } : IndexRow)],
      ¬Text.isBlankText row.atom := by decide
  have hnull : '\x00' ∉ sampleMarks.text.toList := by decide +kernel
  exact ⟨rfl, rfl, hrows, hnull, (hits_of_plain rfl rfl hrows).1 (.inr hnull)⟩

/-- A null character alone makes a search fail, even of an index without rows. -/
theorem null_is_no_word :
    ({ text := "\x00" } : SearchRequest).isExpression = false ∧ ({} : Store).index = some [] ∧
    ({ text := "\x00" } : SearchRequest).hits {} =
      .error (.invalidQuery "\"\x00\"" .unterminated) ∧
    ¬∃ ids, ({ text := "\x00" } : SearchRequest).hits {} = .ok ids := by
  have hplain : ({ text := "\x00" } : SearchRequest).isExpression = false := rfl
  have hindex : ({} : Store).index = some [] := rfl
  have hfails := hits_of_null hindex hplain (by decide) (by decide)
  have hwritten : String.ofList (allOf (Text.words
      ({ text := "\x00" } : SearchRequest).text.toList)) = "\"\x00\"" := by
    decide +kernel
  rw [hwritten] at hfails
  refine ⟨hplain, hindex, hfails, ?_⟩
  rintro ⟨ids, hids⟩
  rw [hfails] at hids
  cases hids

end Outline.SearchRequest
