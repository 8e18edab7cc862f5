import Mathlib.Tactic.FinCases
import Mathlib.Tactic.IntervalCases
import Outline.Proofs.PlainSearches
import Outline.Proofs.RankedListings

/-!
# Searches with a limit

The rows of the index that match are taken in the order of relevance, and no more of them than
are asked for.  Whether their atoms exist and are shown is looked at afterwards.  So a row of a
hidden atom, or one left behind by an atom that is gone, takes up a place: an atom that is shown
is listed exactly if fewer rows than asked for stand before its own.
-/

namespace Outline

open Search

/-- A request is for the rows that match an expression. -/
def SearchRequest.Seeks (request : SearchRequest) (expression : Expression) : Prop :=
  ∃ written, request.expression? = some written ∧ Expression.read written = .ok expression

namespace Store

variable {store : Store} {visibility : Visibility} {adjacency : Adjacency} {depth : Depth}
  {height : Nat} {request : SearchRequest} {rows : List IndexRow} {expression : Expression}
  {scoring : Scoring} {name : AtomId} {names : List AtomId} {atom : Atom} {note : Note}
  {notes : List Note}

/-- An atom that exists and is shown is listed exactly if it is a candidate. -/
theorem IsListing.lists_iff (h : store.IsListing visibility adjacency height names notes)
    (hatom : store.atom? name = .ok (some atom)) (hshown : visibility.shows atom) :
    (∃ note ∈ notes, note.id = some name) ↔ name ∈ names := by
  constructor
  · rintro ⟨note, hnote, hid⟩
    obtain ⟨other, hother, hshows⟩ := h.sound note hnote
    obtain rfl := Option.some.inj (hid.symm.trans hshows.id_eq)
    exact hother
  · intro hname
    obtain ⟨note, hnote, hshows⟩ := h.complete name hname atom hatom hshown
    exact ⟨note, hnote, hshows.id_eq⟩

/-- A search lists its hits. -/
theorem search_eq_ok : store.search visibility adjacency depth request scoring = .ok note ↔
    ∃ names notes, request.hits store scoring = .ok names ∧
      store.listing visibility adjacency (depth - 1).levels names = .ok { children := notes } ∧
      note = { value := some ("full text search results for \"" ++ request.text ++ "\""),
               children := notes } := by
  simp only [search, except_bind_eq_ok, except_mapError_eq_ok]
  constructor
  · rintro ⟨names, hnames, listed, hlisted, h⟩
    obtain rfl := Except.ok.inj h
    obtain ⟨found, -, rfl⟩ := listing_eq_ok.mp hlisted
    exact ⟨names, _, hnames, hlisted, rfl⟩
  · rintro ⟨names, notes, hnames, hlisted, rfl⟩
    exact ⟨names, hnames, _, hlisted, rfl⟩

/-- The hits of a request are the first atoms found, if they have names. -/
theorem hits_eq_ok (hindex : store.index = some rows) (hseeks : request.Seeks expression) :
    request.hits store scoring = .ok names ↔
      names = (relevantAtoms rows expression scoring).take request.limit ∧
        ∀ id ∈ names, ¬Text.isBlankText id := by
  obtain ⟨written, hwritten, hread⟩ := hseeks
  rw [SearchRequest.hits_of_read hindex hwritten hread, SearchRequest.mapM_accept_eq_ok]
  exact and_congr_right fun hnames => by rw [hnames]

/-- A search succeeds if the first atoms found have names, and can be read and viewed. -/
theorem exists_search_iff (hindex : store.index = some rows) (hseeks : request.Seeks expression) :
    (∃ note, store.search visibility adjacency depth request scoring = .ok note) ↔
      ∀ id ∈ (relevantAtoms rows expression scoring).take request.limit,
        ¬Text.isBlankText id ∧ ∃ answer,
          store.candidate? visibility adjacency (depth - 1).levels id = .ok answer := by
  simp only [search_eq_ok, hits_eq_ok hindex hseeks]
  constructor
  · rintro ⟨-, names, notes, ⟨rfl, hnamed⟩, hlisted, -⟩ id hid
    exact ⟨hnamed id hid, exists_listing_iff.mp ⟨_, hlisted⟩ id hid⟩
  · intro h
    obtain ⟨listed, hlisted⟩ := exists_listing_iff.mpr fun id hid => (h id hid).2
    obtain ⟨found, -, rfl⟩ := listing_eq_ok.mp hlisted
    exact ⟨_, _, _, ⟨rfl, fun id hid => (h id hid).1⟩, hlisted, rfl⟩

theorem lists_iff_of_search (hindex : store.index = some rows)
    (hseeks : request.Seeks expression)
    (h : store.search visibility adjacency depth request scoring = .ok note)
    (hatom : store.atom? name = .ok (some atom)) (hshown : visibility.shows atom) :
    (∃ child ∈ note.children, child.id = some name) ↔
      name ∈ (relevantAtoms rows expression scoring).take request.limit := by
  obtain ⟨names, notes, hhits, hlisted, rfl⟩ := search_eq_ok.mp h
  obtain ⟨rfl, -⟩ := (hits_eq_ok hindex hseeks).mp hhits
  exact (isListing_of_listing hlisted).lists_iff hatom hshown

/-- The atoms that are found first are those of the rows that stand first. -/
theorem take_relevantAtoms (limit : Nat) : (relevantAtoms rows expression scoring).take limit =
    ((ranking rows expression scoring).take limit).map ScoredAtom.atom := by
  rw [relevantAtoms, List.map_take]

/-- The rows that match are ranked by their scores, whatever the scoring, and the search succeeds
if the atoms of the first ones, as many as are asked for, have names and can be read and viewed.
Then it lists an atom that is shown exactly if one of these rows is of that atom, and every atom
that is shown and has a row if no more rows match than are asked for. -/
theorem search_lists_ranked (scoring : Scoring) (visibility : Visibility) (adjacency : Adjacency)
    (depth : Depth) (hindex : store.index = some rows) (hseeks : request.Seeks expression) :
    IsRanking scoring rows expression (ranking rows expression scoring) ∧
    ((∃ note, store.search visibility adjacency depth request scoring = .ok note) ↔
      ∀ row ∈ (ranking rows expression scoring).take request.limit,
        ¬Text.isBlankText row.atom ∧ ∃ answer,
          store.candidate? visibility adjacency (depth - 1).levels row.atom = .ok answer) ∧
    ∀ note, store.search visibility adjacency depth request scoring = .ok note →
      ∀ name atom, store.atom? name = .ok (some atom) → visibility.shows atom →
        ((∃ child ∈ note.children, child.id = some name) ↔
          ∃ row ∈ (ranking rows expression scoring).take request.limit, row.atom = name) ∧
        ((ranking rows expression scoring).length ≤ request.limit →
          ((∃ child ∈ note.children, child.id = some name) ↔
            ∃ row ∈ ranking rows expression scoring, row.atom = name)) := by
  refine ⟨isRanking_ranking, ?_, ?_⟩
  · rw [exists_search_iff hindex hseeks, take_relevantAtoms, List.forall_mem_map]
  · intro note hnote name atom hatom hshown
    have hlists := lists_iff_of_search hindex hseeks hnote hatom hshown
    rw [take_relevantAtoms, List.mem_map] at hlists
    refine ⟨hlists, fun henough => ?_⟩
    rwa [List.take_of_length_le henough] at hlists

/-- Three rows of one text. -/
def sampleTexts : List IndexRow := [
  { atom := "a", text := "x" }, { atom := "b", text := "x" }, { atom := "c", text := "x" }]

/-- One, two and three below zero: of the rows, the last one is the best. -/
def sampleScores : Scoring := fun _ _ place =>
  ⟨[0xbff0000000000000, 0xc000000000000000, 0xc008000000000000].getD place 0⟩

/-- The atoms of the rows, of which the first and the last weigh nothing. -/
def sampleCrowded : Store where
  atoms := [
    .ofAtom { id := "a", created := 1000, value := some "x", weight := some .zero },
    .ofAtom { id := "b", created := 1001, value := some "x" },
    .ofAtom { id := "c", created := 1002, value := some "x", weight := some .zero }]
  index := some sampleTexts

/-- Atoms of the greatest weight are shown, whatever their sharability. -/
def sampleHeavy : Visibility :=
  .within ⟨.zero, .zero, .one, by decide⟩ ⟨.one, .one, .one, by decide⟩

/-- A request for the word of these rows. -/
def sampleLimited (limit : Nat) : SearchRequest where
  text := "x"
  limit := limit

theorem sampleLimited_seeks (limit : Nat) :
    (sampleLimited limit).Seeks (.ofWords ['x'] []) := by
  have hwords : Text.words "x".toList = [['x']] := by decide +kernel
  have hnull : ∀ w ∈ [['x']], '\x00' ∉ w := by decide
  exact ⟨_, SearchRequest.expression?_of_spaced rfl (Text.spaced_iff.mpr hwords),
    Expression.read_allOf hnull⟩

/-- All rows of the sample match. -/
theorem ranking_sampleTexts (scoring : Scoring) :
    ranking sampleTexts (.ofWords ['x'] []) scoring =
      [⟨"a", scoring sampleTexts (.ofWords ['x'] []) 0⟩,
       ⟨"b", scoring sampleTexts (.ofWords ['x'] []) 1⟩,
       ⟨"c", scoring sampleTexts (.ofWords ['x'] []) 2⟩].mergeSort ScoredAtom.atMost := by
  have hall : ∀ entry ∈ sampleTexts.zipIdx,
      (Expression.ofWords ['x'] []).accepts (Text.tokens entry.1.text.toList) := by
    decide +kernel
  rw [ranking, List.filter_eq_self.mpr hall]
  rfl

theorem ranking_sampleScores : ranking sampleTexts (.ofWords ['x'] []) sampleScores =
    [⟨"c", ⟨0xc008000000000000⟩⟩, ⟨"b", ⟨0xc000000000000000⟩⟩, ⟨"a", ⟨0xbff0000000000000⟩⟩] := by
  rw [ranking_sampleTexts]
  simp +decide [sampleScores, List.mergeSort, List.MergeSort.Internal.splitInTwo]

/-- By rarity, rows of one text have one score, and so stand in the order of their atoms. -/
theorem ranking_byRarity : (ranking sampleTexts (.ofWords ['x'] [])).map
    ScoredAtom.atom = ["a", "b", "c"] := by
  let rows : List (List Text.Token) := [[['x']], [['x']], [['x']]]
  let hits : List Hit := [{ phrase := .ofWord ['x'], count := 1 }]
  have hrows : sampleTexts.map (fun row => Text.tokens row.text.toList) = rows := by
    decide +kernel
  have hwalk : (Expression.ofWords ['x'] []).walk rows = [(0, hits), (1, hits), (2, hits)] := by
    decide +kernel
  have hscore : ∀ place < 3, byRarity sampleTexts (.ofWords ['x'] []) place =
      score rows [['x']] hits := by
    intro place hplace
    simp only [byRarity, hrows, hwalk]
    interval_cases place <;> rfl
  rw [ranking_sampleTexts, hscore 0 (by decide), hscore 1 (by decide), hscore 2 (by decide)]
  simp +decide [ScoredAtom.atMost, List.mergeSort, List.MergeSort.Internal.splitInTwo]

theorem sample_search_lists_ranked :
    sampleCrowded.index = some sampleTexts ∧
    (sampleLimited 2).Seeks (.ofWords ['x'] []) ∧
    (∃ atom, sampleCrowded.atom? "b" = .ok (some atom) ∧ sampleHeavy.shows atom) ∧
    IsRanking sampleScores sampleTexts (.ofWords ['x'] []) [
      ⟨"c", ⟨0xc008000000000000⟩⟩, ⟨"b", ⟨0xc000000000000000⟩⟩, ⟨"a", ⟨0xbff0000000000000⟩⟩] ∧
    ∃ note, sampleCrowded.search sampleHeavy .forward 1 (sampleLimited 2) sampleScores = .ok note ∧
      ∃ child ∈ note.children, child.id = some "b" := by
  have hindex : sampleCrowded.index = some sampleTexts := rfl
  obtain ⟨hranking, hsucceeds, hlists⟩ := search_lists_ranked sampleScores sampleHeavy .forward 1
    hindex (sampleLimited_seeks 2)
  rw [ranking_sampleScores] at hranking hsucceeds hlists
  obtain ⟨note, hnote⟩ := hsucceeds.mpr fun row hrow => by
    fin_cases hrow <;> exact ⟨by decide, _, rfl⟩
  refine ⟨hindex, sampleLimited_seeks 2, ⟨_, rfl, by decide⟩, hranking, note, hnote, ?_⟩
  have hplace : (⟨"b", ⟨0xc000000000000000⟩⟩ : ScoredAtom) ∈ [
      ⟨"c", ⟨0xc008000000000000⟩⟩, ⟨"b", ⟨0xc000000000000000⟩⟩].take 2 := by decide
  exact (hlists note hnote "b" _ rfl (by decide)).1.mpr ⟨_, hplace, rfl⟩

/-- One atom is shown and has a row that matches, but a search for one atom does not list it: the
row of a hidden atom stands before its own, be it by a better score or by the order of the atoms
where the scores are equal. -/
theorem hidden_rows_take_places :
    sampleCrowded.index = some sampleTexts ∧ (sampleLimited 1).Seeks (.ofWords ['x'] []) ∧
    (∀ id atom, sampleCrowded.atom? id = .ok (some atom) → sampleHeavy.shows atom → id = "b") ∧
    (∃ atom, sampleCrowded.atom? "b" = .ok (some atom) ∧ sampleHeavy.shows atom) ∧
    "b" ∈ relevantAtoms sampleTexts (.ofWords ['x'] []) ∧
    ∀ scoring ∈ [byRarity, sampleScores],
      sampleCrowded.search sampleHeavy .forward 1 (sampleLimited 1) scoring =
        .ok { value := some "full text search results for \"x\"", children := [] } := by
  have hseeks := sampleLimited_seeks 1
  refine ⟨rfl, hseeks, ?_, ⟨_, rfl, by decide⟩, ?_, ?_⟩
  · intro id atom hatom hshown
    obtain ⟨⟨row, hrow, hreads⟩, rfl⟩ := (atom?_eq_some (by decide)).mp hatom
    fin_cases hrow <;> cases hreads
    · exact absurd hshown (by decide)
    · rfl
    · exact absurd hshown (by decide)
  · rw [relevantAtoms, ranking_byRarity]
    decide
  · intro scoring hscoring
    obtain ⟨id, hfirst, hhidden, hnamed⟩ : ∃ id,
        (relevantAtoms sampleTexts (.ofWords ['x'] []) scoring).take 1 = [id] ∧
        sampleCrowded.candidate? sampleHeavy .forward 0 id = .ok none ∧ ¬Text.isBlankText id := by
      simp only [List.mem_cons, List.not_mem_nil, or_false] at hscoring
      rcases hscoring with rfl | rfl
      · exact ⟨"a", by rw [relevantAtoms, ranking_byRarity]; rfl, rfl, by decide⟩
      · exact ⟨"c", by rw [relevantAtoms, ranking_sampleScores]; rfl, rfl, by decide⟩
    have hhits : (sampleLimited 1).hits sampleCrowded scoring = .ok [id] :=
      (hits_eq_ok rfl hseeks).mpr ⟨hfirst.symm, by simpa using hnamed⟩
    have hlisted : sampleCrowded.listing sampleHeavy .forward 0 [id] = .ok { children := [] } :=
      listing_eq_ok.mpr ⟨[none], .cons hhidden .nil, by simp [Note.ranked]⟩
    exact search_eq_ok.mpr ⟨[id], [], hhits, hlisted, rfl⟩

end Store

end Outline
