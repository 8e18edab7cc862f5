import Mathlib.Data.List.Infix
import Outline.Proofs.QuotedWords
import Outline.Search.Relevance

/-!
# Matching words

A row matches a word if the tokens of the word follow each other somewhere in the row, and a
conjunction if it matches each of its words.  The rows that match come out in an order of
their own, but none is lost or repeated.
-/

namespace Outline.Search

open Text (Token)

variable {found row : List Token} {word text : List Char} {words : List (List Char)}

/-! ## Phrases -/

theorem beginsAt_iff (wanted : List Token) (row : List Token) :
    Phrase.beginsAt (wanted.map fun token => { token }) row ↔ wanted <+: row := by
  induction wanted generalizing row with
  | nil => simp [Phrase.beginsAt]
  | cons token wanted ih =>
      cases row with
      | nil => simp [Phrase.beginsAt]
      | cons next row =>
          simp [Phrase.beginsAt, Term.accepts, List.cons_prefix_cons, ih]

theorem placesFrom_ne_nil_iff {terms : List Term} {start : Nat} :
    Phrase.placesFrom terms start row ≠ [] ↔
      ∃ rest, rest ≠ [] ∧ rest <:+ row ∧ Phrase.beginsAt terms rest := by
  induction row generalizing start with
  | nil => simp [Phrase.placesFrom]
  | cons token row ih =>
      rw [Phrase.placesFrom]
      split
      · rename_i hbegins
        exact iff_of_true (List.cons_ne_nil _ _) ⟨_, List.cons_ne_nil _ _, List.suffix_rfl, hbegins⟩
      · rename_i hbegins
        rw [ih]
        constructor
        · rintro ⟨rest, hne, hsuffix, hrest⟩
          exact ⟨rest, hne, hsuffix.trans (List.suffix_cons _ _), hrest⟩
        · rintro ⟨rest, hne, hsuffix, hrest⟩
          rcases List.suffix_cons_iff.mp hsuffix with rfl | hsuffix
          · exact absurd hrest hbegins
          · exact ⟨rest, hne, hsuffix, hrest⟩

/-- A word that has tokens stands where they follow each other. -/
theorem places_ofWord_ne_nil_iff (htokens : Text.tokens word ≠ []) :
    (Phrase.ofWord word).places row ≠ [] ↔ Text.tokens word <:+: row := by
  have hterms : (Phrase.ofWord word).terms.isEmpty = false := by
    simpa [Phrase.ofWord] using htokens
  rw [Phrase.places, hterms]
  simp only [Bool.false_eq_true, if_false, Phrase.ofWord, placesFrom_ne_nil_iff, beginsAt_iff,
    List.infix_iff_prefix_suffix]
  constructor
  · rintro ⟨rest, -, hsuffix, hprefix⟩
    exact ⟨rest, hprefix, hsuffix⟩
  · rintro ⟨rest, hprefix, hsuffix⟩
    refine ⟨rest, ?_, hsuffix, hprefix⟩
    rintro rfl
    exact htokens (List.prefix_nil.mp hprefix)

/-! ## Expressions -/

namespace Expression

/-- A row matches an expression. -/
def Matches (row : List Token) (expression : Expression) : Prop :=
  expression.accepts row

instance (row : List Token) (expression : Expression) : Decidable (expression.Matches row) :=
  inferInstanceAs (Decidable (_ = true))

theorem decide_matches {expression : Expression} :
    decide (expression.Matches row) = expression.accepts row := by
  rw [Bool.eq_iff_iff, decide_eq_true_iff, Matches]

/-- A phrase by itself matches where it stands. -/
theorem matches_group_iff (phrase : Phrase) :
    (group { phrases := [phrase] }).Matches row ↔ phrase.places row ≠ [] := by
  rw [Matches, accepts, Group.counts?, Group.places]
  cases hplaces : phrase.places row <;> simp [Group.seesValues, IndexColumn.all, hplaces]

/-- A row matches a word if it holds the tokens of the word, of which there must be one. -/
theorem matches_ofWord_iff :
    (ofWord word).Matches row ↔ Text.tokens word ≠ [] ∧ Text.tokens word <:+: row := by
  by_cases htokens : Text.tokens word = []
  · have hnothing : ofWord word = nothing := by
      simp [ofWord, ofPhrases, Phrase.ofWord, htokens]
    simp [hnothing, htokens, Matches, accepts]
  · have hgroup : ofWord word = group { phrases := [Phrase.ofWord word] } := by
      simp [ofWord, ofPhrases, Phrase.ofWord, htokens]
    rw [hgroup, matches_group_iff, places_ofWord_ne_nil_iff htokens, and_iff_right htokens]

theorem matches_andWord_iff {left : Expression} :
    (left.andWord word).Matches row ↔ left.Matches row ∧ (ofWord word).Matches row := by
  rw [andWord, Matches, accepts, Bool.and_eq_true, Matches, Matches]

/-- A row matches a conjunction if it matches each word. -/
theorem matches_ofWords_iff :
    (ofWords word words).Matches row ↔ ∀ w ∈ word :: words, (ofWord w).Matches row := by
  have hfold : ∀ left : Expression, (words.foldl andWord left).Matches row ↔
      left.Matches row ∧ ∀ w ∈ words, (ofWord w).Matches row := by
    induction words with
    | nil => simp
    | cons next words ih =>
        intro left
        rw [List.foldl_cons, ih, matches_andWord_iff, List.forall_mem_cons, and_assoc]
  rw [ofWords, hfold, List.forall_mem_cons]

end Expression

/-! ## Rows -/

variable {rows : List IndexRow} {expression : Expression} {scoring : Scoring}

/-- One row stands before another or beside it. -/
def ScoredAtom.Precedes (a b : ScoredAtom) : Prop :=
  a.score.order < b.score.order ∨ a.score.order = b.score.order ∧ a.atom ≤ b.atom

theorem ScoredAtom.atMost_iff {a b : ScoredAtom} : a.atMost b ↔ a.Precedes b := by
  simp [atMost, Precedes]

theorem ScoredAtom.atMost_trans (a b c : ScoredAtom) (hab : a.atMost b) (hbc : b.atMost c) :
    a.atMost c := by
  rw [atMost_iff, Precedes] at *
  rcases hab with hab | ⟨hab, hatoms⟩
  · exact .inl (by omega)
  · rcases hbc with hbc | ⟨hbc, hnext⟩
    · exact .inl (by omega)
    · exact .inr ⟨hab.trans hbc, String.le_trans hatoms hnext⟩

theorem ScoredAtom.atMost_total (a b : ScoredAtom) : a.atMost b || b.atMost a := by
  rw [Bool.or_eq_true, atMost_iff, atMost_iff, Precedes, Precedes]
  rcases Int.lt_trichotomy a.score.order b.score.order with hless | hsame | hmore
  · exact .inl (.inl hless)
  · rcases String.le_total a.atom b.atom with hatoms | hatoms
    · exact .inl (.inr ⟨hsame, hatoms⟩)
    · exact .inr (.inr ⟨hsame.symm, hatoms⟩)
  · exact .inr (.inl hmore)

/-- Rows of the index that match an expression, each with its score, in the order of their
scores, and of their atoms where scores are equal. -/
structure IsRanking (scoring : Scoring) (rows : List IndexRow) (expression : Expression)
    (ranked : List ScoredAtom) : Prop where
  /-- All rows that match are there, as often as they are in the index. -/
  perm : ranked.Perm ((rows.zipIdx.filter fun (row, _) =>
    expression.accepts (Text.tokens row.text.toList)).map fun (row, place) =>
      { atom := row.atom, score := scoring rows expression place })
  sorted : ranked.Pairwise ScoredAtom.Precedes

theorem isRanking_ranking : IsRanking scoring rows expression (ranking rows expression scoring) where
  perm := List.mergeSort_perm _ _
  sorted := (List.pairwise_mergeSort ScoredAtom.atMost_trans ScoredAtom.atMost_total _).imp
    ScoredAtom.atMost_iff.mp

/-- The atoms that are found are those of the rows that match, each as often as it has such
rows. -/
theorem relevantAtoms_perm (rows : List IndexRow) (expression : Expression) (scoring : Scoring) :
    (relevantAtoms rows expression scoring).Perm
      ((rows.filter fun row => expression.Matches (Text.tokens row.text.toList)).map
        IndexRow.atom) := by
  refine (isRanking_ranking.perm.map ScoredAtom.atom).trans (.of_eq ?_)
  conv_rhs => rw [← List.zipIdx_map_fst 0 rows, List.filter_map, List.map_map]
  simp only [Expression.decide_matches, List.map_map, Function.comp_def]

end Outline.Search
