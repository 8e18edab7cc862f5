import Outline.Proofs.Matching
import Outline.Search.Walk

/-!
# Rows that match

Among the rows of an index, those that match a joined expression are found from those that match
its parts.  What stands side by side in an expression is lower than the whole.  A row that a group
matches has all the words of the group.
-/

namespace Outline.Search

open Text (Token)

variable {rows : List (List Token)} {words : List Token} {expression left right : Expression}
  {place : Nat}

/-! ## Joined expressions -/

/-- The row at a place matches an expression. -/
def MatchesAt (rows : List (List Token)) (expression : Expression) (place : Nat) : Prop :=
  ∃ words, rows[place]? = some words ∧ expression.Matches words

theorem MatchesAt.lt_length (h : MatchesAt rows expression place) : place < rows.length := by
  obtain ⟨words, hwords, -⟩ := h
  exact (List.getElem?_eq_some_iff.mp hwords).1

theorem not_matchesAt_nothing : ¬MatchesAt rows .nothing place := by
  rintro ⟨words, -, h⟩
  cases h

theorem matchesAt_and :
    MatchesAt rows (.joined .and left right) place ↔
      MatchesAt rows left place ∧ MatchesAt rows right place := by
  cases hwords : rows[place]? with
  | none => simp [MatchesAt, hwords]
  | some words => simp [MatchesAt, hwords, Expression.Matches, Expression.accepts]

theorem matchesAt_or :
    MatchesAt rows (.joined .or left right) place ↔
      MatchesAt rows left place ∨ MatchesAt rows right place := by
  cases hwords : rows[place]? with
  | none => simp [MatchesAt, hwords]
  | some words => simp [MatchesAt, hwords, Expression.Matches, Expression.accepts]

theorem matchesAt_not :
    MatchesAt rows (.joined .not left right) place ↔
      MatchesAt rows left place ∧ ¬MatchesAt rows right place := by
  cases hwords : rows[place]? with
  | none => simp [MatchesAt, hwords]
  | some words => simp [MatchesAt, hwords, Expression.Matches, Expression.accepts]

/-- All of what `AND` joins must match. -/
theorem forall_parts_matchesAt_iff :
    (∀ part ∈ expression.parts .and, MatchesAt rows part place) ↔
      MatchesAt rows expression place := by
  induction expression with
  | nothing => simp [Expression.parts]
  | group g => simp [Expression.parts]
  | joined inner left right ihleft ihright =>
      rw [Expression.parts]
      split
      · next hinner =>
          rw [List.forall_mem_append, ihleft, ihright, hinner.1, matchesAt_and]
      · exact List.forall_mem_singleton

/-- One of what `OR` joins must match. -/
theorem exists_parts_matchesAt_iff :
    (∃ part ∈ expression.parts .or, MatchesAt rows part place) ↔
      MatchesAt rows expression place := by
  induction expression with
  | nothing => simp [Expression.parts]
  | group g => simp [Expression.parts]
  | joined inner left right ihleft ihright =>
      rw [Expression.parts]
      split
      · next hinner =>
          rw [hinner.1, matchesAt_or, ← ihleft, ← ihright]
          simp only [List.mem_append, or_and_right, exists_or]
      · simp only [List.mem_singleton, exists_eq_left]

theorem parts_ne_nil (joiner : Joiner) : expression.parts joiner ≠ [] := by
  induction expression with
  | nothing | group g => simp [Expression.parts]
  | joined inner left right ihleft ihright =>
      rw [Expression.parts]
      split
      · exact List.append_ne_nil_of_left_ne_nil ihleft _
      · exact List.cons_ne_nil _ _

/-- What is joined is lower than the whole. -/
theorem height_lt_of_mem_parts {joiner : Joiner} {part side other : Expression}
    (hpart : part ∈ side.parts joiner) :
    part.height < (Expression.joined joiner side other).height ∧
      part.height < (Expression.joined joiner other side).height := by
  induction side generalizing other with
  | nothing | group g =>
      obtain rfl := List.mem_singleton.mp hpart
      simp only [Expression.height]
      omega
  | joined inner left right ihleft ihright =>
      rw [Expression.parts] at hpart
      split at hpart
      · next hinner =>
          have hinside : part.height < (Expression.joined inner left right).height := by
            obtain ⟨rfl, -⟩ := hinner
            rcases List.mem_append.mp hpart with hpart | hpart
            · exact (ihleft hpart).1
            · exact (ihright hpart).2
          simp only [Expression.height, if_pos hinner] at hinside ⊢
          omega
      · next hinner =>
          obtain rfl := List.mem_singleton.mp hpart
          simp only [Expression.height, if_neg hinner]
          omega

theorem height_lt_of_not :
    left.height < (Expression.joined .not left right).height ∧
      right.height < (Expression.joined .not left right).height := by
  have hself (side : Expression) : side ∈ side.parts .not := by
    cases side <;> simp [Expression.parts]
  exact ⟨(height_lt_of_mem_parts (hself left)).1, (height_lt_of_mem_parts (hself right)).2⟩

/-! ## Groups -/

namespace Group

theorem any_accepts_of_beginsAt {terms : List Term} {term : Term} (hterm : term ∈ terms)
    (h : Phrase.beginsAt terms words) : words.any term.accepts := by
  induction terms generalizing words with
  | nil => cases hterm
  | cons first terms ih =>
      cases words with
      | nil => simp [Phrase.beginsAt] at h
      | cons word words =>
          rw [Phrase.beginsAt, Bool.and_eq_true] at h
          rw [List.any_cons, Bool.or_eq_true]
          rcases List.mem_cons.mp hterm with rfl | hterm
          · exact .inl h.1
          · exact .inr (ih hterm h.2)

theorem any_accepts_of_places {phrase : Phrase} {term : Term} (hterm : term ∈ phrase.terms)
    (h : phrase.places words ≠ []) : words.any term.accepts := by
  have hfrom : Phrase.placesFrom phrase.terms 0 words ≠ [] := by
    rintro hnone
    simp [Phrase.places, hnone] at h
  obtain ⟨rest, -, hsuffix, hbegins⟩ := placesFrom_ne_nil_iff.mp hfrom
  obtain ⟨word, hword, haccepts⟩ := List.any_eq_true.mp (any_accepts_of_beginsAt hterm hbegins)
  exact List.any_eq_true.mpr ⟨word, hsuffix.mem hword, haccepts⟩

/-- A row that matches a group has all its words. -/
theorem reaches_of_matches {g : Group} (h : (Expression.group g).Matches words) :
    g.reaches words := by
  have hplaces : ∀ places ∈ g.places words, places ≠ [] := by
    rw [Expression.Matches, Expression.accepts, counts?] at h
    split at h
    · next places heq =>
        rw [heq]
        simpa using h
    · next heq =>
        intro places hmem hnone
        have hempty : (g.places words).any List.isEmpty :=
          List.any_eq_true.mpr ⟨places, hmem, by simp [hnone]⟩
        simp [hempty] at h
  rw [reaches, List.all_eq_true]
  intro phrase hphrase
  rw [List.all_eq_true]
  intro term hterm
  have hstands := hplaces _ (List.mem_map_of_mem hphrase)
  by_cases hsees : g.seesValues
  · rw [if_pos hsees] at hstands
    simp [hsees, any_accepts_of_places hterm hstands]
  · exact absurd (if_neg hsees) hstands

theorem recount_snd (g : Group) (before : List Nat) (words : List Token) :
    (g.recount before words).2 = true ↔ (Expression.group g).Matches words := by
  rw [recount, Expression.Matches, Expression.accepts]
  split
  · next counts heq => simp [heq]
  · next heq =>
      dsimp only
      split <;> simp [heq]

end Group

end Outline.Search
