import Outline.Proofs.QuotedWords

/-!
# Words cut off by a null character

Quotes keep every character of a word but one: a null character ends the expression wherever it
stands.  It always stands between the quotes of some word, and no quote that was doubled can close
them.  So an expression for words of which one has a null character is read up to that word, and
is then found not to end.
-/

namespace Outline.Search

open SearchRequest (allOf)

variable {head tail word : List Char} {words before : List (List Char)}

/-! ## Quotes that are not closed -/

theorem doubled_append (head tail : List Char) :
    doubled (head ++ tail) = doubled head ++ doubled tail := by
  induction head with
  | nil => rfl
  | cons c head ih =>
      rw [List.cons_append, doubled, doubled, ih]
      split <;> rfl

/-- Doubled quotes do not close a quoted text. -/
theorem spanQuoted_unclosed (word : List Char) : spanQuoted (doubled word) = none := by
  induction word with
  | nil => rfl
  | cons c word ih =>
      rw [doubled]
      split
      · rw [spanQuoted, ih]
        rfl
      · rename_i hc
        rw [spanQuoted, if_neg hc, ih]
        · rfl
        · exact fun _ heq => absurd heq hc

theorem lexemesOf_unclosed (word : List Char) :
    lexemesOf ('"' :: doubled word) = [.broken .unterminated] := by
  have hspan := spanQuoted_unclosed word
  rw [lexemesOf, if_neg (by decide), if_pos rfl]
  split
  · rename_i heq
    rw [hspan] at heq
    cases heq
  · rfl

/-- A word with a null character is quoted up to that character. -/
theorem quoted_cut (head tail : List Char) :
    quoted (head ++ '\x00' :: tail) =
      ('"' :: doubled head) ++ '\x00' :: (doubled tail ++ ['"']) := by
  have hnull : ('\x00' : Char) ≠ '"' := by decide
  rw [quoted, doubled_append, doubled, if_neg hnull]
  simp only [List.cons_append, List.append_assoc]

/-! ## Lexemes -/

theorem lexemes_cut (hhead : '\x00' ∉ head) (tail : List Char) :
    lexemes (head ++ '\x00' :: tail) = lexemesOf head := by
  rw [lexemes, Text.takeWhile_append_stop (by decide), takeWhile_of_null_not_mem hhead]

theorem null_not_mem_unclosed (hhead : '\x00' ∉ head) : '\x00' ∉ '"' :: doubled head := by
  simpa [mem_doubled] using hhead

/-- The first word is cut off. -/
theorem lexemes_allOf_cut_first (hhead : '\x00' ∉ head) (tail : List Char)
    (after : List (List Char)) :
    lexemes (allOf ((head ++ '\x00' :: tail) :: after)) = [.broken .unterminated] := by
  have hsplit : allOf ((head ++ '\x00' :: tail) :: after) =
      ('"' :: doubled head) ++ '\x00' :: (doubled tail ++ ['"'] ++
        after.flatMap fun next => [' ', 'A', 'N', 'D', ' '] ++ quoted next) := by
    rw [allOf_cons, quoted_cut, List.append_assoc]
    rfl
  rw [hsplit, lexemes_cut (null_not_mem_unclosed hhead), lexemesOf_unclosed]

/-- A later word is cut off. -/
theorem lexemes_allOf_cut_later (hbefore : ∀ w ∈ word :: before, '\x00' ∉ w)
    (hhead : '\x00' ∉ head) (tail : List Char) (after : List (List Char)) :
    lexemes (allOf (word :: before ++ (head ++ '\x00' :: tail) :: after)) =
      .text (quoted word) :: joinedTexts [.joiner .and, .broken .unterminated] before := by
  have hsplit : allOf (word :: before ++ (head ++ '\x00' :: tail) :: after) =
      (allOf (word :: before) ++ ([' ', 'A', 'N', 'D', ' '] ++ '"' :: doubled head)) ++
        '\x00' :: (doubled tail ++ ['"'] ++
          after.flatMap fun next => [' ', 'A', 'N', 'D', ' '] ++ quoted next) := by
    rw [List.cons_append, allOf_cons, allOf_cons, List.flatMap_append, List.flatMap_cons,
      quoted_cut]
    simp only [List.append_assoc, List.cons_append, List.nil_append]
  have hnull : '\x00' ∉
      allOf (word :: before) ++ ([' ', 'A', 'N', 'D', ' '] ++ '"' :: doubled head) := by
    rw [List.mem_append, List.mem_append]
    rintro (hc | hc | hc)
    · exact null_not_mem_allOf hbefore hc
    · exact absurd hc (by decide)
    · exact null_not_mem_unclosed hhead hc
  rw [hsplit, lexemes_cut hnull, lexemesOf_allOf (by simp), lexemesOf_and, lexemesOf_unclosed]

/-! ## Reading -/

namespace Expression

variable {limit held : Nat} {fault : ExpressionFault}

/-- Where no lexeme begins, no expression begins. -/
theorem readJoined_broken (limit held : Nat) (joiners : List Joiner) (fault : ExpressionFault) :
    readJoined (limit + joiners.length + 2) joiners held [.broken fault] = .error fault := by
  induction joiners with
  | nil => rfl
  | cons joiner joiners ih =>
      have hlimit : limit + (joiner :: joiners).length + 2 = (limit + joiners.length + 2) + 1 := by
        simp only [List.length_cons]
        omega
      rw [hlimit, readJoined, ih]
      rfl

theorem readRest_broken (limit : Nat) (hheld : held + 2 ≤ ExpressionFault.depthLimit)
    (left : Expression) (fault : ExpressionFault) :
    readRest (limit + 4) .and [.not] held left [.joiner .and, .broken fault] = .error fault := by
  have htake := take_joiner hheld .and [.broken fault]
  have hbroken := readJoined_broken limit (held + 2) [.not] fault
  rw [readRest]
  simp only [peek, if_pos, htake, bind, Except.bind]
  rw [show limit + 3 = limit + [Joiner.not].length + 2 from rfl, hbroken]

theorem read_allOf_of_error (h : readJoined (6 * (lexemes (allOf (word :: words))).length + 6)
      [.or, .and, .not] 0 (lexemes (allOf (word :: words))) = .error fault) :
    read (allOf (word :: words)) = .error fault := by
  obtain ⟨rest, hrest⟩ := exists_allOf_eq word words
  rw [hrest] at h ⊢
  simp [read, h, bind, Except.bind]

theorem read_allOf_cut_first (hhead : '\x00' ∉ head) (tail : List Char)
    (after : List (List Char)) :
    read (allOf ((head ++ '\x00' :: tail) :: after)) = .error .unterminated := by
  refine read_allOf_of_error ?_
  rw [lexemes_allOf_cut_first hhead tail after]
  exact readJoined_broken 7 0 [.or, .and, .not] .unterminated

theorem read_allOf_cut_later (hbefore : ∀ w ∈ word :: before, '\x00' ∉ w)
    (hhead : '\x00' ∉ head) (tail : List Char) (after : List (List Char)) :
    read (allOf (word :: before ++ (head ++ '\x00' :: tail) :: after)) =
      .error .unterminated := by
  have hlexemes := lexemes_allOf_cut_later hbefore hhead tail after
  have hlimit : 6 * (lexemes (allOf (word :: before ++ (head ++ '\x00' :: tail) :: after))).length
      + 6 = (11 * before.length + 18) + before.length + 6 := by
    rw [hlexemes, List.length_cons, length_joinedTexts, List.length_cons, List.length_singleton]
    omega
  have hheld : 0 + 4 ≤ ExpressionFault.depthLimit := by decide
  have hwhole := readJoined_joinedTexts (11 * before.length + 18) hheld
    (.and [.broken .unterminated]) word before
  rw [readRest_broken _ (by decide), ← hlexemes, ← hlimit] at hwhole
  exact read_allOf_of_error hwhole

/-- An expression for words of which one has a null character does not end. -/
theorem read_allOf_of_null (h : ∃ w ∈ words, '\x00' ∈ w) :
    read (allOf words) = .error .unterminated := by
  have hsome : (words.find? (List.contains · '\x00')).isSome := by simpa using h
  obtain ⟨w, hw⟩ := Option.isSome_iff_exists.mp hsome
  obtain ⟨hnull, before, after, rfl, hbefore⟩ := List.find?_eq_some_iff_append.mp hw
  obtain ⟨head, tail, rfl, hhead⟩ := List.eq_append_cons_of_mem (List.contains_iff_mem.mp hnull)
  cases before with
  | nil => exact read_allOf_cut_first hhead tail after
  | cons word before => exact read_allOf_cut_later (by simpa using hbefore) hhead tail after

end Expression

end Outline.Search
