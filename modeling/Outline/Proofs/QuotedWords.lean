import Mathlib.Data.List.Basic
import Outline.Proofs.Words
import Outline.Search.Request

/-!
# Quoted words

A request for plain words writes each of them between quotes and joins them by `AND`.
Whatever characters a word is made of, the quoted text stands for it again: a joiner between
quotes is a word like any other, and a quote inside a word does not end it.  Only a null
character cannot be quoted, since it ends every expression.  So what is read is the
conjunction of one phrase for each word.
-/

namespace Outline.Search

open SearchRequest (allOf)

variable {c : Char} {word rest : List Char} {words : List (List Char)}

/-! ## Quotes -/

theorem mem_doubled : c ∈ doubled word ↔ c ∈ word := by
  induction word with
  | nil => rfl
  | cons x word ih =>
      rw [doubled]
      split <;> simp_all

/-- The quote that ends a quoted text is the first one that is not doubled. -/
theorem spanQuoted_doubled (hrest : rest.head? ≠ some '"') (word : List Char) :
    spanQuoted (doubled word ++ '"' :: rest) = some (doubled word ++ ['"'], rest) := by
  induction word with
  | nil =>
      cases rest with
      | nil => rfl
      | cons c rest =>
          rw [doubled, List.nil_append, spanQuoted, if_pos rfl]
          · rfl
          · rintro s - heq
            exact hrest (by simp_all)
  | cons c word ih =>
      rw [doubled]
      split
      · rw [List.cons_append, List.cons_append, spanQuoted, ih]
        rfl
      · rename_i hc
        rw [List.cons_append, spanQuoted, if_neg hc, ih]
        · rfl
        · exact fun _ heq => absurd heq hc

theorem undoubled_doubled (word : List Char) : undoubled (doubled word ++ ['"']) = word := by
  induction word with
  | nil => rfl
  | cons c word ih =>
      rw [doubled]
      split
      · rename_i hc
        rw [List.cons_append, List.cons_append, undoubled, ih, hc]
      · rename_i hc
        rw [List.cons_append, undoubled, if_neg hc, ih]
        exact fun _ heq => absurd heq hc

/-- A quoted text stands for the text that was quoted. -/
@[simp] theorem unquoted_quoted (word : List Char) : unquoted (quoted word) = word := by
  rw [quoted, List.cons_append, unquoted, if_pos rfl, undoubled_doubled]

/-! ## Lexemes -/

theorem lexemesOf_quoted (hrest : rest.head? ≠ some '"') (word : List Char) :
    lexemesOf (quoted word ++ rest) = .text (quoted word) :: lexemesOf rest := by
  have hspan := spanQuoted_doubled hrest word
  rw [quoted, List.append_assoc, List.cons_append, List.singleton_append, lexemesOf,
    if_neg (by decide), if_pos rfl]
  split
  · rename_i heq
    rw [hspan] at heq
    cases heq
    rfl
  · rename_i heq
    rw [hspan] at heq
    cases heq

theorem lexemesOf_and (s : List Char) :
    lexemesOf ([' ', 'A', 'N', 'D', ' '] ++ s) = .joiner .and :: lexemesOf s := by
  have hgap (s : List Char) : lexemesOf (' ' :: s) = lexemesOf s := by
    rw [lexemesOf, if_pos (by decide)]
  have hbare : isBare 'N' ∧ isBare 'D' ∧ isBare ' ' = false := by decide
  obtain ⟨hN, hD, hgap'⟩ := hbare
  rw [List.cons_append, hgap, List.cons_append, lexemesOf, if_neg (by decide), if_neg (by decide),
    if_pos (by decide)]
  simp only [List.cons_append, List.nil_append, List.takeWhile_cons, List.dropWhile_cons, hN, hD,
    hgap', if_true, Bool.false_eq_true, if_false, hgap]
  rfl

/-- The lexemes of the words that follow the first one, before some others. -/
def joinedTexts (others : List Lexeme) : List (List Char) → List Lexeme
  | [] => others
  | word :: words => .joiner .and :: .text (quoted word) :: joinedTexts others words

theorem length_joinedTexts (others : List Lexeme) (words : List (List Char)) :
    (joinedTexts others words).length = 2 * words.length + others.length := by
  induction words with
  | nil => rw [joinedTexts, List.length_nil, Nat.mul_zero, Nat.zero_add]
  | cons word words ih =>
      rw [joinedTexts, List.length_cons, List.length_cons, List.length_cons, ih]
      omega

theorem allOf_cons (word : List Char) (words : List (List Char)) :
    allOf (word :: words) =
      quoted word ++ words.flatMap fun next => [' ', 'A', 'N', 'D', ' '] ++ quoted next := by
  induction words generalizing word with
  | nil => rw [allOf, List.flatMap_nil, List.append_nil]
  | cons next words ih => rw [allOf, ih, List.flatMap_cons]; simp only [List.append_assoc]; simp

/-- The expression for some words begins with a quote. -/
theorem exists_allOf_eq (word : List Char) (words : List (List Char)) :
    ∃ tail, allOf (word :: words) = '"' :: tail :=
  ⟨_, by rw [allOf_cons, quoted, List.cons_append, List.cons_append]⟩

theorem lexemesOf_allOf (hrest : rest.head? ≠ some '"') (word : List Char)
    (words : List (List Char)) :
    lexemesOf (allOf (word :: words) ++ rest) =
      .text (quoted word) :: joinedTexts (lexemesOf rest) words := by
  rw [allOf_cons, List.append_assoc]
  induction words generalizing word with
  | nil => rw [List.flatMap_nil, List.nil_append, lexemesOf_quoted hrest, joinedTexts]
  | cons next words ih =>
      rw [List.flatMap_cons, List.append_assoc, List.append_assoc, lexemesOf_quoted (by simp),
        lexemesOf_and, ih, joinedTexts]

theorem null_not_mem_quoted (hnull : '\x00' ∉ word) : '\x00' ∉ quoted word := by
  simpa [quoted, mem_doubled] using hnull

theorem null_not_mem_allOf (hnull : ∀ w ∈ word :: words, '\x00' ∉ w) :
    '\x00' ∉ allOf (word :: words) := by
  obtain ⟨hword, hwords⟩ := List.forall_mem_cons.mp hnull
  intro hc
  rw [allOf_cons, List.mem_append, List.mem_flatMap] at hc
  rcases hc with hc | ⟨next, hnext, hc⟩
  · exact null_not_mem_quoted hword hc
  · rcases List.mem_append.mp hc with hc | hc
    · exact absurd hc (by decide)
    · exact null_not_mem_quoted (hwords next hnext) hc

/-- A text without a null character is read to its end. -/
theorem takeWhile_of_null_not_mem {s : List Char} (hnull : '\x00' ∉ s) :
    s.takeWhile (· != '\x00') = s := by
  refine List.takeWhile_eq_self_iff.mpr fun c hc => ?_
  rw [bne_iff_ne]
  rintro rfl
  exact hnull hc

theorem lexemes_allOf (hnull : ∀ w ∈ word :: words, '\x00' ∉ w) :
    lexemes (allOf (word :: words)) = .text (quoted word) :: joinedTexts [.finish] words := by
  have hend : lexemesOf [] = [.finish] := by rw [lexemesOf]
  rw [lexemes, takeWhile_of_null_not_mem (null_not_mem_allOf hnull), ← List.append_nil (allOf _),
    lexemesOf_allOf (by simp), hend]

/-! ## Phrases -/

/-- The phrase that a word asks for. -/
def Phrase.ofWord (word : List Char) : Phrase where
  terms := (Text.tokens word).map fun token => { token }

theorem Phrase.append_empty (word : List Char) :
    Phrase.append {} word false = Phrase.ofWord word := by
  rw [Phrase.append, Phrase.ofWord]
  simp only [List.nil_append]
  split
  · rfl
  · rename_i last hlast
    obtain ⟨token, -, rfl⟩ := List.mem_map.mp (List.mem_of_getLast? hlast)
    exact congrArg (fun terms => ({ terms } : Phrase)) (List.dropLast_append_getLast? _ hlast)

namespace Expression

/-- The expression that a word stands for by itself. -/
def ofWord (word : List Char) : Expression :=
  ofPhrases [Phrase.ofWord word] 10

/-- An expression and one more word. -/
def andWord (left : Expression) (word : List Char) : Expression :=
  joined .and left (ofWord word)

/-- The conjunction of a word and later ones. -/
def ofWords (word : List Char) (words : List (List Char)) : Expression :=
  words.foldl andWord (ofWord word)

theorem ofWord_eq (word : List Char) :
    ofWord word = nothing ∨ ∃ g, ofWord word = group g := by
  rw [ofWord, ofPhrases]
  split
  · exact .inl rfl
  · exact .inr ⟨_, rfl⟩

/-- One or more words, joined one after the other. -/
inductive IsConjunction : Expression → Prop
  | word (word : List Char) : IsConjunction (ofWord word)
  | and {left : Expression} (h : left.IsConjunction) (word : List Char) :
      IsConjunction (left.andWord word)

theorem height_andWord_andWord (left : Expression) (last word : List Char) :
    ((left.andWord last).andWord word).height = max (left.andWord last).height 1 := by
  rcases ofWord_eq word with hword | ⟨_, hword⟩ <;> rw [andWord, hword] <;> rfl

/-- Words that are joined stand side by side in the tree, however many there are. -/
theorem IsConjunction.height_andWord {left : Expression} (h : left.IsConjunction)
    (word : List Char) : (left.andWord word).height = 1 := by
  induction h generalizing word with
  | word first =>
      rcases ofWord_eq first with hfirst | ⟨_, hfirst⟩ <;>
        rcases ofWord_eq word with hword | ⟨_, hword⟩ <;>
          rw [andWord, hfirst, hword] <;> rfl
  | and _ last ih => rw [height_andWord_andWord, ih, max_self]

theorem IsConjunction.join_eq {left : Expression} (h : left.IsConjunction) (word : List Char) :
    join .and left (ofWord word) = .ok (left.andWord word) :=
  if_pos (by rw [← andWord, h.height_andWord]; decide)

/-! ## Reading

A joiner is settled before the next one is read.  So a conjunction of any length leaves no
more than four parts unfinished at once, and `limit` need only be as large as there are
words. -/

variable {limit held : Nat} {next : Lexeme} {s : List Lexeme} {left : Expression}

/-- What follows a word in a conjunction: the joiner `AND` or the end. -/
inductive EndsWord : List Lexeme → Prop
  | finish (s : List Lexeme) : EndsWord (.finish :: s)
  | and (s : List Lexeme) : EndsWord (.joiner .and :: s)

theorem EndsWord.joinedTexts (hs : EndsWord s) (words : List (List Char)) :
    EndsWord (joinedTexts s words) := by
  cases words with
  | nil => exact hs
  | cons word words => exact .and _

theorem hold_eq_ok (hheld : held ≤ ExpressionFault.depthLimit) : hold held = .ok () :=
  if_pos hheld

theorem takeText_text (hheld : held ≤ ExpressionFault.depthLimit) (written : List Char)
    (s : List Lexeme) : takeText held (.text written :: s) = .ok (written, s) := by
  simp only [takeText, peek, hold_eq_ok hheld, bind, Except.bind]
  rfl

theorem take_joiner (hheld : held ≤ ExpressionFault.depthLimit) (joiner : Joiner)
    (s : List Lexeme) : take (.joiner joiner) held (.joiner joiner :: s) = .ok s := by
  simp only [take, peek, if_pos, hold_eq_ok hheld, bind, Except.bind]
  rfl

theorem readPhraseAfter_quoted (limit : Nat) (hheld : held + 2 ≤ ExpressionFault.depthLimit)
    (hs : EndsWord s) (word : List Char) :
    readPhraseAfter (limit + 1) held (quoted word) s = .ok (Phrase.ofWord word, s) := by
  cases hs <;>
    simp [readPhraseAfter, takeStar, readMoreTexts, peek, hold_eq_ok hheld, Phrase.append_empty,
      bind, Except.bind, pure, Except.pure]

theorem readGroupAfter_quoted (limit : Nat) (hheld : held + 2 ≤ ExpressionFault.depthLimit)
    (hs : EndsWord s) (word : List Char) :
    readGroupAfter (limit + 1) held (quoted word) s = .ok (ofWord word, s) := by
  have hphrase := readPhraseAfter_quoted limit hheld hs word
  cases hs <;>
    simp [readGroupAfter, peek, hphrase, ofWord, bind, Except.bind, pure, Except.pure]

theorem readMoreGroups_of_endsWord (limit held : Nat) (hs : EndsWord s) (left : Expression) :
    readMoreGroups (limit + 1) held left s = .ok (left, s) := by
  cases hs <;> rfl

theorem readBeginning_quoted (limit : Nat) (hheld : held + 1 ≤ ExpressionFault.depthLimit)
    (hs : EndsWord s) (word : List Char) :
    readBeginning limit held (.text (quoted word) :: s) = .ok (.word (quoted word), s) := by
  have htake := takeText_text hheld (quoted word) s
  cases hs <;>
    simp [readBeginning, peek, htake, bind, Except.bind, pure, Except.pure]

/-- A quoted word is an operand by itself. -/
theorem readOperand_quoted (limit : Nat) (hheld : held + 2 ≤ ExpressionFault.depthLimit)
    (hs : EndsWord s) (word : List Char) :
    readOperand (limit + 2) held (.text (quoted word) :: s) = .ok (ofWord word, s) := by
  have hbeginning := readBeginning_quoted (limit + 1) (Nat.le_of_succ_le hheld) hs word
  have hgroup := readGroupAfter_quoted limit hheld hs word
  have hmore := readMoreGroups_of_endsWord limit held hs (ofWord word)
  simp [readOperand, peek, hbeginning, hgroup, hmore, bind, Except.bind]

/-- A reader of what a joiner joins stops where another lexeme stands. -/
theorem readRest_of_ne {joiner : Joiner} (hnext : peek s = .ok next) (hne : next ≠ .joiner joiner)
    (tighter : List Joiner) :
    readRest (limit + 1) joiner tighter held left s = .ok (left, s) := by
  simp [readRest, hnext, hne, bind, Except.bind, pure, Except.pure]

theorem readRest_of_endsWord (limit held : Nat) {joiner : Joiner} (hjoiner : joiner ≠ .and)
    (hs : EndsWord s) (tighter : List Joiner) (left : Expression) :
    readRest (limit + 1) joiner tighter held left s = .ok (left, s) := by
  cases hs with
  | finish => exact readRest_of_ne rfl (by simp) tighter
  | and => exact readRest_of_ne rfl (by simpa using hjoiner.symm) tighter

/-- Between two joiners a single word is read. -/
theorem readJoined_not (limit : Nat) (hheld : held + 2 ≤ ExpressionFault.depthLimit)
    (hs : EndsWord s) (word : List Char) :
    readJoined (limit + 4) [.not] held (.text (quoted word) :: s) = .ok (ofWord word, s) := by
  have hne : Joiner.not ≠ .and := by decide
  have hoperand := readOperand_quoted limit hheld hs word
  have hrest := readRest_of_endsWord (limit + 2) held hne hs [] (ofWord word)
  simp only [readJoined, hoperand, hrest, bind, Except.bind]

/-- Each further word is joined to those before it. -/
theorem readRest_and (limit : Nat) (hleft : left.IsConjunction)
    (hheld : held + 4 ≤ ExpressionFault.depthLimit) (hs : EndsWord s) (words : List (List Char)) :
    readRest (limit + words.length + 4) .and [.not] held left (joinedTexts s words) =
      readRest (limit + 4) .and [.not] held (words.foldl andWord left) s := by
  induction words generalizing left with
  | nil => rfl
  | cons word words ih =>
      have hmore := ih (hleft.and word)
      have hword := readJoined_not (limit + words.length) hheld (hs.joinedTexts words) word
      have hjoiner : held + 2 ≤ ExpressionFault.depthLimit := by omega
      have htake := take_joiner hjoiner .and (.text (quoted word) :: joinedTexts s words)
      have hlimit : limit + (word :: words).length + 4 = (limit + words.length + 4) + 1 := by
        simp only [List.length_cons]
        omega
      -- one round reads the joiner and the word after it, and the rounds left read the others
      rw [hlimit, readRest, joinedTexts]
      simp only [peek, if_pos, htake, hword, hleft.join_eq, bind, Except.bind]
      exact hmore

/-- The words of a conjunction are read, and then what stands after them. -/
theorem readJoined_joinedTexts (limit : Nat) (hheld : held + 4 ≤ ExpressionFault.depthLimit)
    (hs : EndsWord s) (word : List Char) (words : List (List Char)) :
    readJoined (limit + words.length + 6) [.or, .and, .not] held
        (.text (quoted word) :: joinedTexts s words) =
      readRest (limit + 4) .and [.not] held (ofWords word words) s >>= fun (left, s) =>
        readRest (limit + words.length + 5) .or [.and, .not] held left s := by
  have hfirst : held + 2 ≤ ExpressionFault.depthLimit := by omega
  have hword := readJoined_not (limit + words.length) hfirst (hs.joinedTexts words) word
  have hwords := readRest_and limit (.word word) hheld hs words
  rw [readJoined, readJoined]
  simp only [hword, hwords, bind, Except.bind]
  rfl

/-- Words without null characters are read back as the conjunction of their phrases. -/
theorem read_allOf (hnull : ∀ w ∈ word :: words, '\x00' ∉ w) :
    read (allOf (word :: words)) = .ok (ofWords word words) := by
  have hlexemes := lexemes_allOf hnull
  have hlimit : 6 * (lexemes (allOf (word :: words))).length + 6 =
      (11 * words.length + 12) + words.length + 6 := by
    rw [hlexemes, List.length_cons, length_joinedTexts, List.length_singleton]
    omega
  have hheld : 0 + 4 ≤ ExpressionFault.depthLimit := by decide
  have hwhole := readJoined_joinedTexts (11 * words.length + 12) hheld (.finish []) word words
  rw [← hlexemes, ← hlimit, readRest_of_ne rfl (by simp)] at hwhole
  have hend := readRest_of_endsWord ((11 * words.length + 12) + words.length + 4) 0
    (by decide : Joiner.or ≠ .and) (.finish []) [.and, .not] (ofWords word words)
  obtain ⟨tail, htail⟩ := exists_allOf_eq word words
  rw [htail] at hwhole ⊢
  simp only [bind, Except.bind, hend] at hwhole
  simp [read, hwhole, peek, bind, Except.bind, pure, Except.pure]

end Expression

end Outline.Search
