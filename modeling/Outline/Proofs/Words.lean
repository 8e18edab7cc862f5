import Mathlib.Data.List.TakeWhile
import Outline.Text.Blank
import Outline.Text.Token

/-!
# Words and tokens

White space divides a text into words, and other characters divide it into tokens as well.
Both divisions go on after a dividing character as if the text began there.  White space
divides tokens too, so the tokens of a text are those of its words, in order.
-/

namespace Outline.Text

variable {c : Char} {s xs ys : List Char} {found : List (List Char)}

section Stopping

variable {α : Type} {p : α → Bool} {x : α}

theorem takeWhile_append_stop (hx : p x = false) (xs ys : List α) :
    (xs ++ x :: ys).takeWhile p = xs.takeWhile p := by
  induction xs with
  | nil => simp [hx]
  | cons y xs ih => by_cases hy : p y <;> simp [hy, ih]

theorem dropWhile_append_stop (hx : p x = false) (xs ys : List α) :
    (xs ++ x :: ys).dropWhile p = xs.dropWhile p ++ x :: ys := by
  induction xs with
  | nil => simp [hx]
  | cons y xs ih => by_cases hy : p y <;> simp [hy, ih]

end Stopping

/-! ## Words -/

theorem words_nil : words [] = [] := by
  rw [words]

theorem words_cons_blank (hc : isBlank c) (s : List Char) : words (c :: s) = words s := by
  rw [words, if_pos hc]

theorem words_cons_of_not_blank (hc : isBlank c = false) (s : List Char) :
    words (c :: s) =
      (c :: s.takeWhile (!isBlank ·)) :: words (s.dropWhile (!isBlank ·)) := by
  rw [words, if_neg (by simp [hc])]

/-- White space ends a word, and the words after it are those of the text after it. -/
theorem words_append_blank (hc : isBlank c) (xs ys : List Char) :
    words (xs ++ c :: ys) = words xs ++ words ys := by
  let isLetter (c : Char) : Bool := !isBlank c
  have hstop : isLetter c = false := by simp [isLetter, hc]
  induction xs using words.induct with
  | case1 => simp [words_nil, words_cons_blank hc]
  | case2 x xs hx ih => rw [List.cons_append, words_cons_blank hx, words_cons_blank hx, ih]
  | case3 x xs hx ih =>
      have hx : isBlank x = false := by simpa using hx
      have hword := takeWhile_append_stop hstop xs ys
      have hlater := dropWhile_append_stop hstop xs ys
      simp only [isLetter] at hword hlater
      rw [List.cons_append, words_cons_of_not_blank hx, words_cons_of_not_blank hx, hword, hlater,
        ih, List.cons_append]

theorem words_blanks_append (hblank : ∀ c ∈ xs, isBlank c) : words (xs ++ ys) = words ys := by
  induction xs with
  | nil => rfl
  | cons c xs ih =>
      obtain ⟨hc, hxs⟩ := List.forall_mem_cons.mp hblank
      rw [List.cons_append, words_cons_blank hc, ih hxs]

theorem words_eq_nil (hblank : ∀ c ∈ s, isBlank c) : words s = [] := by
  rw [← List.append_nil s, words_blanks_append hblank, words_nil]

theorem words_append_blanks (hblank : ∀ c ∈ ys, isBlank c) : words (xs ++ ys) = words xs := by
  cases ys with
  | nil => rw [List.append_nil]
  | cons c ys =>
      obtain ⟨hc, hys⟩ := List.forall_mem_cons.mp hblank
      rw [words_append_blank hc, words_eq_nil hys, List.append_nil]

/-! ## Texts made of words -/

/-- Some words written one after the other, with white space between them and perhaps
around them. -/
inductive Spaced : List (List Char) → List Char → Prop
  | blank {gap : List Char} (hgap : ∀ c ∈ gap, isBlank c) : Spaced [] gap
  | word {gap word rest : List Char} {later : List (List Char)} (hgap : ∀ c ∈ gap, isBlank c)
      (hne : word ≠ []) (hword : ∀ c ∈ word, isBlank c = false)
      (hrest : ∀ c ∈ rest.head?, isBlank c) (h : Spaced later rest) :
      Spaced (word :: later) (gap ++ word ++ rest)

/-- What begins with a word that white space or the end of the text follows. -/
theorem words_append_of_word {word rest : List Char} (hne : word ≠ [])
    (hword : ∀ c ∈ word, isBlank c = false) (hrest : ∀ c ∈ rest.head?, isBlank c) :
    words (word ++ rest) = word :: words rest := by
  have hsingle : words word = [word] := by
    cases word with
    | nil => exact absurd rfl hne
    | cons c word =>
        obtain ⟨hc, hword⟩ := List.forall_mem_cons.mp hword
        have hkept : ∀ c ∈ word, (!isBlank c) = true := by simpa using hword
        rw [words_cons_of_not_blank hc, List.takeWhile_eq_self_iff.mpr hkept,
          List.dropWhile_eq_nil_iff.mpr hkept, words_nil]
  cases rest with
  | nil => rw [List.append_nil, hsingle, words_nil]
  | cons c rest =>
      have hc : isBlank c := hrest c rfl
      rw [words_append_blank hc, hsingle, words_cons_blank hc, List.singleton_append]

/-- The words of a text are those that it was made of. -/
theorem Spaced.words_eq (h : Spaced found s) : words s = found := by
  induction h with
  | blank hgap => exact words_eq_nil hgap
  | word hgap hne hword hrest _ ih =>
      rw [List.append_assoc, words_blanks_append hgap, words_append_of_word hne hword hrest, ih]

theorem Spaced.cons_blank (h : Spaced found s) (hc : isBlank c) : Spaced found (c :: s) := by
  cases h with
  | blank hgap => exact .blank (List.forall_mem_cons.mpr ⟨hc, hgap⟩)
  | word hgap hne hword hrest h =>
      exact .word (List.forall_mem_cons.mpr ⟨hc, hgap⟩) hne hword hrest h

/-- Every text is made of its words. -/
theorem spaced_words (s : List Char) : Spaced (words s) s := by
  induction s using words.induct with
  | case1 =>
      rw [words_nil]
      exact .blank fun c hc => absurd hc List.not_mem_nil
  | case2 c s hc ih =>
      rw [words_cons_blank hc]
      exact ih.cons_blank hc
  | case3 c s hc ih =>
      have hc : isBlank c = false := by simpa using hc
      have hword : ∀ x ∈ c :: s.takeWhile (!isBlank ·), isBlank x = false := by
        refine List.forall_mem_cons.mpr ⟨hc, fun x hx => ?_⟩
        simpa using List.mem_takeWhile_imp hx
      have hrest : ∀ x ∈ (s.dropWhile (!isBlank ·)).head?, isBlank x := by
        intro x hx
        have hstop := List.head?_dropWhile_not (!isBlank ·) s
        rw [Option.mem_def.mp hx] at hstop
        simpa using hstop
      have hgap : ∀ x ∈ [], isBlank x := by simp
      have h := Spaced.word hgap (List.cons_ne_nil _ _) hword hrest ih
      rw [words_cons_of_not_blank hc]
      simpa using h

/-- All of a text but its white space belongs to its words. -/
theorem Spaced.mem_iff (h : Spaced found s) (hc : isBlank c = false) :
    c ∈ s ↔ ∃ word ∈ found, c ∈ word := by
  have hgap {gap : List Char} (hgap : ∀ c ∈ gap, isBlank c) : c ∉ gap := by
    intro hmem
    rw [hgap c hmem] at hc
    cases hc
  induction h with
  | blank hblank => simpa using hgap hblank
  | word hblank _ _ _ _ ih => simp [hgap hblank, ih]

theorem spaced_iff : Spaced found s ↔ words s = found :=
  ⟨Spaced.words_eq, fun h => h ▸ spaced_words s⟩

/-! ## Tokens -/

theorem tokens_nil : tokens [] = [] := by
  rw [tokens]

theorem tokens_cons (hc : Token.isWordChar c) (s : List Char) :
    tokens (c :: s) = (c :: s.takeWhile Token.continues).flatMap Token.fold ::
      tokens (s.dropWhile Token.continues) := by
  rw [tokens, if_pos hc]

theorem tokens_cons_of_not (hc : ¬Token.isWordChar c) (s : List Char) :
    tokens (c :: s) = tokens s := by
  rw [tokens, if_neg hc]

/-- A character that continues no token ends one, and the tokens after it are those of the
text from there. -/
theorem tokens_append (hc : Token.continues c = false) (xs ys : List Char) :
    tokens (xs ++ c :: ys) = tokens xs ++ tokens (c :: ys) := by
  induction xs using tokens.induct with
  | case1 => rw [List.nil_append, tokens_nil, List.nil_append]
  | case2 x xs hx ih =>
      rw [List.cons_append, tokens_cons hx, tokens_cons hx, takeWhile_append_stop hc,
        dropWhile_append_stop hc, ih, List.cons_append]
  | case3 x xs hx ih => rw [List.cons_append, tokens_cons_of_not hx, tokens_cons_of_not hx, ih]

/-- The code points of white space. -/
def blankCodes : List Nat :=
  blankRanges.flatMap fun range => List.range' range.1 (range.2 + 1 - range.1)

theorem mem_blankCodes (hc : isBlank c) : c.toNat ∈ blankCodes := by
  obtain ⟨range, hrange, hc⟩ := List.any_eq_true.mp hc
  rw [Bool.and_eq_true, decide_eq_true_eq, decide_eq_true_eq] at hc
  refine List.mem_flatMap.mpr ⟨range, hrange, List.mem_range'_1.mpr ?_⟩
  omega

/-- White space is no part of a token. -/
theorem not_continues_of_isBlank (hc : isBlank c) : Token.continues c = false := by
  have hcodes : ∀ code ∈ blankCodes, Token.continues (Char.ofNat code) = false := by
    decide +kernel
  rw [← Char.ofNat_toNat c]
  exact hcodes c.toNat (mem_blankCodes hc)

theorem tokens_cons_blank (hc : isBlank c) (s : List Char) : tokens (c :: s) = tokens s := by
  refine tokens_cons_of_not (fun hword => ?_) s
  simpa [Token.continues, hword] using not_continues_of_isBlank hc

theorem tokens_append_blanks (hblank : ∀ c ∈ ys.head?, isBlank c) :
    tokens (xs ++ ys) = tokens xs ++ tokens ys := by
  cases ys with
  | nil => rw [List.append_nil, tokens_nil, List.append_nil]
  | cons c ys => exact tokens_append (not_continues_of_isBlank (hblank c rfl)) xs ys

theorem tokens_blanks_append (hblank : ∀ c ∈ xs, isBlank c) : tokens (xs ++ ys) = tokens ys := by
  induction xs with
  | nil => rfl
  | cons c xs ih =>
      obtain ⟨hc, hxs⟩ := List.forall_mem_cons.mp hblank
      rw [List.cons_append, tokens_cons_blank hc, ih hxs]

/-- The tokens of a text are those of the words that it was made of. -/
theorem Spaced.tokens_eq (h : Spaced found s) : tokens s = found.flatMap tokens := by
  induction h with
  | @blank gap hgap => rw [← List.append_nil gap, tokens_blanks_append hgap, tokens_nil]; rfl
  | word hgap _ _ hrest _ ih =>
      rw [List.append_assoc, tokens_blanks_append hgap, tokens_append_blanks hrest, ih,
        List.flatMap_cons]

/-- The tokens of a text are those of its words. -/
theorem tokens_eq (s : List Char) : tokens s = (words s).flatMap tokens :=
  (spaced_words s).tokens_eq

/-- A text has tokens if one of its characters is a letter or a digit. -/
theorem tokens_ne_nil : tokens s ≠ [] ↔ ∃ c ∈ s, Token.isWordChar c := by
  induction s with
  | nil => simp [tokens_nil]
  | cons c s ih =>
      by_cases hc : Token.isWordChar c
      · simp [tokens_cons hc, hc]
      · rw [tokens_cons_of_not hc, ih]
        simp [hc]

/-! ## Trimmed texts -/

theorem exists_trimStart (s : List Char) :
    ∃ gap, s = gap ++ trimStart s ∧ ∀ c ∈ gap, isBlank c :=
  ⟨s.takeWhile isBlank, List.takeWhile_append_dropWhile.symm, fun _ hc =>
    List.mem_takeWhile_imp hc⟩

theorem exists_trim (s : List Char) :
    ∃ before after, s = before ++ trim s ++ after ∧ (∀ c ∈ before, isBlank c) ∧
      ∀ c ∈ after, isBlank c := by
  obtain ⟨before, hstart, hbefore⟩ := exists_trimStart s
  obtain ⟨after, hend, hafter⟩ := exists_trimStart (trimStart s).reverse
  refine ⟨before, after.reverse, ?_, hbefore, fun c hc => hafter c (List.mem_reverse.mp hc)⟩
  rw [trim, List.append_assoc, ← List.reverse_append, ← hend, List.reverse_reverse, ← hstart]

/-- A text without words is trimmed to nothing. -/
theorem trim_eq_nil (h : words s = []) : trim s = [] := by
  have hblank : ∀ c ∈ s, isBlank c := by
    cases spaced_iff.mpr h with
    | blank hgap => exact hgap
  have hstart : trimStart s = [] := List.dropWhile_eq_nil_iff.mpr hblank
  rw [trim, hstart]
  rfl

/-- White space around a text belongs to none of its words. -/
theorem words_trim (s : List Char) : words (trim s) = words s := by
  obtain ⟨before, after, heq, hbefore, hafter⟩ := exists_trim s
  conv => rhs; rw [heq]
  rw [words_append_blanks hafter, words_blanks_append hbefore]

end Outline.Text
