import Outline.Proofs.QueryGrammar

/-!
# Matches of property queries

A query for a text finds the atoms whose property holds the text once both are in lower case,
and the case of its ASCII letters is of no account.  A text that stands in the property as it
is written is found as long as none of its capital sigmas ends a word in one place only: such
a sigma has another small form there than in the query.
-/

namespace Outline

namespace Text

variable {c : Char} {s text before after : List Char}

theorem occurs_iff_infix {part : List Char} : occurs part s ↔ part <:+: s := by
  induction s with
  | nil => simp [occurs]
  | cons c s ih => simp [occurs, ih, List.infix_cons_iff]

/-! ## Lower-casing in context -/

namespace LetterCase

/-- Whether a capital sigma between two texts, the first of which is given backwards, has the
small form that ends a word. -/
def endsWord (before after : List Char) : Bool :=
  nearestIsCased before && !nearestIsCased after

theorem lowerChar_eq_of_ne (hc : c ≠ 'Σ') (before after before' after' : List Char) :
    lowerChar before c after = lowerChar before' c after' := by
  simp [lowerChar, hc]

theorem lowerChar_sigma {before' after' : List Char}
    (h : endsWord before after = endsWord before' after') :
    lowerChar before 'Σ' after = lowerChar before' 'Σ' after' := by
  simp only [endsWord] at h
  simp [lowerChar, h]

/-- What stands before a text stays before it in lower case. -/
theorem exists_lowerFrom_append (before s text : List Char) :
    ∃ front, lowerFrom before (s ++ text) = front ++ lowerFrom (s.reverse ++ before) text := by
  induction s generalizing before with
  | nil => exact ⟨[], rfl⟩
  | cons c s ih =>
      obtain ⟨front, hfront⟩ := ih (c :: before)
      exact ⟨lowerChar before c (s ++ text) ++ front, by simp [lowerFrom, hfront]⟩

/-- A text whose sigmas keep their forms has the same lower case between other texts.  Part of
it has been passed. -/
theorem lowerFrom_append (passed before : List Char)
    (h : ∀ s t, text = s ++ 'Σ' :: t →
      endsWord (s.reverse ++ passed) t = endsWord (s.reverse ++ (passed ++ before)) (t ++ after)) :
    lowerFrom (passed ++ before) (text ++ after) =
      lowerFrom passed text ++ lowerFrom (text.reverse ++ (passed ++ before)) after := by
  induction text generalizing passed with
  | nil => rfl
  | cons c text ih =>
      have hchar : lowerChar (passed ++ before) c (text ++ after) = lowerChar passed c text := by
        by_cases hc : c = 'Σ'
        · subst hc
          exact lowerChar_sigma (h [] text rfl).symm
        · exact lowerChar_eq_of_ne hc _ _ _ _
      have hrest := ih (c :: passed) fun s t heq => by
        simpa using h (c :: s) t (by rw [heq, List.cons_append])
      rw [List.cons_append] at hrest
      simp [lowerFrom, hchar, hrest]

end LetterCase

/-- Each capital sigma of a text has the same small form alone as it has between two other
texts. -/
def SigmasKept (before text after : List Char) : Prop :=
  ∀ s t, text = s ++ 'Σ' :: t → LetterCase.endsWord s.reverse t =
    LetterCase.endsWord (s.reverse ++ before.reverse) (t ++ after)

theorem SigmasKept.lowerCase_infix (h : SigmasKept before text after) :
    lowerCase text <:+: lowerCase (before ++ text ++ after) := by
  obtain ⟨front, hfront⟩ := LetterCase.exists_lowerFrom_append [] before (text ++ after)
  have hpart := LetterCase.lowerFrom_append [] before.reverse fun s t heq => by
    simpa using h s t heq
  rw [List.nil_append] at hpart
  refine ⟨front, LetterCase.lowerFrom (text.reverse ++ before.reverse) after, ?_⟩
  rw [lowerCase, lowerCase, List.append_assoc before, hfront, List.append_nil, hpart,
    List.append_assoc]

/-! ## Letters of either case -/

namespace LetterCase

/-- The properties of a character that decide about sigmas do not depend on ASCII case. -/
theorem contains_toLower (c : Char) :
    ignorableRanges.contains c.toLower = ignorableRanges.contains c ∧
      casedRanges.contains c.toLower = casedRanges.contains c := by
  have hcodes : ∀ code ∈ List.range' 0x41 26,
      ignorableRanges.contains (Char.ofNat code).toLower =
          ignorableRanges.contains (Char.ofNat code) ∧
        casedRanges.contains (Char.ofNat code).toLower =
          casedRanges.contains (Char.ofNat code) := by
    decide +kernel
  obtain hc | ⟨code, hcode, rfl⟩ := toLower_cases c
  · rw [hc]
    exact ⟨rfl, rfl⟩
  · exact hcodes code hcode

theorem nearestIsCased_asciiLowerCase (s : List Char) :
    nearestIsCased (asciiLowerCase s) = nearestIsCased s := by
  induction s with
  | nil => rfl
  | cons c s ih =>
      obtain ⟨hignorable, hcased⟩ := contains_toLower c
      rw [asciiLowerCase] at ih
      simp only [asciiLowerCase, List.map_cons, nearestIsCased, hignorable, hcased, ih]

theorem lowerChar_asciiLowerCase (before : List Char) (c : Char) (after : List Char) :
    lowerChar (asciiLowerCase before) c.toLower (asciiLowerCase after) =
      lowerChar before c after := by
  have hcodes : ∀ code ∈ List.range' 0x41 26, (Char.ofNat code).toNat < 0x80 ∧
      (Char.ofNat code).toLower.toNat < 0x80 ∧
      (Char.ofNat code).toLower.toLower = (Char.ofNat code).toLower := by
    decide +kernel
  obtain hc | ⟨code, hcode, rfl⟩ := toLower_cases c
  · simp only [hc, lowerChar, nearestIsCased_asciiLowerCase]
  · obtain ⟨hcapital, hsmall, htwice⟩ := hcodes code hcode
    rw [lowerChar, lowerChar, if_pos hsmall, if_pos hcapital, htwice]

theorem lowerFrom_asciiLowerCase (before s : List Char) :
    lowerFrom (asciiLowerCase before) (asciiLowerCase s) = lowerFrom before s := by
  induction s generalizing before with
  | nil => rfl
  | cons c s ih =>
      have hchar := lowerChar_asciiLowerCase before c s
      have hrest := ih (c :: before)
      simp only [asciiLowerCase, List.map_cons] at hchar hrest
      simp only [asciiLowerCase, List.map_cons, lowerFrom, hchar, hrest]

end LetterCase

/-- The case of ASCII letters is of no account for the lower case. -/
theorem lowerCase_eq_of_ascii {other : List Char} (h : asciiLowerCase other = asciiLowerCase text) :
    lowerCase other = lowerCase text := by
  have hother := LetterCase.lowerFrom_asciiLowerCase [] other
  rw [h] at hother
  exact hother.symm.trans (LetterCase.lowerFrom_asciiLowerCase [] text)

theorem quote_mem_asciiLowerCase : '"' ∈ asciiLowerCase s ↔ '"' ∈ s := by
  have hcodes : ∀ code ∈ List.range' 0x41 26,
      (Char.ofNat code).toLower ≠ '"' ∧ Char.ofNat code ≠ '"' := by
    decide +kernel
  have hquote (c : Char) : c.toLower = '"' ↔ c = '"' := by
    obtain hc | ⟨code, hcode, rfl⟩ := toLower_cases c
    · rw [hc]
    · exact iff_of_false (hcodes code hcode).1 (hcodes code hcode).2
  simp [asciiLowerCase, hquote]

end Text

namespace PropertyQuery

variable {store : Store} {field : QueryField} {text : List Char}

/-! ## Candidates -/

/-- The query for a text in one property. -/
def termQuery (field : QueryField) (text : List Char) : String :=
  String.ofList (field.name.toList ++ '=' :: '"' :: (text ++ ['"']))

theorem terms_termQuery (htext : '"' ∉ text) :
    terms (termQuery field text) = .ok [{ field, needle := Text.lowerCase text }] := by
  have hletters : ∀ c ∈ field.name.toList, isNameChar c :=
    List.all_eq_true.mp (by cases field <;> decide)
  have hname : Text.asciiLowerCase field.name.toList = field.name.toList := by
    cases field <;> decide
  have hne : field.name.toList ≠ [] := by cases field <;> decide
  have hgap : IsGap [] := by simp [IsGap]
  have hwritten : Written field.name.toList text _ := .mk hne hletters hgap hgap htext
  have hsentence := Sentence.term (.blank hgap) (.inl rfl) hwritten hname hgap
  refine Sentence.terms_eq ?_
  simpa [termQuery] using hsentence

theorem candidates_termQuery (htext : '"' ∉ text) :
    candidates (termQuery field text) store =
      match store.listAtoms with
      | .ok atoms => .ok ((atoms.filter
          (QueryTerm.holds { field, needle := Text.lowerCase text })).map Atom.id)
      | .error cause => .error (.store cause) := by
  rw [candidates, terms_termQuery htext]
  cases store.listAtoms with
  | ok atoms => simp [bind, Except.bind, pure, Except.pure]
  | error cause => rfl

/-- The candidates for a text are the atoms whose property holds it in lower case, and no
change of ASCII case in the text changes them.  Among them are the atoms whose property holds
the text as it is written, if every capital sigma of the text keeps its form there. -/
theorem candidates_of_term (htext : '"' ∉ text) :
    (∀ atoms, store.listAtoms = .ok atoms →
      ∃ ids, candidates (termQuery field text) store = .ok ids ∧
        (∀ id, id ∈ ids ↔ ∃ atom ∈ atoms, atom.id = id ∧ ∃ value, field.read atom = some value ∧
          Text.lowerCase text <:+: Text.lowerCase value.toList) ∧
        ∀ atom ∈ atoms, ∀ value before after, field.read atom = some value →
          value.toList = before ++ text ++ after → Text.SigmasKept before text after →
          atom.id ∈ ids) ∧
      ∀ other, Text.asciiLowerCase other = Text.asciiLowerCase text →
        candidates (termQuery field other) store = candidates (termQuery field text) store := by
  refine ⟨fun atoms hlist => ?_, fun other hother => ?_⟩
  · have hids (id : AtomId) :
        id ∈ (atoms.filter (QueryTerm.holds { field, needle := Text.lowerCase text })).map
          Atom.id ↔ ∃ atom ∈ atoms, atom.id = id ∧ ∃ value, field.read atom = some value ∧
            Text.lowerCase text <:+: Text.lowerCase value.toList := by
      simp only [List.mem_map, List.mem_filter, QueryTerm.holds, Option.any_eq_true,
        Text.occurs_iff_infix, and_assoc]
      exact exists_congr fun _ => and_congr_right fun _ => and_comm
    refine ⟨_, by rw [candidates_termQuery htext, hlist], hids, ?_⟩
    intro atom hatom value before after hvalue heq hkept
    refine (hids _).mpr ⟨atom, hatom, rfl, value, hvalue, ?_⟩
    rw [heq]
    exact hkept.lowerCase_infix
  · have hquote : '"' ∉ other := by
      rwa [← Text.quote_mem_asciiLowerCase, hother, Text.quote_mem_asciiLowerCase]
    rw [candidates_termQuery hquote, candidates_termQuery htext, Text.lowerCase_eq_of_ascii hother]

/-- One atom, in whose value a capital sigma stands inside a word. -/
def sampleSigma : Store where
  atoms := [.ofAtom { id := "a", value := some "ΑΣΑ" }]

theorem sample_candidates :
    '"' ∉ ['Σ', 'Α'] ∧
      ∃ ids, candidates (termQuery .value ['Σ', 'Α']) sampleSigma = .ok ids ∧ "a" ∈ ids := by
  have htext : '"' ∉ ['Σ', 'Α'] := by decide
  have hlist : sampleSigma.listAtoms = .ok [{ id := "a", value := some "ΑΣΑ" }] := by
    decide +kernel
  have hkept : Text.SigmasKept ['Α'] ['Σ', 'Α'] [] := by
    intro s t heq
    cases s with
    | nil =>
        obtain rfl : ['Α'] = t := (List.cons.inj heq).2
        decide +kernel
    | cons c s => simp [List.cons_eq_append_iff] at heq
  obtain ⟨ids, hids, -, hfound⟩ := (candidates_of_term htext).1 _ hlist
  exact ⟨htext, ids, hids, hfound _ List.mem_cons_self _ ['Α'] [] rfl (by decide) hkept⟩

/-- Alone the sigma ends a word, so the text is not found though it stands there. -/
theorem final_sigma_not_found :
    sampleSigma.listAtoms = .ok [{ id := "a", value := some "ΑΣΑ" }] ∧
      "ΑΣ".toList <:+: "ΑΣΑ".toList ∧ '"' ∉ "ΑΣ".toList ∧
      candidates (termQuery .value "ΑΣ".toList) sampleSigma = .ok [] := by
  refine ⟨by decide +kernel, ⟨[], ['Α'], by decide⟩, by decide, by decide +kernel⟩

end PropertyQuery

end Outline
