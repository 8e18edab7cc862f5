import Mathlib.Control.Monad.Basic
import Mathlib.Data.String.Basic
import Mathlib.Tactic.ByContra
import Outline.PropertyQuery
import Outline.Proofs.Words

/-!
# The grammar of property queries

A query is a row of written terms with gaps around them.  Before each term but the first the
word `and` may stand, with a gap after it.  Reading a query accepts exactly this and finds
what its terms ask for.  Anything else fails where a term is due: the fault is the name of
the term that stands there, or that none does.
-/

namespace Outline

theorem QueryField.ofName?_eq_some {name : List Char} {field : QueryField} :
    ofName? name = some field ↔ Text.asciiLowerCase name = field.name.toList := by
  constructor
  · intro h
    have hname := List.find?_some h
    exact (beq_iff_eq.mp hname).symm
  · intro h
    cases field <;> rw [ofName?, h] <;> decide +kernel

theorem QueryField.ofName?_eq_none {name : List Char} :
    ofName? name = none ↔ ∀ field : QueryField, Text.asciiLowerCase name ≠ field.name.toList := by
  rw [Option.eq_none_iff_forall_ne_some]
  exact forall_congr' fun field => not_congr ofName?_eq_some

/-- Only the capital letters of ASCII have another lower case than themselves. -/
theorem Text.toLower_cases (c : Char) :
    c.toLower = c ∨ ∃ code ∈ List.range' 0x41 26, c = Char.ofNat code := by
  by_cases hupper : 'A'.val ≤ c.val ∧ c.val ≤ 'Z'.val
  · refine .inr ⟨c.toNat, ?_, (Char.ofNat_toNat c).symm⟩
    rw [List.mem_range'_1]
    exact ⟨hupper.1, Nat.lt_succ_of_le hupper.2⟩
  · exact .inl (dif_neg hupper)

namespace PropertyQuery

variable {query : String} {found : List QueryTerm} {s passed ahead rest gap : List Char}
  {name text written joiner : List Char} {field : QueryField}

/-! ## Grammar -/

/-- White space between the parts of a query, perhaps none. -/
def IsGap (s : List Char) : Prop :=
  ∀ c ∈ s, Text.isBlank c

/-- Nothing is left, or what is left does not begin with white space. -/
def Starts (s : List Char) : Prop :=
  ∀ c ∈ s.head?, Text.isBlank c = false

/-- A term with the given name and text as it is written. -/
inductive Written (name text : List Char) : List Char → Prop
  | mk {gap gap' : List Char} (hne : name ≠ []) (hname : ∀ c ∈ name, isNameChar c)
      (hgap : IsGap gap) (hgap' : IsGap gap') (htext : '"' ∉ text) :
      Written name text (name ++ (gap ++ '=' :: (gap' ++ '"' :: (text ++ ['"']))))

/-- The word `and` in letters of either case, with the gap after it. -/
inductive IsJoiner : List Char → Prop
  | mk {word gap : List Char} (hword : Text.asciiLowerCase word = ['a', 'n', 'd'])
      (hne : gap ≠ []) (hgap : IsGap gap) : IsJoiner (word ++ gap)

/-- What may stand between some terms and the next one, after the gap that ends them. -/
def MayJoin (found : List QueryTerm) (joiner : List Char) : Prop :=
  joiner = [] ∨ found ≠ [] ∧ IsJoiner joiner

/-- Written terms with gaps around them, and what they ask for. -/
inductive Sentence : List QueryTerm → List Char → Prop
  | blank {gap : List Char} (hgap : IsGap gap) : Sentence [] gap
  | term {found : List QueryTerm} {s joiner name text written gap : List Char}
      {field : QueryField} (h : Sentence found s) (hjoiner : MayJoin found joiner)
      (hwritten : Written name text written)
      (hfield : Text.asciiLowerCase name = field.name.toList) (hgap : IsGap gap) :
      Sentence (found ++ [{ field, needle := Text.lowerCase text }])
        (s ++ (joiner ++ (written ++ gap)))

/-- After some terms another one is due.  A joiner that stands there has been passed, and with
it all white space. -/
inductive Due (found : List QueryTerm) : List Char → List Char → Prop
  | plain {s ahead : List Char} (h : Sentence found s) (hne : ahead ≠ []) (hstart : Starts ahead)
      (hjoiner : found ≠ [] → ∀ joiner rest, IsJoiner joiner → ahead ≠ joiner ++ rest) :
      Due found s ahead
  | joined {s joiner ahead : List Char} (h : Sentence found s) (hne : found ≠ [])
      (hjoiner : IsJoiner joiner) (hstart : Starts ahead) : Due found (s ++ joiner) ahead

/-- What is wrong with a query where a term is due. -/
inductive Offence (query : String) (passed : List Char) : List Char → QueryError → Prop
  | unknownField {name text written rest : List Char} (hwritten : Written name text written)
      (hname : ∀ field : QueryField, Text.asciiLowerCase name ≠ field.name.toList) :
      Offence query passed (written ++ rest) (.unknownField (String.ofList name))
  | misshapen {ahead : List Char}
      (hnone : ∀ name text written rest, Written name text written → ahead ≠ written ++ rest) :
      Offence query passed ahead (.misshapen query (Text.byteCount passed))

/-! ## Gaps and names -/

theorem trimStart_gap (hgap : IsGap gap) (hstart : Starts ahead) :
    Text.trimStart (gap ++ ahead) = ahead := by
  rw [Text.trimStart, List.dropWhile_append_of_pos hgap]
  cases ahead with
  | nil => rfl
  | cons c ahead => rw [List.dropWhile_cons_of_neg (by simp [hstart c rfl])]

theorem starts_trimStart (s : List Char) : Starts (Text.trimStart s) := by
  intro c hc
  have hstop := List.head?_dropWhile_not Text.isBlank s
  rw [Text.trimStart] at hc
  rwa [Option.mem_def.mp hc] at hstop

/-- White space is no part of a name. -/
theorem not_isNameChar_of_isBlank {c : Char} (hc : Text.isBlank c) : isNameChar c = false := by
  have hcodes : ∀ code ∈ Text.blankCodes, isNameChar (Char.ofNat code) = false := by
    decide +kernel
  rw [← Char.ofNat_toNat c]
  exact hcodes c.toNat (Text.mem_blankCodes hc)

/-- A name ends where a gap begins or where another sign stands. -/
theorem span_name {c : Char} (hname : ∀ c ∈ name, isNameChar c) (hgap : IsGap gap)
    (hc : isNameChar c = false) (rest : List Char) :
    (name ++ (gap ++ c :: rest)).takeWhile isNameChar = name ∧
      (name ++ (gap ++ c :: rest)).dropWhile isNameChar = gap ++ c :: rest := by
  rw [List.takeWhile_append_of_pos hname, List.dropWhile_append_of_pos hname]
  cases gap with
  | nil => simp [hc]
  | cons x gap =>
      have hx := not_isNameChar_of_isBlank (hgap x List.mem_cons_self)
      simp [hx]

theorem starts_name (hne : name ≠ []) (hname : ∀ c ∈ name, isNameChar c) (rest : List Char) :
    Starts (name ++ rest) := by
  obtain ⟨c, name, rfl⟩ := List.exists_cons_of_ne_nil hne
  intro x hx
  obtain rfl : c = x := Option.some.inj hx
  by_contra hblank
  have hnot := not_isNameChar_of_isBlank (by simpa using hblank)
  simp [hname c List.mem_cons_self] at hnot

/-! ## Written terms -/

theorem Written.starts (h : Written name text written) (rest : List Char) :
    Starts (written ++ rest) := by
  obtain ⟨hne, hname, -, -, -⟩ := h
  rw [List.append_assoc]
  exact starts_name hne hname _

theorem Written.ne_nil (h : Written name text written) : written ≠ [] := by
  obtain ⟨hne, -, -, -, -⟩ := h
  simp [hne]

/-- A written term is read, whatever comes after it. -/
theorem writtenTerm?_of_written (h : Written name text written) (rest : List Char) :
    writtenTerm? (written ++ rest) = some { name, text, rest } := by
  obtain @⟨gap, gap', hne, hname, hgap, hgap', htext⟩ := h
  have hsign : isNameChar '=' = false := by decide
  have hquote : ∀ c ∈ text, (c != '"') = true := by
    intro c hc
    rw [bne_iff_ne]
    rintro rfl
    exact htext hc
  obtain ⟨htake, hdrop⟩ := span_name hname hgap hsign (gap' ++ '"' :: (text ++ '"' :: rest))
  have hequals : Text.trimStart (gap ++ '=' :: (gap' ++ '"' :: (text ++ '"' :: rest))) =
      '=' :: (gap' ++ '"' :: (text ++ '"' :: rest)) :=
    trimStart_gap hgap (by simp [Starts]; decide)
  have hopen : Text.trimStart (gap' ++ '"' :: (text ++ '"' :: rest)) =
      '"' :: (text ++ '"' :: rest) :=
    trimStart_gap hgap' (by simp [Starts]; decide)
  obtain ⟨first, later, rfl⟩ := List.exists_cons_of_ne_nil hne
  simp only [List.append_assoc, List.cons_append, List.nil_append] at htake hdrop ⊢
  rw [writtenTerm?]
  simp only [htake, hdrop, afterName?, hequals, hopen]
  rw [List.dropWhile_append_of_pos hquote, List.takeWhile_append_of_pos hquote]
  simp

/-- What is read as a term is one. -/
theorem exists_written {term : WrittenTerm} (h : writtenTerm? s = some term) :
    ∃ written, Written term.name term.text written ∧ s = written ++ term.rest := by
  rw [writtenTerm?] at h
  split at h
  · cases h
  next hne =>
    rw [afterName?] at h
    split at h
    next afterEquals hequals =>
      split at h
      next afterQuote hopen =>
        split at h
        next close rest hclose =>
          cases h
          obtain ⟨gap, hgapEq, hgap⟩ := Text.exists_trimStart (s.dropWhile isNameChar)
          obtain ⟨gap', hgapEq', hgap'⟩ := Text.exists_trimStart afterEquals
          rw [hequals] at hgapEq
          rw [hopen] at hgapEq'
          have hquote : close = '"' := by
            have hstop := List.head?_dropWhile_not (· != '"') afterQuote
            rw [hclose] at hstop
            simpa using hstop
          have htext : '"' ∉ afterQuote.takeWhile (· != '"') := fun hmem => by
            simpa using List.mem_takeWhile_imp hmem
          have hsplit : afterQuote = afterQuote.takeWhile (· != '"') ++ '"' :: rest := by
            conv => lhs; rw [← List.takeWhile_append_dropWhile (p := (· != '"')) (l := afterQuote),
              hclose, hquote]
          refine ⟨_, .mk (by simpa using hne) (fun c hc => List.mem_takeWhile_imp hc) hgap hgap'
            htext, ?_⟩
          conv => lhs; rw [← List.takeWhile_append_dropWhile (p := isNameChar) (l := s), hgapEq,
            hgapEq', hsplit]
          simp
        next => cases h
      next => cases h
    next => cases h

theorem writtenTerm?_eq_none :
    writtenTerm? s = none ↔
      ∀ name text written rest, Written name text written → s ≠ written ++ rest := by
  constructor
  · rintro h name text written rest hwritten rfl
    rw [writtenTerm?_of_written hwritten] at h
    cases h
  · intro h
    cases hterm : writtenTerm? s with
    | none => rfl
    | some term =>
        obtain ⟨written, hwritten, heq⟩ := exists_written hterm
        exact absurd heq (h _ _ _ _ hwritten)

/-! ## Joiners -/

theorem isNameChar_of_word {word : List Char} (hword : Text.asciiLowerCase word = ['a', 'n', 'd']) :
    ∀ c ∈ word, isNameChar c := by
  intro c hc
  have hlower : c.toLower ∈ ['a', 'n', 'd'] := by
    rw [← hword]
    exact List.mem_map_of_mem hc
  obtain hc | ⟨code, hcode, rfl⟩ := Text.toLower_cases c
  · rw [hc] at hlower
    exact List.all_eq_true.mp (by decide : ['a', 'n', 'd'].all isNameChar = true) c hlower
  · have halpha : ∀ code ∈ List.range' 0x41 26, isNameChar (Char.ofNat code) := by
      decide +kernel
    exact halpha code hcode

theorem IsJoiner.ne_nil (h : IsJoiner joiner) : joiner ≠ [] := by
  obtain ⟨-, hne, -⟩ := h
  simp [hne]

theorem IsJoiner.starts (h : IsJoiner joiner) (rest : List Char) : Starts (joiner ++ rest) := by
  obtain ⟨hword, -, -⟩ := h
  rw [List.append_assoc]
  refine starts_name ?_ (isNameChar_of_word hword) _
  rintro rfl
  cases hword

theorem skipJoiner_of_isJoiner (h : IsJoiner joiner) (hstart : Starts ahead) :
    skipJoiner (joiner ++ ahead) = ahead := by
  obtain @⟨word, gap, hword, hne, hgap⟩ := h
  obtain ⟨c, gap, rfl⟩ := List.exists_cons_of_ne_nil hne
  obtain ⟨hc, hgap⟩ := List.forall_mem_cons.mp hgap
  have hlength : word.length = 3 := by
    simpa [Text.asciiLowerCase] using congrArg List.length hword
  obtain ⟨a, n, d, rfl⟩ := List.length_eq_three.mp hlength
  simp only [List.cons_append, List.nil_append, skipJoiner]
  rw [if_pos ⟨hword, hc⟩]
  exact trimStart_gap hgap hstart

/-- What follows the joiner, if one stands there. -/
theorem skipJoiner_cases (s : List Char) :
    (∃ joiner, IsJoiner joiner ∧ s = joiner ++ skipJoiner s ∧ Starts (skipJoiner s)) ∨
      skipJoiner s = s ∧ ∀ joiner rest, IsJoiner joiner → s ≠ joiner ++ rest := by
  by_cases hjoiner : ∃ joiner rest, IsJoiner joiner ∧ s = joiner ++ rest
  · obtain ⟨joiner, rest, hjoiner, rfl⟩ := hjoiner
    obtain ⟨gap, hrest, hgap⟩ := Text.exists_trimStart rest
    have hlonger : IsJoiner (joiner ++ gap) := by
      obtain ⟨hword, hne, hfirst⟩ := hjoiner
      rw [List.append_assoc]
      exact .mk hword (by simp [hne])
        (List.forall_mem_append.mpr ⟨hfirst, hgap⟩)
    have hskip : skipJoiner (joiner ++ rest) = Text.trimStart rest := by
      conv => lhs; rw [hrest, ← List.append_assoc]
      exact skipJoiner_of_isJoiner hlonger (starts_trimStart rest)
    refine Or.inl ⟨joiner ++ gap, hlonger, ?_, ?_⟩
    · rw [hskip, List.append_assoc, ← hrest]
    · rw [hskip]
      exact starts_trimStart rest
  · have hnone : ∀ joiner rest, IsJoiner joiner → s ≠ joiner ++ rest :=
      fun joiner rest hword heq => hjoiner ⟨joiner, rest, hword, heq⟩
    refine Or.inr ⟨?_, hnone⟩
    unfold skipJoiner
    split
    next a n d c rest =>
      split
      next hword =>
        have hone : IsJoiner ([a, n, d] ++ [c]) :=
          .mk hword.1 (by simp) (List.forall_mem_singleton.mpr hword.2)
        exact absurd rfl (hnone _ rest hone)
      next => rfl
    next => rfl

/-- A term whose name is that of a field does not begin with a joiner. -/
theorem Written.not_joiner (h : Written name text written)
    (hfield : Text.asciiLowerCase name = field.name.toList) (rest : List Char) :
    ∀ joiner rest', IsJoiner joiner → written ++ rest ≠ joiner ++ rest' := by
  rintro joiner rest' @⟨word, gap, hword, hne, hgap'⟩ heq
  obtain @⟨gapBefore, gapAfter, -, hname, hgap, -, -⟩ := h
  obtain ⟨c, gap, rfl⟩ := List.exists_cons_of_ne_nil hne
  have hsign : isNameChar '=' = false := by decide
  have hblank := not_isNameChar_of_isBlank (hgap' c List.mem_cons_self)
  have hleft := (span_name hname hgap hsign
    (gapAfter ++ '"' :: (text ++ ['"']) ++ rest)).1
  have hnone : IsGap [] := by simp [IsGap]
  have hright := (span_name (isNameChar_of_word hword) hnone hblank (gap ++ rest')).1
  simp only [List.append_assoc, List.cons_append, List.nil_append] at heq hleft hright
  rw [heq, hright] at hleft
  rw [← hleft, hword] at hfield
  revert hfield
  cases field <;> decide

/-! ## Reading -/

/-- What is read from a place on, when some terms or none stand before it. -/
theorem termsFrom_eq {isFirst : Bool} {start : List Char} (hne : s ≠ [])
    (hstart : (if isFirst then s else skipJoiner s) = start) :
    termsFrom query isFirst s =
      match writtenTerm? start with
      | none => .error (.misshapen query (query.utf8ByteSize - Text.byteCount start))
      | some term =>
        match QueryField.ofName? term.name with
        | none => .error (.unknownField (String.ofList term.name))
        | some field =>
          (termsFrom query false (Text.trimStart term.rest)).map
            ({ field, needle := Text.lowerCase term.text } :: ·) := by
  subst hstart
  rw [termsFrom, if_neg (by simpa using hne)]
  dsimp only
  generalize (if isFirst then s else skipJoiner s) = start
  split
  next hterm => simp only [hterm]
  next term hterm =>
    simp only [hterm]
    cases QueryField.ofName? term.name with
    | none => rfl
    | some field =>
        dsimp only
        cases termsFrom query false (Text.trimStart term.rest) <;> rfl

/-- Where a term may stand, it stands after the joiner if there is one. -/
theorem start_of_joiner (hjoiner : MayJoin found joiner) (hstart : Starts ahead)
    (hnone : joiner = [] → found ≠ [] → ∀ word rest, IsJoiner word → ahead ≠ word ++ rest) :
    (if found.isEmpty then joiner ++ ahead else skipJoiner (joiner ++ ahead)) = ahead := by
  obtain rfl | ⟨hne, hjoiner⟩ := hjoiner
  · by_cases hfound : found = []
    · simp [hfound]
    · obtain ⟨word, hword, heq, -⟩ | ⟨hskip, -⟩ := skipJoiner_cases ahead
      · exact absurd heq (hnone rfl hfound _ _ hword)
      · simp [hfound, hskip]
  · simp [hne, skipJoiner_of_isJoiner hjoiner hstart]

/-- The terms of a sentence are read, and what comes after it is read next. -/
theorem Sentence.termsFrom_append (query : String) (h : Sentence found s)
    (hstart : Starts ahead) :
    termsFrom query true (Text.trimStart (s ++ ahead)) =
      (termsFrom query found.isEmpty ahead).map (found ++ ·) := by
  induction h generalizing ahead with
  | blank hgap =>
      rw [trimStart_gap hgap hstart]
      cases h : termsFrom query true ahead <;> simp [h, Except.map]
  | @term found s joiner name text written gap field _ hjoiner hwritten hfield hgap ih =>
      have hahead := hwritten.starts (gap ++ ahead)
      have hplace : Starts (joiner ++ (written ++ (gap ++ ahead))) := by
        obtain rfl | ⟨-, hjoiner⟩ := hjoiner
        · exact hahead
        · exact hjoiner.starts _
      have hnext := start_of_joiner hjoiner hahead fun _ _ => hwritten.not_joiner hfield _
      rw [List.append_assoc, List.append_assoc, List.append_assoc, ih hplace,
        termsFrom_eq (by simp [hwritten.ne_nil]) hnext, writtenTerm?_of_written hwritten]
      simp only [QueryField.ofName?_eq_some.mpr hfield, trimStart_gap hgap hstart]
      have hsome (term : QueryTerm) : (found ++ [term]).isEmpty = false := by simp
      rw [hsome]
      cases termsFrom query false ahead <;> simp [Except.map]

theorem termsFrom_nil (isFirst : Bool) : termsFrom query isFirst [] = .ok [] := by
  rw [termsFrom]
  rfl

theorem Sentence.terms_eq (h : Sentence found query.toList) : terms query = .ok found := by
  have hend : Starts [] := by simp [Starts]
  have hread := h.termsFrom_append query hend
  rw [List.append_nil, termsFrom_nil] at hread
  simpa [terms, Except.map] using hread

/-- Where a term is due after some terms, reading goes on behind the joiner. -/
theorem Due.exists_place (h : Due found passed ahead) :
    ∃ s joiner, passed = s ++ joiner ∧ Sentence found s ∧ joiner ++ ahead ≠ [] ∧
      Starts (joiner ++ ahead) ∧
      (if found.isEmpty then joiner ++ ahead else skipJoiner (joiner ++ ahead)) = ahead := by
  cases h with
  | plain h hne hstart hjoiner =>
      exact ⟨passed, [], by simp, h, hne, hstart,
        start_of_joiner (.inl rfl) hstart fun _ => hjoiner⟩
  | @joined s joiner _ h hne hjoiner hstart =>
      refine ⟨s, joiner, rfl, h, by simp [hjoiner.ne_nil], hjoiner.starts _, ?_⟩
      exact start_of_joiner (.inr ⟨hne, hjoiner⟩) hstart fun hnil => absurd hnil hjoiner.ne_nil

/-- The reading of a query ends where a term is due and none of a known field stands. -/
theorem Due.terms_eq {cause : QueryError} (h : Due found passed ahead)
    (hquery : query.toList = passed ++ ahead) (hoffence : Offence query passed ahead cause) :
    terms query = .error cause := by
  obtain ⟨s, joiner, rfl, hs, hne, hplace, hnext⟩ := h.exists_place
  have hread := hs.termsFrom_append query hplace
  rw [terms, hquery, List.append_assoc, hread, termsFrom_eq hne hnext]
  cases hoffence with
  | unknownField hwritten hname =>
      rw [writtenTerm?_of_written hwritten]
      simp only [QueryField.ofName?_eq_none.mpr hname, Except.map]
  | misshapen hnone =>
      have hsize : query.utf8ByteSize =
          Text.byteCount (s ++ joiner) + Text.byteCount ahead := by
        rw [← Text.byteCount_append, ← hquery, ← Text.utf8ByteSize_ofList, String.ofList_toList]
      rw [writtenTerm?_eq_none.mpr hnone, hsize, Nat.add_sub_cancel]
      rfl

/-- Behind a sentence a term is due unless the query ends. -/
theorem Sentence.exists_due (h : Sentence found s) (hne : ahead ≠ []) (hstart : Starts ahead) :
    ∃ joiner start, MayJoin found joiner ∧ ahead = joiner ++ start ∧
      Due found (s ++ joiner) start := by
  by_cases hfound : found = []
  · exact ⟨[], ahead, .inl rfl, rfl, by simpa using .plain h hne hstart (absurd hfound)⟩
  obtain ⟨joiner, hjoiner, heq, hlater⟩ | ⟨-, hnone⟩ := skipJoiner_cases ahead
  · exact ⟨joiner, skipJoiner ahead, .inr ⟨hfound, hjoiner⟩, heq, .joined h hfound hjoiner hlater⟩
  · exact ⟨[], ahead, .inl rfl, rfl, by simpa using .plain h hne hstart fun _ => hnone⟩

/-- A text that begins with a sentence is one, or has a fault where a term is due. -/
theorem Sentence.append_cases (query : String) (h : Sentence found s) (hstart : Starts ahead) :
    (∃ found, Sentence found (s ++ ahead)) ∨
      ∃ found passed later cause, s ++ ahead = passed ++ later ∧ Due found passed later ∧
        Offence query passed later cause := by
  induction hlength : ahead.length using Nat.strongRecOn generalizing found s ahead with
  | ind n ih =>
      by_cases hne : ahead = []
      · exact .inl ⟨found, by rwa [hne, List.append_nil]⟩
      obtain ⟨joiner, start, hjoiner, rfl, hdue⟩ := h.exists_due hne hstart
      cases hterm : writtenTerm? start with
      | none =>
          exact .inr ⟨found, s ++ joiner, start, _, (List.append_assoc ..).symm, hdue,
            .misshapen (writtenTerm?_eq_none.mp hterm)⟩
      | some term =>
          obtain ⟨written, hwritten, rfl⟩ := exists_written hterm
          cases hname : QueryField.ofName? term.name with
          | none =>
              exact .inr ⟨found, s ++ joiner, _, _, (List.append_assoc ..).symm, hdue,
                .unknownField hwritten (QueryField.ofName?_eq_none.mp hname)⟩
          | some field =>
              obtain ⟨gap, hrest, hgap⟩ := Text.exists_trimStart term.rest
              have hlonger := h.term hjoiner hwritten (QueryField.ofName?_eq_some.mp hname) hgap
              have hshorter : (Text.trimStart term.rest).length < n := by
                have := List.length_pos_iff.mpr hwritten.ne_nil
                have := length_dropWhile_le Text.isBlank term.rest
                simp only [Text.trimStart, List.length_append] at hlength ⊢
                omega
              have hwhole : s ++ (joiner ++ (written ++ term.rest)) =
                  s ++ (joiner ++ (written ++ gap)) ++ Text.trimStart term.rest := by
                conv => lhs; rw [hrest]
                simp
              rw [hwhole]
              exact ih _ hshorter hlonger (starts_trimStart _) rfl

theorem sentence_or_offence (query : String) :
    (∃ found, Sentence found query.toList) ∨
      ∃ found passed ahead cause, query.toList = passed ++ ahead ∧ Due found passed ahead ∧
        Offence query passed ahead cause := by
  obtain ⟨gap, heq, hgap⟩ := Text.exists_trimStart query.toList
  rw [heq]
  exact Sentence.append_cases query (.blank hgap) (starts_trimStart _)

/-- A query is accepted if it is a sentence, with the terms of that sentence.  Otherwise its
reading ends where a term is due, with what is wrong there, and that place is one between two
characters. -/
theorem terms_iff_sentence (query : String) :
    (∀ found, terms query = .ok found ↔ Sentence found query.toList) ∧
      (∀ cause, terms query = .error cause ↔
        ∃ found passed ahead, query.toList = passed ++ ahead ∧ Due found passed ahead ∧
          Offence query passed ahead cause) ∧
      ∀ text position, terms query = .error (.misshapen text position) →
        text = query ∧ String.Pos.Raw.IsValid query ⟨position⟩ := by
  have herror : ∀ cause, terms query = .error cause ↔
      ∃ found passed ahead, query.toList = passed ++ ahead ∧ Due found passed ahead ∧
        Offence query passed ahead cause := by
    refine fun cause => ⟨fun hread => ?_, ?_⟩
    · obtain ⟨found, h⟩ | ⟨found, passed, ahead, cause', heq, hdue, hoffence⟩ :=
        sentence_or_offence query
      · rw [h.terms_eq] at hread
        cases hread
      · rw [hdue.terms_eq heq hoffence] at hread
        cases hread
        exact ⟨found, passed, ahead, heq, hdue, hoffence⟩
    · rintro ⟨found, passed, ahead, heq, hdue, hoffence⟩
      exact hdue.terms_eq heq hoffence
  refine ⟨fun found => ⟨fun hread => ?_, Sentence.terms_eq⟩, herror, fun text position hread => ?_⟩
  · obtain ⟨found', h⟩ | ⟨_, _, _, cause, heq, hdue, hoffence⟩ := sentence_or_offence query
    · rw [h.terms_eq] at hread
      cases hread
      exact h
    · rw [hdue.terms_eq heq hoffence] at hread
      cases hread
  · obtain ⟨found, passed, ahead, heq, -, hoffence⟩ := (herror _).mp hread
    cases hoffence
    refine ⟨rfl, String.Pos.Raw.isValid_iff_exists_append.mpr
      ⟨String.ofList passed, String.ofList ahead, ?_, ?_⟩⟩
    · rw [← String.ofList_append, ← heq, String.ofList_toList]
    · rw [← Text.utf8ByteSize_ofList]
      rfl

theorem sample_position :
    terms "value=\"a\" oops" = .error (.misshapen "value=\"a\" oops" 10) ∧
      String.Pos.Raw.IsValid "value=\"a\" oops" ⟨10⟩ := by
  have hread : terms "value=\"a\" oops" = .error (.misshapen "value=\"a\" oops" 10) := by
    decide +kernel
  exact ⟨hread, ((terms_iff_sentence "value=\"a\" oops").2.2 _ _ hread).2⟩

end PropertyQuery

end Outline
