import Mathlib.Data.List.TakeWhile
import Outline.Json
import Outline.Json.Reader
import Outline.Proofs.Running

/-!
# The texts and numbers of documents

A quoted text is read back character by character, whatever it is made of, and so are
the digits of a whole number of 64 bits.  A reader cannot see where a number ends unless
something follows that no number contains.  Readers of numbers are local in this sense:
what they make of a text they also make of it where more follows.
-/

namespace Outline

namespace Json

variable {s t rest digits : List Char} {c : Char}

/-! ## Texts -/

theorem hexValue?_hexDigit : ∀ n < 16, hexValue? (hexDigit n) = some n := by
  decide

/-- A control character without a short escape is read from its number. -/
theorem readHex_control (hc : c.toNat < 0x20) (s : List Char) :
    readHex ('0' :: '0' :: hexDigit (c.toNat / 16) :: hexDigit (c.toNat % 16) :: s) =
      .ok (c.toNat, s) := by
  have hzero : hexValue? '0' = some 0 := by decide
  rw [readHex]
  simp only [hzero, hexValue?_hexDigit (c.toNat / 16) (by omega),
    hexValue?_hexDigit (c.toNat % 16) (by omega)]
  congr 2
  omega

/-- What stands for a character in a text is read as this character. -/
theorem readTextUpTo_escaped (limit : Nat) (c : Char) (s : List Char) :
    readTextUpTo (limit + 1) (escaped c ++ s) = do
      let (cs, s) ← readTextUpTo limit s
      return (c :: cs, s) := by
  rw [escaped]
  split_ifs with hquote hbackslash hplain hb hf hn hr ht
  · subst hquote
    rfl
  · subst hbackslash
    rfl
  · rw [List.cons_append, List.nil_append, readTextUpTo, if_neg hquote, if_neg hbackslash,
      if_neg (by omega)]
  · subst hb
    rfl
  · subst hf
    rfl
  · subst hn
    rfl
  · subst hr
    rfl
  · subst ht
    rfl
  · -- What is left are the control characters that are written by their numbers.
    have hcontrol : c.toNat < 0x20 := by omega
    have hescape : readEscape (['u', '0', '0', hexDigit (c.toNat / 16),
        hexDigit (c.toNat % 16)] ++ s) = .ok (c, s) := by
      simp only [List.cons_append, List.nil_append, readEscape, readHex_control hcontrol]
      change (if c.toNat < 0xd800 ∨ 0xdfff < c.toNat then _ else _) = _
      rw [if_pos (by omega), Char.ofNat_toNat]
      rfl
    rw [List.cons_append, readTextUpTo, if_neg (by decide), if_pos rfl, hescape]
    rfl

theorem readTextUpTo_flatMap_escaped (content rest : List Char) :
    ∀ limit, content.length < limit →
      readTextUpTo limit (content.flatMap escaped ++ '"' :: rest) = .ok (content, rest) := by
  induction content with
  | nil =>
      rintro (_ | limit) hlimit
      · omega
      · rfl
  | cons c content ih =>
      rintro (_ | limit) hlimit
      · omega
      · rw [List.flatMap_cons, List.append_assoc, readTextUpTo_escaped,
          ih limit (Nat.lt_of_succ_lt_succ hlimit)]
        rfl

theorem length_le_length_flatMap_escaped (content : List Char) :
    content.length ≤ (content.flatMap escaped).length := by
  have hpos : ∀ c, 0 < (escaped c).length := by
    intro c
    rw [escaped]
    split_ifs <;> exact Nat.zero_lt_succ _
  induction content with
  | nil => exact Nat.le_refl _
  | cons c content ih =>
      have := hpos c
      rw [List.flatMap_cons, List.length_append, List.length_cons]
      omega

/-- Every text is read back from between its quotes. -/
theorem readText_flatMap_escaped (content rest : List Char) :
    readText (content.flatMap escaped ++ '"' :: rest) = .ok (content, rest) := by
  have := length_le_length_flatMap_escaped content
  refine readTextUpTo_flatMap_escaped content rest _ ?_
  rw [List.length_append, List.length_cons]
  omega

theorem quoted_append (content rest : List Char) :
    quoted content ++ rest = '"' :: (content.flatMap escaped ++ '"' :: rest) := by
  simp [quoted]

/-! ## Where numbers end -/

/-- No number goes on with these characters. -/
def EndsNumber (rest : List Char) : Prop :=
  ∀ c ∈ rest.head?, c.isDigit = false ∧ c ≠ '.' ∧ c ≠ 'e' ∧ c ≠ 'E'

theorem endsNumber_cons :
    EndsNumber (c :: rest) ↔ c.isDigit = false ∧ c ≠ '.' ∧ c ≠ 'e' ∧ c ≠ 'E' := by
  simp [EndsNumber]

/-- What a reader makes of a text, it also makes of it where more follows that continues no
number. -/
def IsLocal {α : Type} (read : List Char → Except ReadFault (α × List Char)) : Prop :=
  ∀ ⦃s x t⦄, read s = .ok (x, t) →
    ∀ ⦃rest⦄, EndsNumber rest → read (s ++ rest) = .ok (x, t ++ rest)

theorem spanDigits_append (hrest : EndsNumber rest) (s : List Char) :
    spanDigits (s ++ rest) = ((spanDigits s).1, (spanDigits s).2 ++ rest) := by
  induction s with
  | nil =>
      cases rest with
      | nil => rfl
      | cons c rest =>
          have hc : c.isDigit = false := (endsNumber_cons.mp hrest).1
          simp [spanDigits, hc]
  | cons c s ih =>
      simp only [spanDigits, Prod.mk.injEq] at ih
      by_cases hc : c.isDigit <;> simp [spanDigits, hc, ih]

/-- Reads at least one digit. -/
def readDigits (s : List Char) : Except ReadFault (List Char × List Char) :=
  match spanDigits s with
  | ([], []) => .error .unfinished
  | ([], _) => .error .malformed
  | (digits, rest) => .ok (digits, rest)

theorem readDigits_eq_ok :
    readDigits s = .ok (digits, t) ↔ digits ≠ [] ∧ spanDigits s = (digits, t) := by
  rw [readDigits]
  obtain ⟨_ | ⟨c, digits'⟩, t'⟩ := spanDigits s
  · cases t' <;> simp +contextual [eq_comm]
  · simp +contextual [eq_comm]

theorem isLocal_readDigits : IsLocal readDigits := by
  intro s digits t h rest hrest
  obtain ⟨hne, hspan⟩ := readDigits_eq_ok.mp h
  exact readDigits_eq_ok.mpr ⟨hne, by rw [spanDigits_append hrest, hspan]⟩

theorem IsLocal.map {α β : Type} {read : List Char → Except ReadFault (α × List Char)}
    (hread : IsLocal read) (f : α → β) :
    IsLocal fun s => (read s).map (Prod.map f id) := by
  intro s y t h rest hrest
  dsimp only at h ⊢
  cases hs : read s with
  | error fault => rw [hs] at h; cases h
  | ok parts =>
      rw [hs] at h
      cases h
      rw [hread hs hrest]
      rfl

/-- More than one digit must not begin with a zero. -/
theorem readWholeDigits_eq_ok :
    readWholeDigits s = .ok (digits, t) ↔
      readDigits s = .ok (digits, t) ∧ ∀ d more, digits ≠ '0' :: d :: more := by
  rw [readWholeDigits, readDigits]
  obtain ⟨_ | ⟨c, _ | ⟨d, found⟩⟩, t'⟩ := spanDigits s
  · cases t' <;> simp
  · simp +contextual [eq_comm]
  · by_cases hc : c = '0'
    · subst hc
      simp +contextual [eq_comm]
    · simp +contextual [eq_comm, hc]

theorem isLocal_readWholeDigits : IsLocal readWholeDigits := by
  intro s digits t h rest hrest
  obtain ⟨hdigits, hzero⟩ := readWholeDigits_eq_ok.mp h
  exact readWholeDigits_eq_ok.mpr ⟨isLocal_readDigits hdigits hrest, hzero⟩

theorem readFraction_point (s : List Char) :
    readFraction ('.' :: s) = (readDigits s).map (Prod.map some id) := by
  rw [readFraction, readDigits]
  obtain ⟨_ | ⟨c, digits⟩, _ | ⟨d, t⟩⟩ := spanDigits s <;> rfl

theorem readFraction_of_ne (hs : ∀ u, s ≠ '.' :: u) : readFraction s = .ok (none, s) := by
  rw [readFraction]
  exact hs

theorem isLocal_readFraction : IsLocal readFraction := by
  intro s fraction t h rest hrest
  by_cases hs : ∃ u, s = '.' :: u
  · obtain ⟨u, rfl⟩ := hs
    rw [readFraction_point] at h
    rw [List.cons_append, readFraction_point]
    exact isLocal_readDigits.map some h hrest
  · rw [not_exists] at hs
    rw [readFraction_of_ne hs] at h
    cases h
    -- Neither the text nor what follows it begins with a point.
    refine readFraction_of_ne fun u => ?_
    cases s with
    | nil =>
        rintro rfl
        exact (endsNumber_cons.mp hrest).2.1 rfl
    | cons c s =>
        intro hu
        exact hs s (by rw [(List.cons.inj hu).1])

/-- Reads the digits of a power of ten. -/
def readPowerDigits (negative : Bool) (s : List Char) : Except ReadFault (Int × List Char) :=
  (readDigits s).map (Prod.map (fun digits =>
    if negative then -(Number.digitsValue digits : Int) else Number.digitsValue digits) id)

/-- Reads a power of ten, whose mark has been read. -/
def readPower : List Char → Except ReadFault (Int × List Char)
  | '+' :: s => readPowerDigits false s
  | '-' :: s => readPowerDigits true s
  | s => readPowerDigits false s

theorem readExponent_mark (hc : c = 'e' ∨ c = 'E') (s : List Char) :
    readExponent (c :: s) = (readPower s).map (Prod.map some id) := by
  rw [readPower.eq_def]
  split
  case h_1 s | h_2 s =>
    rcases hc with rfl | rfl
    all_goals
      rw [readExponent, readPowerDigits, readDigits]
      dsimp only
      obtain ⟨_ | ⟨c, digits⟩, _ | ⟨d, t⟩⟩ := spanDigits s <;> rfl
  case h_3 _ hplus hminus =>
    rcases hc with rfl | rfl
    all_goals
      rw [readExponent, readPowerDigits, readDigits]
      · dsimp only
        obtain ⟨_ | ⟨c, digits⟩, _ | ⟨d, t⟩⟩ := spanDigits s <;> rfl
      · exact hplus
      · exact hminus

theorem readExponent_of_ne (hs : ∀ c u, s = c :: u → c ≠ 'e' ∧ c ≠ 'E') :
    readExponent s = .ok (none, s) := by
  rw [readExponent] <;> rintro u rfl
  all_goals simp at hs

theorem isLocal_readPowerDigits (negative : Bool) : IsLocal (readPowerDigits negative) :=
  isLocal_readDigits.map _

theorem isLocal_readPower : IsLocal readPower := by
  intro s power t h rest hrest
  cases s with
  | nil => cases h
  | cons c s =>
      by_cases hplus : c = '+'
      · subst hplus
        exact isLocal_readPowerDigits false h hrest
      · by_cases hminus : c = '-'
        · subst hminus
          exact isLocal_readPowerDigits true h hrest
        · have hdigits (u : List Char) : readPower (c :: u) = readPowerDigits false (c :: u) := by
            rw [readPower] <;> rintro v ⟨rfl, rfl⟩ <;> contradiction
          rw [hdigits] at h
          rw [List.cons_append, hdigits]
          exact isLocal_readPowerDigits false h hrest

theorem isLocal_readExponent : IsLocal readExponent := by
  intro s exponent t h rest hrest
  cases s with
  | nil =>
      cases h
      refine readExponent_of_ne ?_
      rintro c u rfl
      exact ⟨(endsNumber_cons.mp hrest).2.2.1, (endsNumber_cons.mp hrest).2.2.2⟩
  | cons c s =>
      by_cases hc : c = 'e' ∨ c = 'E'
      · rw [readExponent_mark hc] at h
        rw [List.cons_append, readExponent_mark hc]
        exact isLocal_readPower.map some h hrest
      · rw [not_or] at hc
        rw [readExponent_of_ne (by rintro _ _ ⟨rfl, rfl⟩; exact hc)] at h
        cases h
        exact readExponent_of_ne (by rintro _ _ ⟨rfl, rfl⟩; exact hc)

/-- Reads a number without its sign. -/
def readMagnitude (negative : Bool) (s : List Char) :
    Except ReadFault (NumberLiteral × List Char) := do
  let (digits, s) ← readWholeDigits s
  let (fraction, s) ← readFraction s
  let (exponent, s) ← readExponent s
  return (← numberOfParts negative digits fraction exponent, s)

theorem readNumber_of_ne (hs : ∀ u, s ≠ '-' :: u) : readNumber s = readMagnitude false s := by
  rw [readNumber]
  · rfl
  · exact hs

theorem isLocal_readMagnitude (negative : Bool) : IsLocal (readMagnitude negative) := by
  intro s x t h rest hrest
  simp only [readMagnitude, except_bind_eq_ok] at h ⊢
  obtain ⟨⟨digits, s₁⟩, hdigits, ⟨fraction, s₂⟩, hfraction, ⟨exponent, s₃⟩, hexponent,
    y, hnumber, hy⟩ := h
  cases hy
  exact ⟨(digits, s₁ ++ rest), isLocal_readWholeDigits hdigits hrest,
    (fraction, s₂ ++ rest), isLocal_readFraction hfraction hrest,
    (exponent, s₃ ++ rest), isLocal_readExponent hexponent hrest, x, hnumber, rfl⟩

theorem isLocal_readNumber : IsLocal readNumber := by
  intro s x t h rest hrest
  cases s with
  | nil => cases h
  | cons c s =>
      by_cases hc : c = '-'
      · subst hc
        exact isLocal_readMagnitude true h hrest
      · have hne (u v : List Char) : c :: u ≠ '-' :: v := fun heq => hc (List.cons.inj heq).1
        rw [readNumber_of_ne (hne s)] at h
        rw [List.cons_append, readNumber_of_ne (hne _)]
        exact isLocal_readMagnitude false h hrest

/-- A number begins with a minus sign or a digit. -/
theorem head_of_readNumber_eq_ok {x : NumberLiteral} (h : readNumber (c :: s) = .ok (x, t)) :
    c = '-' ∨ c.isDigit := by
  by_contra hc
  obtain ⟨hminus, hdigit⟩ := not_or.mp hc
  rw [readNumber_of_ne fun u heq => hminus (List.cons.inj heq).1] at h
  obtain ⟨⟨digits, u⟩, hdigits, -⟩ := except_bind_eq_ok.mp h
  obtain ⟨hne, hspan⟩ := readDigits_eq_ok.mp (readWholeDigits_eq_ok.mp hdigits).1
  rw [spanDigits, List.takeWhile_cons_of_neg hdigit] at hspan
  exact hne (Prod.mk.inj hspan).1.symm

/-! ## Whole numbers -/

theorem appendDigits_append {m k : Nat} (h : appendDigits m digits = (k, 0)) (more : List Char) :
    appendDigits m (digits ++ more) = appendDigits k more := by
  induction digits generalizing m with
  | nil =>
      cases h
      rfl
  | cons c digits ih =>
      rw [appendDigits] at h
      rw [List.cons_append, appendDigits]
      split_ifs at h ⊢
      · exact ih h
      · cases h

theorem appendDigits_digitChar {m d : Nat} (hd : d < 10)
    (h : 10 * m + d < Number.unsignedLimit) : appendDigits m [d.digitChar] = (10 * m + d, 0) := by
  have hdigit : ∀ d < 10, d.digitChar.toNat - 0x30 = d := by decide
  rw [appendDigits, hdigit d hd]
  exact if_pos h

/-- A number that fits is read from its digits. -/
theorem appendDigits_toDigits {n : Nat} (hn : n < Number.unsignedLimit) :
    appendDigits 0 (Nat.toDigits 10 n) = (n, 0) := by
  induction n using Nat.strongRecOn with
  | ind n ih =>
      by_cases hsmall : n < 10
      · rw [Nat.toDigits_of_lt_base hsmall, appendDigits_digitChar hsmall (by omega)]
        simp
      · have hdiv := Nat.div_add_mod n 10
        rw [Nat.toDigits_of_base_le (by omega) (Nat.le_of_not_lt hsmall),
          appendDigits_append (ih (n / 10) (by omega) (by omega)),
          appendDigits_digitChar (Nat.mod_lt n (by omega)) (by omega), hdiv]

theorem toDigits_head?_ne_zero {n : Nat} (hn : 0 < n) : (Nat.toDigits 10 n).head? ≠ some '0' := by
  induction n using Nat.strongRecOn with
  | ind n ih =>
      by_cases hsmall : n < 10
      · have hdigit : ∀ d < 10, 0 < d → d.digitChar ≠ '0' := by decide
        rw [Nat.toDigits_of_lt_base hsmall]
        simpa using hdigit n hsmall hn
      · rw [Nat.toDigits_of_base_le (by omega) (Nat.le_of_not_lt hsmall),
          List.head?_append_of_ne_nil _ Nat.toDigits_ne_nil]
        exact ih (n / 10) (by omega) (by omega)

theorem readWholeDigits_toDigits (n : Nat) :
    readWholeDigits (Nat.toDigits 10 n) = .ok (Nat.toDigits 10 n, []) := by
  have hdigits : ∀ c ∈ Nat.toDigits 10 n, c.isDigit :=
    fun c hc => Nat.isDigit_of_mem_toDigits (by omega) (by omega) hc
  refine readWholeDigits_eq_ok.mpr ⟨readDigits_eq_ok.mpr ⟨Nat.toDigits_ne_nil, ?_⟩, ?_⟩
  · rw [spanDigits, List.takeWhile_eq_self_iff.mpr hdigits, List.dropWhile_eq_nil_iff.mpr hdigits]
  · intro d more hzero
    rcases Nat.eq_zero_or_pos n with rfl | hn
    · cases hzero
    · exact toDigits_head?_ne_zero hn (by rw [hzero]; rfl)

theorem numberOfParts_toDigits {n : Nat} (hn : n < Number.unsignedLimit) :
    numberOfParts false (Nat.toDigits 10 n) none none = .ok (.whole n) := by
  rw [numberOfParts, appendDigits_toDigits hn]
  rfl

theorem numberOfParts_toDigits_negative {n : Nat} (hpos : 0 < n) (hn : n ≤ Number.signedLimit) :
    numberOfParts true (Nat.toDigits 10 n) none none = .ok (.whole (-n)) := by
  have hlimit : Number.signedLimit < Number.unsignedLimit := by decide
  rw [numberOfParts, appendDigits_toDigits (by omega)]
  simp [hpos, hn]

/-- After the digits of a whole number there is neither a fraction nor an exponent. -/
theorem readMagnitude_toDigits {negative : Bool} {n : Nat} {x : NumberLiteral}
    (hx : numberOfParts negative (Nat.toDigits 10 n) none none = .ok x) :
    readMagnitude negative (Nat.toDigits 10 n) = .ok (x, []) := by
  rw [readMagnitude, readWholeDigits_toDigits]
  change (do return (← numberOfParts negative (Nat.toDigits 10 n) none none, [])) = _
  rw [hx]
  rfl

/-- A whole number with a sign is read back from the text that is written for it. -/
theorem readNumber_toString {n : Int} (hlower : -(Number.signedLimit : Int) ≤ n)
    (hupper : n < Number.signedLimit) :
    readNumber (toString n).toList = .ok (.whole n, []) := by
  have hlimit : 2 * Number.signedLimit = Number.unsignedLimit := rfl
  rw [Int.toString_eq_repr, Int.repr_eq_if]
  split_ifs with hn
  · have hnumber := readMagnitude_toDigits (numberOfParts_toDigits (n := n.toNat) (by omega))
    rw [Int.toNat_of_nonneg hn] at hnumber
    rw [Nat.toList_repr, readNumber_of_ne, hnumber]
    intro u heq
    have hdigit : ('-' : Char).isDigit :=
      Nat.isDigit_of_mem_toDigits (by omega) (by omega) (heq ▸ List.mem_cons_self)
    cases hdigit
  · have hnumber := readMagnitude_toDigits
      (numberOfParts_toDigits_negative (n := (-n).toNat) (by omega) (by omega))
    rw [Int.toNat_of_nonneg (by omega), Int.neg_neg] at hnumber
    rw [String.toList_append, Nat.toList_repr]
    exact hnumber

end Json

end Outline
