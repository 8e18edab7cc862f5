import Mathlib.Algebra.Order.Field.Power
import Mathlib.Data.EReal.Operations
import Outline.Number.Single

/-!
# The total order of patterns

Weights are ranked by an order of all patterns and not only of those that stand for numbers.
Numbers are in the order of their values, with the negative zero before the positive one.
Patterns that are not numbers come before all numbers if they have a sign, and after them if
they have none.  The rank of a pattern, which is found from its sign and its other bits
alone, is its place in this order.
-/

namespace Outline

open Number

/-- The number or infinity that a meaning is. -/
noncomputable def Number.Meaning.number? : Meaning → Option EReal
  | .finite negative mantissa exponent =>
    let size : ℝ := mantissa * 2 ^ exponent
    some (if negative then -size else size : ℝ)
  | .infinite negative => some (if negative then ⊥ else ⊤)
  | .notANumber => none

namespace Single

variable {x y : Single} {m n : Nat}

/-- The number or infinity that a pattern stands for. -/
noncomputable def number? (x : Single) : Option EReal :=
  (Format.single.meaning x.bits.toNat).number?

/-- The order that the bits have if the first one is the sign. -/
def BitsBelow (x y : Single) : Prop :=
  x.isNegative ∧ ¬y.isNegative ∨
    ¬x.isNegative ∧ ¬y.isNegative ∧ x.magnitude < y.magnitude ∨
    x.isNegative ∧ y.isNegative ∧ y.magnitude < x.magnitude

/-- The total order of patterns.  Only where no numbers are compared, the bits decide. -/
inductive Below (x y : Single) : Prop
  | smaller {a b : EReal} (hx : x.number? = some a) (hy : y.number? = some b) (h : a < b)
  | zeros (hx : x.number? = some 0) (hy : y.number? = some 0) (hnegative : x.isNegative)
      (hpositive : ¬y.isNegative)
  | first (hx : x.number? = none) (hnegative : x.isNegative) (hy : y.number? ≠ none)
  | last (hx : x.number? ≠ none) (hy : y.number? = none) (hpositive : ¬y.isNegative)
  | noNumbers (hx : x.number? = none) (hy : y.number? = none) (h : x.BitsBelow y)

/-! ## Sizes -/

/-- The number of units in the size of a pattern. -/
def mantissa (m : Nat) : Nat :=
  if m / 2 ^ 23 = 0 then m % 2 ^ 23 else 2 ^ 23 + m % 2 ^ 23

/-- The exponent of two of these units. -/
def exponent (m : Nat) : Int :=
  if m / 2 ^ 23 = 0 then -149 else (m / 2 ^ 23 : Nat) - 150

/-- The size of a finite pattern, given by its bits without the sign. -/
noncomputable def finiteSize (m : Nat) : ℝ :=
  mantissa m * 2 ^ exponent m

/-- The next size is larger by one unit, also where a larger unit begins with it. -/
theorem finiteSize_succ (m : Nat) : finiteSize (m + 1) = finiteSize m + 2 ^ exponent m := by
  by_cases hlast : m % 2 ^ 23 + 1 = 2 ^ 23
  · have hdiv : (m + 1) / 2 ^ 23 = m / 2 ^ 23 + 1 := by omega
    have hmod : (m + 1) % 2 ^ 23 = 0 := by omega
    have hrest : m % 2 ^ 23 = 2 ^ 23 - 1 := by omega
    by_cases hfirst : m / 2 ^ 23 = 0
    · simp only [finiteSize, mantissa, exponent, hdiv, hmod, hrest, hfirst, zero_add, one_ne_zero,
        if_true, if_false]
      norm_num
    · have hexponent : ((m / 2 ^ 23 + 1 : Nat) : Int) - 150 =
          ((m / 2 ^ 23 : Nat) : Int) - 150 + 1 := by push_cast; ring
      simp only [finiteSize, mantissa, exponent, hdiv, hmod, hrest, hfirst, if_false, hexponent,
        Nat.add_eq_zero_iff, one_ne_zero, and_false]
      rw [zpow_add_one₀ (by norm_num)]
      push_cast
      ring
  · have hdiv : (m + 1) / 2 ^ 23 = m / 2 ^ 23 := by omega
    have hmod : (m + 1) % 2 ^ 23 = m % 2 ^ 23 + 1 := by omega
    simp only [finiteSize, mantissa, exponent, hdiv, hmod]
    split <;> push_cast <;> ring

theorem finiteSize_strictMono : StrictMono finiteSize := by
  refine strictMono_nat_of_lt_succ fun m => ?_
  rw [finiteSize_succ]
  have hunit : (0 : ℝ) < 2 ^ exponent m := by positivity
  exact lt_add_of_pos_right _ hunit

/-- The size of a pattern, given by its bits without the sign. -/
noncomputable def size (m : Nat) : EReal :=
  if m = Format.single.infinityBits then ⊤ else finiteSize m

theorem size_nonneg (m : Nat) : 0 ≤ size m := by
  rw [size]
  split
  · exact le_top
  · rw [finiteSize]
    exact EReal.coe_nonneg.mpr (by positivity)

theorem size_zero : size 0 = 0 := by
  simp [size, finiteSize, mantissa, Format.infinityBits, Format.single, Format.exponentSize,
    Format.fractionSize]

/-- Up to the infinite pattern, larger bits stand for larger sizes. -/
theorem size_strictMonoOn : StrictMonoOn size (Set.Iic Format.single.infinityBits) := by
  intro m _ n hn hlt
  have hm : m ≠ Format.single.infinityBits := (hlt.trans_le hn).ne
  rw [size, size, if_neg hm]
  split
  · exact EReal.coe_lt_top _
  · exact EReal.coe_lt_coe_iff.mpr (finiteSize_strictMono hlt)

theorem size_lt_size_iff (hm : m ≤ Format.single.infinityBits)
    (hn : n ≤ Format.single.infinityBits) : size m < size n ↔ m < n :=
  size_strictMonoOn.lt_iff_lt hm hn

theorem size_pos_iff (hm : m ≤ Format.single.infinityBits) : 0 < size m ↔ 0 < m := by
  rw [← size_zero]
  exact size_lt_size_iff (Nat.zero_le _) hm

theorem meaning_eq (x : Single) :
    Format.single.meaning x.bits.toNat =
      if x.magnitude < Format.single.infinityBits then
        .finite x.isNegative (mantissa x.magnitude) (exponent x.magnitude)
      else if x.magnitude = Format.single.infinityBits then .infinite x.isNegative
      else .notANumber := by
  have hbits : x.bits.toNat < 2 ^ 32 := x.bits.toNat_lt
  have hsign : (x.bits.toNat / 2 ^ 31 % 2 == 1) = x.isNegative := by
    have hbit : x.bits.toNat / 2 ^ 31 % 2 = 1 ↔ 2 ^ 31 ≤ x.bits.toNat := by omega
    simp only [Bool.beq_eq_decide_eq, hbit]
    rfl
  have hmagnitude : x.magnitude = x.bits.toNat % 2 ^ 31 := rfl
  have hfraction : x.bits.toNat % 2 ^ 23 = x.magnitude % 2 ^ 23 := by omega
  have hinfinity : Format.single.infinityBits = 255 * 2 ^ 23 := rfl
  change (if x.magnitude / 2 ^ 23 = 255 then
      if x.bits.toNat % 2 ^ 23 = 0 then Meaning.infinite (x.bits.toNat / 2 ^ 31 % 2 == 1)
      else Meaning.notANumber
    else if x.magnitude / 2 ^ 23 = 0 then
      Meaning.finite (x.bits.toNat / 2 ^ 31 % 2 == 1) (x.bits.toNat % 2 ^ 23) (-149)
    else Meaning.finite (x.bits.toNat / 2 ^ 31 % 2 == 1) (2 ^ 23 + x.bits.toNat % 2 ^ 23)
      (-149 + (x.magnitude / 2 ^ 23 : Nat) - 1)) = _
  rw [hsign, hfraction, hinfinity]
  by_cases hlast : x.magnitude / 2 ^ 23 = 255
  · have hnot : ¬x.magnitude < 255 * 2 ^ 23 := by omega
    have hzero : x.magnitude % 2 ^ 23 = 0 ↔ x.magnitude = 255 * 2 ^ 23 := by omega
    simp only [hlast, hnot, hzero, if_true, if_false]
  · have hless : x.magnitude < 255 * 2 ^ 23 := by omega
    simp only [hlast, hless, if_true, if_false, mantissa, exponent]
    split
    · rfl
    · congr 1
      omega

/-- The size of a pattern with its sign. -/
noncomputable def value (x : Single) : EReal :=
  if x.isNegative then -size x.magnitude else size x.magnitude

theorem number?_eq (x : Single) :
    x.number? = if x.magnitude ≤ Format.single.infinityBits then some x.value else none := by
  rw [number?, meaning_eq]
  obtain hlt | heq | hgt := Nat.lt_trichotomy x.magnitude Format.single.infinityBits
  · simp only [hlt, hlt.le, if_true, Meaning.number?, value, size, hlt.ne, if_false, finiteSize]
    split <;> simp
  · simp only [heq, lt_irrefl, le_refl, if_true, if_false, Meaning.number?, value, size]
    split <;> simp
  · simp only [hgt.not_gt, hgt.ne', hgt.not_ge, if_false, Meaning.number?]

theorem number?_eq_none : x.number? = none ↔ Format.single.infinityBits < x.magnitude := by
  simp [number?_eq]

theorem number?_eq_some {a : EReal} :
    x.number? = some a ↔ x.magnitude ≤ Format.single.infinityBits ∧ x.value = a := by
  simp [number?_eq]

/-! ## The place in the order -/

theorem rank_lt_rank : x.rank < y.rank ↔ x.BitsBelow y := by
  rw [rank, rank, BitsBelow]
  cases x.isNegative <;> cases y.isNegative <;> grind

/-- Two patterns of one rank are the same. -/
theorem rank_injective : Function.Injective rank := by
  intro x y h
  have hsplit (x : Single) :
      x.bits.toNat = (if x.isNegative then 2 ^ 31 else 0) + x.magnitude := by
    have hbits : x.bits.toNat < 2 ^ 32 := x.bits.toNat_lt
    have hmagnitude : x.magnitude = x.bits.toNat % 2 ^ 31 := rfl
    have hsign : x.isNegative = decide (2 ^ 31 ≤ x.bits.toNat) := rfl
    rw [hmagnitude, hsign]
    grind
  have hbits : x.bits.toNat = y.bits.toNat := by
    rw [hsplit x, hsplit y]
    rw [rank, rank] at h
    grind
  cases x
  cases y
  exact congrArg mk (UInt32.toNat_inj.mp hbits)

/-- The values of numbers are in the order of the bits, but for the two zeros. -/
theorem value_lt_value (hx : x.magnitude ≤ Format.single.infinityBits)
    (hy : y.magnitude ≤ Format.single.infinityBits) :
    x.value < y.value ↔ x.BitsBelow y ∧ ¬(x.magnitude = 0 ∧ y.magnitude = 0) := by
  rw [value, value, BitsBelow]
  cases x.isNegative <;> cases y.isNegative
  case false.false =>
    simp only [Bool.false_eq_true, if_false, size_lt_size_iff hx hy]
    grind
  case true.true =>
    simp only [if_true, EReal.neg_lt_neg_iff, size_lt_size_iff hy hx]
    grind
  case false.true =>
    have hle := EReal.neg_le_neg_iff.mpr (size_nonneg y.magnitude)
    rw [neg_zero] at hle
    simpa using hle.trans (size_nonneg x.magnitude)
  case true.false =>
    by_cases hzero : x.magnitude = 0
    · simp [hzero, size_zero, size_pos_iff hy, Nat.pos_iff_ne_zero]
    · have hlt := EReal.neg_lt_neg_iff.mpr ((size_pos_iff hx).mpr (Nat.pos_of_ne_zero hzero))
      rw [neg_zero] at hlt
      simpa [hzero] using hlt.trans_le (size_nonneg y.magnitude)

/-- The rank of a pattern is its place in the total order. -/
theorem rank_lt_rank_iff : x.rank < y.rank ↔ x.Below y := by
  rw [rank_lt_rank]
  constructor
  · intro h
    by_cases hx : Format.single.infinityBits < x.magnitude <;>
      by_cases hy : Format.single.infinityBits < y.magnitude
    · exact .noNumbers (number?_eq_none.mpr hx) (number?_eq_none.mpr hy) h
    · have hnegative : x.isNegative := by
        rcases h with h | h | h
        · exact h.1
        · omega
        · exact h.1
      exact .first (number?_eq_none.mpr hx) hnegative (mt number?_eq_none.mp hy)
    · have hpositive : ¬y.isNegative := by
        rcases h with h | h | h
        · exact h.2
        · exact h.2.1
        · omega
      exact .last (mt number?_eq_none.mp hx) (number?_eq_none.mpr hy) hpositive
    · have hx' := number?_eq_some.mpr ⟨Nat.le_of_not_lt hx, rfl⟩
      have hy' := number?_eq_some.mpr ⟨Nat.le_of_not_lt hy, rfl⟩
      by_cases hzeros : x.magnitude = 0 ∧ y.magnitude = 0
      · have hsigns : x.isNegative ∧ ¬y.isNegative := by
          rcases h with h | h | h
          · exact h
          · omega
          · omega
        rw [value, hzeros.1, size_zero, neg_zero, ite_self] at hx'
        rw [value, hzeros.2, size_zero, neg_zero, ite_self] at hy'
        exact .zeros hx' hy' hsigns.1 hsigns.2
      · exact .smaller hx' hy' ((value_lt_value (Nat.le_of_not_lt hx) (Nat.le_of_not_lt hy)).mpr
          ⟨h, hzeros⟩)
  · intro h
    cases h with
    | smaller hx hy hlt =>
        obtain ⟨hxle, rfl⟩ := number?_eq_some.mp hx
        obtain ⟨hyle, rfl⟩ := number?_eq_some.mp hy
        exact ((value_lt_value hxle hyle).mp hlt).1
    | zeros _ _ hnegative hpositive => exact .inl ⟨hnegative, hpositive⟩
    | first hx hnegative hy =>
        rw [number?_eq_none] at hx
        rw [ne_eq, number?_eq_none] at hy
        by_cases hsign : y.isNegative
        · exact .inr (.inr ⟨hnegative, hsign, by omega⟩)
        · exact .inl ⟨hnegative, hsign⟩
    | last hx hy hpositive =>
        rw [ne_eq, number?_eq_none] at hx
        rw [number?_eq_none] at hy
        by_cases hsign : x.isNegative
        · exact .inl ⟨hsign, hpositive⟩
        · exact .inr (.inl ⟨hsign, hpositive, by omega⟩)
    | noNumbers _ _ h => exact h

end Single

end Outline
