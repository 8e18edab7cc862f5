import Outline.Proofs.TotalOrder
import Outline.Visibility

/-!
# The bounds of windows

Three patterns bound a window exactly if they stand for real numbers between zero and one
that do not decrease.  So no pattern that stands for an infinity or for no number bounds
one, while a negative zero does as well as a positive one.
-/

namespace Outline

open Number

namespace Single

variable {x y : Single}

/-- Numbers are compared by their values; what is no number is never at most anything. -/
theorem atMost_iff :
    x.atMost y ↔ ∃ a b, x.number? = some a ∧ y.number? = some b ∧ a ≤ b := by
  by_cases hx : x.magnitude ≤ Format.single.infinityBits
  swap
  · simp [atMost, isNaN, number?_eq, hx, Nat.lt_of_not_le hx]
  by_cases hy : y.magnitude ≤ Format.single.infinityBits
  swap
  · simp [atMost, isNaN, number?_eq, hy, Nat.lt_of_not_le hy]
  have horder : x.order ≤ y.order ↔ x.value ≤ y.value := by
    rw [← not_lt, ← not_lt, not_iff_not, value_lt_value hy hx, order, order, BitsBelow]
    cases x.isNegative <;> cases y.isNegative <;> grind
  simp [atMost, isNaN, number?_eq, hx, hy, horder]

theorem number?_zero : zero.number? = some 0 := by
  refine number?_eq_some.mpr ⟨by decide, ?_⟩
  have hpositive : ¬zero.isNegative := by decide
  have hmagnitude : zero.magnitude = 0 := by decide
  rw [value, if_neg hpositive, hmagnitude, size_zero]

theorem number?_one : one.number? = some 1 := by
  refine number?_eq_some.mpr ⟨by decide, ?_⟩
  have hpositive : ¬one.isNegative := by decide
  have hmagnitude : one.magnitude = 127 * 2 ^ 23 := by decide
  have hfinite : 127 * 2 ^ 23 ≠ Format.single.infinityBits := by decide
  rw [value, if_neg hpositive, hmagnitude, size, if_neg hfinite, finiteSize, mantissa, exponent]
  norm_num

end Single

/-- Three patterns stand for real numbers between zero and one that do not decrease. -/
def InOrder (least usual most : Single) : Prop :=
  ∃ a b c : ℝ, least.number? = some ↑a ∧ usual.number? = some ↑b ∧ most.number? = some ↑c ∧
    0 ≤ a ∧ a ≤ b ∧ b ≤ c ∧ c ≤ 1

theorem areBounds_iff {least usual most : Single} :
    areBounds least usual most ↔ InOrder least usual most := by
  simp only [areBounds, Bool.and_eq_true, Single.atMost_iff, Single.number?_zero,
    Single.number?_one]
  constructor
  · rintro ⟨⟨⟨⟨_, a, ⟨⟩, ha, h0⟩, _, b, ha', hb, hab⟩, _, c, hb', hc, hbc⟩, _, _, hc', ⟨⟩, h1⟩
    obtain rfl := Option.some.inj (ha.symm.trans ha')
    obtain rfl := Option.some.inj (hb.symm.trans hb')
    obtain rfl := Option.some.inj (hc.symm.trans hc')
    -- What lies between two real numbers is one.
    have hreal : ∀ x : EReal, 0 ≤ x → x ≤ 1 → ∃ r : ℝ, x = r := fun x hx0 hx1 =>
      ⟨x.toReal, (EReal.coe_toReal (ne_top_of_le_ne_top (EReal.coe_ne_top 1) hx1)
        (ne_bot_of_le_ne_bot EReal.zero_ne_bot hx0)).symm⟩
    obtain ⟨a, rfl⟩ := hreal a h0 (hab.trans (hbc.trans h1))
    obtain ⟨b, rfl⟩ := hreal b (h0.trans hab) (hbc.trans h1)
    obtain ⟨c, rfl⟩ := hreal c (h0.trans (hab.trans hbc)) h1
    exact ⟨a, b, c, ha, hb, hc, by exact_mod_cast h0, by exact_mod_cast hab, by exact_mod_cast hbc,
      by exact_mod_cast h1⟩
  · rintro ⟨a, b, c, ha, hb, hc, h0, hab, hbc, h1⟩
    refine ⟨⟨⟨⟨0, a, rfl, ha, ?_⟩, a, b, ha, hb, ?_⟩, b, c, hb, hc, ?_⟩, c, 1, hc, rfl, ?_⟩
    all_goals exact_mod_cast ‹_›

namespace Window

variable {property : NumberProperty} {least usual most : Single} {window : Window}

theorem ofBounds_eq_ok :
    ofBounds property least usual most = .ok window ↔
      window.least = least ∧ window.usual = usual ∧ window.most = most := by
  rw [ofBounds]
  constructor
  · intro h
    split at h
    · cases h
      exact ⟨rfl, rfl, rfl⟩
    · cases h
  · rintro ⟨rfl, rfl, rfl⟩
    rw [dif_pos window.areBounds]

/-- Bounds are accepted exactly if they are real numbers between zero and one in order. -/
theorem exists_ofBounds_iff :
    (∃ window, ofBounds property least usual most = .ok window) ↔ InOrder least usual most := by
  rw [← areBounds_iff]
  constructor
  · rintro ⟨window, h⟩
    obtain ⟨rfl, rfl, rfl⟩ := ofBounds_eq_ok.mp h
    exact window.areBounds
  · exact fun h => ⟨⟨least, usual, most, h⟩, ofBounds_eq_ok.mpr ⟨rfl, rfl, rfl⟩⟩

end Window

end Outline
