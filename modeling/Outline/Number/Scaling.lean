import Outline.Number.Single

/-!
# Scaling by powers of ten

A document gives a number as digits and a power of ten. The digits are rounded to a double first;
this is then multiplied or divided by the power, itself a rounded double, and rounded again. Numbers
of up to fifteen digits with small powers come out as the nearest double, because every step but the
last is exact. Others may come out one place beside it.
-/

namespace Outline.Double

open Number

def zero : Double := ⟨0⟩

def negated (x : Double) : Double :=
  ⟨x.bits ^^^ 0x8000000000000000⟩

/-- The double nearest to a quotient. -/
def ofQuotient (num den : Nat) : Double :=
  ⟨UInt64.ofNat (Format.double.round false num den)⟩

/-- The double nearest to a power of ten. -/
def powerOfTen (n : Nat) : Double :=
  ofQuotient (Nat.pow 10 n) 1

/-- The size of a finite number as a quotient. -/
def quotient (x : Double) : Nat × Nat :=
  match Format.double.meaning x.bits.toNat with
  | .finite _ mantissa exponent => scaleDown 2 mantissa 1 (-exponent)
  | _ => (0, 1)

/-- The size of a number times a power of ten of at most 308, rounded. -/
def timesPower (x : Double) (n : Nat) : Double :=
  let (num, den) := x.quotient
  let (num', den') := (powerOfTen n).quotient
  ofQuotient (num * num') (den * den')

/-- The size of a number divided by a power of ten of at most 308, rounded. -/
def overPower (x : Double) (n : Nat) : Double :=
  let (num, den) := x.quotient
  let (num', den') := (powerOfTen n).quotient
  ofQuotient (num * den') (den * num')

/-- The double that 64 bits of digits and a power of ten give, or `none` if it is beyond the range
of doubles. Powers below `-308` are divided by in two steps; what is then left is zero. -/
def ofScaled? (digits : Nat) (power : Int) : Option Double :=
  let whole := ofQuotient digits 1
  if digits = 0 ∨ power < -616 then some zero
  else if power < -308 then some ((whole.overPower 308).overPower (-308 - power).toNat)
  else if power < 0 then some (whole.overPower (-power).toNat)
  else if power ≤ 308 ∧ (whole.timesPower power.toNat).isFinite then
    some (whole.timesPower power.toNat)
  else none

end Outline.Double
