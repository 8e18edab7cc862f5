/-!
# Binary floating-point formats

A format packs a sign, an exponent and a fraction into a bit pattern. `Format.meaning` says what a
pattern stands for and `Format.round` finds the pattern nearest to a quotient of natural numbers,
so that every conversion is exact integer arithmetic.
-/

namespace Outline.Number

/-- A binary interchange format, given by the widths of its fraction and exponent fields. -/
structure Format where
  fractionBits : Nat
  exponentBits : Nat

namespace Format

def single : Format := ⟨23, 8⟩

def double : Format := ⟨52, 11⟩

/-- How many fractions there are. -/
def fractionSize (f : Format) : Nat :=
  Nat.pow 2 f.fractionBits

/-- How many exponents there are. -/
def exponentSize (f : Format) : Nat :=
  Nat.pow 2 f.exponentBits

/-- The exponent of two of the last place of the smallest numbers. -/
def lowest (f : Format) : Int :=
  2 - Nat.pow 2 (f.exponentBits - 1) - f.fractionBits

/-- The pattern of positive infinity; larger patterns without a sign are not numbers. -/
def infinityBits (f : Format) : Nat :=
  (f.exponentSize - 1) * f.fractionSize

/-- The weight of the sign bit. -/
def signBit (f : Format) : Nat :=
  f.exponentSize * f.fractionSize

end Format

/-- What a bit pattern stands for; a finite one is `± mantissa * 2 ^ exponent`. -/
inductive Meaning where
  | finite (negative : Bool) (mantissa : Nat) (exponent : Int)
  | infinite (negative : Bool)
  | notANumber
  deriving DecidableEq

/-- The number that a bit pattern stands for. -/
def Format.meaning (f : Format) (bits : Nat) : Meaning :=
  let negative := bits / f.signBit % 2 == 1
  let exponent := bits % f.signBit / f.fractionSize
  let fraction := bits % f.fractionSize
  if exponent = f.exponentSize - 1 then
    if fraction = 0 then .infinite negative else .notANumber
  else if exponent = 0 then .finite negative fraction f.lowest
  else .finite negative (f.fractionSize + fraction) (f.lowest + exponent - 1)

/-- The quotient rounded to the nearest natural number, a half to the even neighbour. -/
def roundHalfEven (num den : Nat) : Nat :=
  let rest := 2 * (num % den)
  if rest < den ∨ rest = den ∧ num / den % 2 = 0 then num / den else num / den + 1

/-- `num / den / base ^ power` as a quotient of natural numbers. -/
def scaleDown (base num den : Nat) (power : Int) : Nat × Nat :=
  if 0 ≤ power then (num, den * Nat.pow base power.toNat)
  else (num * Nat.pow base (-power).toNat, den)

/-- The largest power of two that does not exceed the positive quotient `num / den`. -/
def floorLog2 (num den : Nat) : Int :=
  let guess : Int := num.log2 - den.log2
  let scaled := scaleDown 2 num den guess
  if scaled.1 < scaled.2 then guess - 1 else guess

/-- The pattern nearest to `± num / den`, ties to the even pattern, overflow to infinity. -/
def Format.round (f : Format) (negative : Bool) (num den : Nat) : Nat :=
  let sign := if negative then f.signBit else 0
  if num = 0 then sign
  else
    let place := max f.lowest (floorLog2 num den - f.fractionBits)
    let scaled := scaleDown 2 num den place
    let magnitude :=
      (place - f.lowest).toNat * f.fractionSize + roundHalfEven scaled.1 scaled.2
    sign + min magnitude f.infinityBits

/-- The pattern in format `g` nearest to what `bits` stands for in format `f`. -/
def Format.convert (f g : Format) (bits : Nat) : Nat :=
  match f.meaning bits with
  | .finite negative mantissa exponent =>
    let quotient := scaleDown 2 mantissa 1 (-exponent)
    g.round negative quotient.1 quotient.2
  | .infinite negative => (if negative then g.signBit else 0) + g.infinityBits
  | .notANumber => g.infinityBits + g.fractionSize / 2

end Outline.Number
