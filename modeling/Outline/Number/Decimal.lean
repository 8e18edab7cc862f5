import Outline.Number.Binary

/-!
# Decimal numbers

A decimal is a string of digits with a power of ten. `Decimal.bits` rounds one to a binary format.
`Format.shortest?` goes the other way: among the decimals that read back as a given number it takes
one with the fewest digits, and of those the nearest to the number.
-/

namespace Outline.Number

/-- The number `± digits * 10 ^ exponent`. -/
structure Decimal where
  negative : Bool := false
  digits : Nat
  exponent : Int := 0
  deriving DecidableEq

/-- The number that some digits stand for. -/
def digitsValue (digits : List Char) : Nat :=
  digits.foldl (fun n c => n * 10 + (c.toNat - 0x30)) 0

/-- How many decimal digits a number is written with. -/
def digitCount (n : Nat) : Nat :=
  (Nat.toDigits 10 n).length

/-- The pattern nearest to a decimal. Decimals beyond every format are settled by their size, so
that no power of ten much larger than the format's range is ever formed. -/
def Decimal.bits (f : Format) (d : Decimal) : Nat :=
  let sign := if d.negative then f.signBit else 0
  let size := d.exponent + digitCount d.digits
  if d.digits = 0 ∨ size < -400 then sign
  else if 400 < size then sign + f.infinityBits
  else
    let quotient := scaleDown 10 d.digits 1 (-d.exponent)
    f.round d.negative quotient.1 quotient.2

/-- The largest power of ten that does not exceed the positive quotient `num / den`. -/
def floorLog10 (num den : Nat) : Int :=
  let guess : Int := digitCount num - digitCount den
  let scaled := scaleDown 10 num den guess
  if scaled.1 < scaled.2 then guess - 1 else guess

/-- The part of the line that rounds to a number, in quarters of the number's last place. -/
structure Neighbourhood where
  /-- The number itself. -/
  centre : Nat
  /-- The lower end. -/
  low : Nat
  /-- The upper end. -/
  high : Nat
  /-- Whether the ends belong to it. -/
  closed : Bool

/-- The neighbourhood of `mantissa * 2 ^ exponent`. Below a power of two the places are half as
wide. -/
def Format.neighbourhood (f : Format) (mantissa : Nat) (exponent : Int) : Neighbourhood where
  centre := 4 * mantissa
  low := 4 * mantissa - if mantissa = f.fractionSize ∧ f.lowest < exponent then 1 else 2
  high := 4 * mantissa + 2
  closed := mantissa % 2 == 0

/-- Whether the grid point `n` lies in the neighbourhood, where `unit` and `step` are the lengths of
a quarter place and of a step of the grid, both cleared of denominators. -/
def Neighbourhood.holds (s : Neighbourhood) (unit step n : Nat) : Bool :=
  if s.closed then s.low * unit ≤ n * step && n * step ≤ s.high * unit
  else s.low * unit < n * step && n * step < s.high * unit

/-- The grid point of the neighbourhood nearest to its centre, an exact tie going to the even one.
The two grid points beside the centre suffice: if any lies in it, one of these does. -/
def Neighbourhood.nearest? (s : Neighbourhood) (unit step : Nat) : Option Nat :=
  let below := s.centre * unit / step
  let toBelow := s.centre * unit - below * step
  let toAbove := (below + 1) * step - s.centre * unit
  match s.holds unit step below, s.holds unit step (below + 1) with
  | true, true =>
    if toBelow < toAbove ∨ toBelow = toAbove ∧ below % 2 = 0 then some below else some (below + 1)
  | true, false => some below
  | false, true => some (below + 1)
  | false, false => none

/-- The nearest decimal with `count` digits that reads back as `mantissa * 2 ^ exponent`. -/
def Format.withDigits? (f : Format) (mantissa : Nat) (exponent : Int) (count : Nat) :
    Option Decimal :=
  let s := f.neighbourhood mantissa exponent
  let quarter := scaleDown 2 1 1 (2 - exponent)
  let place := floorLog10 (s.centre * quarter.1) quarter.2 - count + 1
  let grid := scaleDown 10 1 1 (-place)
  (s.nearest? (quarter.1 * grid.2) (grid.1 * quarter.2)).map fun n =>
    if n % 10 = 0 then { digits := n / 10, exponent := place + 1 }
    else { digits := n, exponent := place }

/-- The shortest decimal that reads back as the positive number `mantissa * 2 ^ exponent`. -/
def Format.shortest? (f : Format) (mantissa : Nat) (exponent : Int) : Option Decimal :=
  (List.range 17).findSome? fun count => f.withDigits? mantissa exponent (count + 1)

end Outline.Number
