import Outline.Number.Decimal

/-!
# The written form of a floating-point number

Every written form uses the shortest digits that read back. The forms differ only in where they
change to exponent notation and whether a whole number keeps its point: one `Layout` per form.
-/

namespace Outline.Number

/-- The choices that make up a written form. -/
structure Layout where
  /-- Whether a number whose first digit has this power of ten is written without an exponent. -/
  positional : Int → Bool
  /-- Whether a number without a fraction ends in `.0`. -/
  keepsPoint : Bool

namespace Layout

/-- Digits and point for a number below one or above it, by the power of ten of its first digit. -/
def positionalText (layout : Layout) (digits : List Char) (power : Int) : List Char :=
  if power < 0 then '0' :: '.' :: List.replicate (-power - 1).toNat '0' ++ digits
  else
    let whole := digits.take (power.toNat + 1)
    let zeros := List.replicate (power.toNat + 1 - digits.length) '0'
    match digits.drop (power.toNat + 1) with
    | [] => whole ++ zeros ++ if layout.keepsPoint then ['.', '0'] else []
    | fraction => whole ++ '.' :: fraction

/-- One digit, the rest of the digits after a point, and the power of ten with its sign. -/
def exponentText (digits : List Char) (power : Int) : List Char :=
  let mantissa := match digits with
    | first :: second :: rest => first :: '.' :: second :: rest
    | short => short
  let sign := if power < 0 then '-' else '+'
  mantissa ++ 'e' :: sign :: Nat.toDigits 10 power.natAbs

/-- The text of a bit pattern. -/
def write (layout : Layout) (f : Format) (bits : Nat) : String :=
  match f.meaning bits with
  | .notANumber => "NaN"
  | .infinite negative => if negative then "-inf" else "inf"
  | .finite negative mantissa exponent =>
    let decimal := (f.shortest? mantissa exponent).getD { digits := 0 }
    let digits := Nat.toDigits 10 decimal.digits
    let power := decimal.exponent + digits.length - 1
    let text :=
      if mantissa = 0 then layout.positionalText ['0'] 0
      else if layout.positional power then layout.positionalText digits power
      else exponentText digits power
    String.ofList (if negative then '-' :: text else text)

/-- Numbers inside messages are written without an exponent, whole numbers without a point. -/
def message : Layout := ⟨fun _ => true, false⟩

/-- Numbers of 32 bits in documents: a whole number keeps its point, and an exponent is used from
`1e+13` upwards and from `1e-7` downwards. -/
def document : Layout := ⟨fun power => -6 ≤ power && power ≤ 12, true⟩

/-- Numbers of 64 bits in documents: as for 32 bits, but the large exponents start at `1e+16`. -/
def wideDocument : Layout := ⟨fun power => -6 ≤ power && power ≤ 15, true⟩

end Layout

end Outline.Number
