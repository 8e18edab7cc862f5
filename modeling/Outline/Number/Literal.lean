import Outline.Number.Single

/-!
# Numbers in options

A number in an option is written with a sign or none, with digits before or after a point or both,
and with an exponent or none; infinities and NaN are words.
-/

namespace Outline

namespace Single

open Number (digitsValue)

/-- Why a text is no number. -/
inductive LiteralFault where
  | empty
  | malformed
  deriving DecidableEq

def LiteralFault.message : LiteralFault → String
  | .empty => "cannot parse float from empty string"
  | .malformed => "invalid float literal"

/-- The sign in front of some characters, and the characters after it. -/
def splitSign : List Char → Bool × List Char
  | '-' :: s => (true, s)
  | '+' :: s => (false, s)
  | s => (false, s)

/-- The power of ten that an exponent stands for; the text must end with it. -/
def readPower? : List Char → Option Int
  | [] => some 0
  | c :: s =>
    let (isNegative, digits) := splitSign s
    if (c = 'e' ∨ c = 'E') ∧ !digits.isEmpty ∧ digits.all Char.isDigit then
      some (if isNegative then -digitsValue digits else digitsValue digits)
    else none

/-- The size of a number in digits. -/
def readDecimal? (isNegative : Bool) (s : List Char) : Option Number.Decimal :=
  let whole := s.takeWhile Char.isDigit
  let s := s.dropWhile Char.isDigit
  let (places, s) := match s with
    | '.' :: s => (s.takeWhile Char.isDigit, s.dropWhile Char.isDigit)
    | s => ([], s)
  if (whole ++ places).isEmpty then none
  else (readPower? s).map fun power =>
    ⟨isNegative, digitsValue (whole ++ places), power - places.length⟩

/-- The single nearest to the number that a text stands for. -/
def readLiteral (s : List Char) : Except LiteralFault Single :=
  let (isNegative, rest) := splitSign s
  let signed (x : Single) : Single := if isNegative then x.negated else x
  let word := String.ofList (rest.map Char.toLower)
  if s.isEmpty then .error .empty
  else if word = "inf" ∨ word = "infinity" then .ok (signed infinity)
  else if word = "nan" then .ok (signed nan)
  else
    match readDecimal? isNegative rest with
    | some decimal => .ok (ofDecimal decimal)
    | none => .error .malformed

end Single

end Outline
