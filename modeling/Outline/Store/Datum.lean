import Outline.Number.Range
import Outline.Number.Single

/-!
# Stored values

The value of a column is a datum of one of four kinds. A column prefers one kind and converts what
is put into it where that loses nothing (`Affinity.convert`); whatever cannot be converted is kept
as it is and shows when the column is read. A real number is kept as a single wherever it is
exactly one, so that what was stored from a single reads back as that single.
-/

namespace Outline

open Number

/-- A stored value. -/
inductive Datum where
  | integer (n : Int)
  /-- A real number that is exactly a single, with no negative zero. -/
  | single (x : Single)
  /-- Any other real number. -/
  | double (x : Double)
  | text (s : String)
  /-- Bytes, given by the text that they encode. -/
  | blob (s : String)
  deriving DecidableEq

namespace Datum

/-- The name of a datum's kind. -/
def kindName : Datum → String
  | integer _ => "Integer"
  | single _ | double _ => "Real"
  | text _ => "Text"
  | blob _ => "Blob"

/-- A real number. -/
def ofDouble (x : Double) : Datum :=
  let narrow := x.toSingle
  if x.magnitude = 0 then .single .zero
  else if narrow.toDouble = x then .single narrow
  else .double x

/-- The real number nearest to a decimal. -/
def ofDecimal (d : Decimal) : Datum :=
  ofDouble (Double.ofDecimal d)

/-- The meaning of a number; other data have none. -/
def meaning? : Datum → Option Meaning
  | integer n => some (.finite (n < 0) n.natAbs 0)
  | single x => some (Format.single.meaning x.bits.toNat)
  | double x => some (Format.double.meaning x.bits.toNat)
  | text _ | blob _ => none

/-- The numerator and denominator of a finite number; infinities count as larger than any. -/
def quotient : Meaning → Int × Nat
  | .finite negative mantissa exponent =>
    let scaled := scaleDown 2 mantissa 1 (-exponent)
    (if negative then -scaled.1 else scaled.1, scaled.2)
  | .infinite negative => (if negative then -1 else 1, 0)
  | .notANumber => (0, 0)

/-- Whether one number is at most another. -/
def atMost (a b : Meaning) : Bool :=
  let (n, d) := quotient a
  let (m, e) := quotient b
  if d = 0 ∧ e = 0 then n ≤ m else n * e ≤ m * d

/-- The order of stored values: numbers by size, then texts, then bytes, each by character. -/
def le : Datum → Datum → Bool
  | text a, text b => a ≤ b
  | blob a, blob b => a ≤ b
  | text _, blob _ => true
  | blob _, _ => false
  | text _, _ => false
  | a, b =>
    match a.meaning?, b.meaning? with
    | some a, some b => atMost a b
    | _, _ => true

end Datum

/-- Characters that may stand around a number that is given as a text. -/
def isNumberSpace (c : Char) : Bool :=
  c == ' ' || (0x9 ≤ c.toNat && c.toNat ≤ 0xd)

/-- A number given as a text, and whether it is written as a whole number. -/
structure NumberText where
  decimal : Decimal
  isWhole : Bool

/-- Reads a text that holds a number and nothing else but space around it. -/
def NumberText.read? (s : List Char) : Option NumberText :=
  let (negative, s) := match s.dropWhile isNumberSpace with
    | '-' :: s => (true, s)
    | '+' :: s => (false, s)
    | s => (false, s)
  let (whole, s) := (s.takeWhile Char.isDigit, s.dropWhile Char.isDigit)
  let (hasPoint, s) := match s with
    | '.' :: s => (true, s)
    | s => (false, s)
  let (places, s) :=
    if hasPoint then (s.takeWhile Char.isDigit, s.dropWhile Char.isDigit) else ([], s)
  let (hasExponent, s) := match s with
    | 'e' :: s | 'E' :: s => (true, s)
    | s => (false, s)
  let (shrinks, s) := match hasExponent, s with
    | true, '-' :: s => (true, s)
    | true, '+' :: s => (false, s)
    | _, s => (false, s)
  let (power, s) :=
    if hasExponent then (s.takeWhile Char.isDigit, s.dropWhile Char.isDigit) else ([], s)
  if (whole ++ places).isEmpty || (hasExponent && power.isEmpty) || !s.all isNumberSpace then none
  else
    let exponent : Int := if shrinks then -(digitsValue power : Int) else digitsValue power
    some {
      decimal := ⟨negative, digitsValue (whole ++ places), exponent - places.length⟩
      isWhole := !hasPoint && !hasExponent }

/-- A real number as a text: fifteen significant digits without trailing zeros, but with at least
one place after the point, and an exponent for numbers below `0.0001` or from `1e15` on. -/
def realText (x : Meaning) : String :=
  match x with
  | .notANumber => ""
  | .infinite negative => if negative then "-Inf" else "Inf"
  | .finite negative mantissa exponent =>
    if mantissa = 0 then "0.0"
    else
      let value := scaleDown 2 mantissa 1 (-exponent)
      let place := floorLog10 value.1 value.2 - 14
      let scaled := scaleDown 10 value.1 value.2 place
      let rounded := (2 * scaled.1 + scaled.2) / (2 * scaled.2)
      let digits := Nat.toDigits 10 rounded
      let power := place + digits.length - 1
      let shown := (digits.take 15).reverse.dropWhile (· == '0') |>.reverse
      let text :=
        if -4 ≤ power ∧ power ≤ 14 then
          Layout.positionalText ⟨fun _ => true, true⟩ shown power
        else
          let fraction := if shown.length < 2 then ['0'] else shown.drop 1
          let digits := Nat.toDigits 10 power.natAbs
          shown.take 1 ++ '.' :: fraction ++ 'e' :: (if power < 0 then '-' else '+') ::
            (if digits.length < 2 then '0' :: digits else digits)
      String.ofList (if negative then '-' :: text else text)

/-- The kind of value that a column prefers. -/
inductive Affinity where
  | text
  | integer
  | real
  deriving DecidableEq

namespace Affinity

/-- The whole number that a real number equals, if it is one within 64 bits. -/
def wholeNumber? (x : Meaning) : Option Int :=
  match x with
  | .finite negative mantissa exponent =>
    let (n, d) := scaleDown 2 mantissa 1 (-exponent)
    let n : Int := if negative then -n else n
    if n % d = 0 ∧ -signedLimit < n / d ∧ n / d < signedLimit - 1 then some (n / d) else none
  | _ => none

/-- A number as a column for whole numbers keeps it. -/
def toInteger (x : Datum) : Datum :=
  match x.meaning? with
  | some meaning => (wholeNumber? meaning).elim x .integer
  | none => x

/-- A number as a column for real numbers keeps it. -/
def toReal : Datum → Datum
  | .integer n => Datum.ofDecimal ⟨n < 0, n.natAbs, 0⟩
  | x => x

/-- The number that a text holds, if it holds one. -/
def toNumber : Datum → Datum
  | .text s =>
    match NumberText.read? s.toList with
    | none => .text s
    | some number =>
      let d := number.decimal
      let n : Int := if d.negative then -d.digits else d.digits
      if number.isWhole ∧ -signedLimit ≤ n ∧ n < signedLimit then .integer n else Datum.ofDecimal d
  | x => x

/-- A value as a column with the given preference keeps it. -/
def convert (preference : Affinity) (x : Datum) : Datum :=
  match preference with
  | .text =>
    match x with
    | .integer n => .text (toString n)
    | .single _ | .double _ => .text (x.meaning?.elim "" realText)
    | x => x
  | .integer => toInteger (toNumber x)
  | .real => toReal (toNumber x)

end Affinity

end Outline
