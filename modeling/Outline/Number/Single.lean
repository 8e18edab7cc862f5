import Outline.Number.Layout

/-!
# Single and double precision numbers

Weights, sharabilities and priorities are single precision numbers; doubles appear where one is
widened or where a stored number is not exactly a single. Both are kept as bit patterns, so that
equality is equality of patterns and every comparison is one of integers: `Single.order` for the
usual order and `Single.rank` for the total order that also places zeros by sign and NaNs.
-/

namespace Outline

open Number

/-- A 64-bit floating-point number. -/
structure Double where
  bits : UInt64
  deriving DecidableEq

/-- A 32-bit floating-point number. -/
structure Single where
  bits : UInt32
  deriving DecidableEq

namespace Double

def ofDecimal (d : Decimal) : Double :=
  ⟨UInt64.ofNat (d.bits Format.double)⟩

def magnitude (x : Double) : Nat :=
  x.bits.toNat % Format.double.signBit

def isNegative (x : Double) : Bool :=
  Format.double.signBit ≤ x.bits.toNat

def isFinite (x : Double) : Bool :=
  x.magnitude < Format.double.infinityBits

/-- The place of a number in the usual order; both zeros have the same place. -/
def order (x : Double) : Int :=
  if x.isNegative then -x.magnitude else x.magnitude

def toSingle (x : Double) : Single :=
  ⟨UInt32.ofNat (Format.double.convert Format.single x.bits.toNat)⟩

end Double

namespace Single

def ofDecimal (d : Decimal) : Single :=
  ⟨UInt32.ofNat (d.bits Format.single)⟩

def toDouble (x : Single) : Double :=
  ⟨UInt64.ofNat (Format.single.convert Format.double x.bits.toNat)⟩

def zero : Single := ⟨0⟩

def one : Single := ⟨0x3f800000⟩

def infinity : Single := ⟨0x7f800000⟩

/-- A pattern that is not a number. -/
def nan : Single := ⟨0x7fc00000⟩

def negated (x : Single) : Single :=
  ⟨x.bits ^^^ 0x80000000⟩

def magnitude (x : Single) : Nat :=
  x.bits.toNat % Format.single.signBit

def isNegative (x : Single) : Bool :=
  Format.single.signBit ≤ x.bits.toNat

def isNaN (x : Single) : Bool :=
  Format.single.infinityBits < x.magnitude

def isFinite (x : Single) : Bool :=
  x.magnitude < Format.single.infinityBits

/-- The place of a number in the usual order; both zeros have the same place. -/
def order (x : Single) : Int :=
  if x.isNegative then -x.magnitude else x.magnitude

/-- The place of a pattern in the total order of all patterns. -/
def rank (x : Single) : Int :=
  if x.isNegative then -x.magnitude - 1 else x.magnitude

/-- The usual `≤`, which never holds of a NaN. -/
def atMost (x y : Single) : Bool :=
  !x.isNaN && !y.isNaN && x.order ≤ y.order

/-- The usual equality: zeros of both signs are equal, a NaN equals nothing. -/
def sameValue (x y : Single) : Bool :=
  !x.isNaN && !y.isNaN && x.order == y.order

/-- The number as a stored column gives it back: a negative zero loses its sign. -/
def stored (x : Single) : Single :=
  if x.magnitude = 0 then zero else x

/-- The text of the number inside a message. -/
def messageText (x : Single) : String :=
  Layout.message.write Format.single x.bits.toNat

end Single

end Outline
