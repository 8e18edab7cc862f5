import Outline.Number.Range

/-!
# Whole numbers in options

A whole number in an option is written in digits after a sign or none, and fits in 64 bits.
-/

namespace Outline.Number

/-- Why a text is no whole number. -/
inductive WholeFault where
  | empty
  | notADigit
  | tooLarge
  | tooSmall
  deriving DecidableEq

def WholeFault.message : WholeFault → String
  | .empty => "cannot parse integer from empty string"
  | .notADigit => "invalid digit found in string"
  | .tooLarge => "number too large to fit in target type"
  | .tooSmall => "number too small to fit in target type"

/-- The number that some digits stand for after those that stand for `size`. The first character
that is no digit or leads beyond `limit` is a fault. -/
def readDigits (limit : Nat) (beyond : WholeFault) (size : Nat) :
    List Char → Except WholeFault Nat
  | [] => .ok size
  | c :: s =>
    if c.isDigit then
      let size := size * 10 + (c.toNat - 0x30)
      if limit < size then .error beyond else readDigits limit beyond size s
    else .error .notADigit

/-- The whole number of 64 bits that a text stands for. -/
def readWhole (s : List Char) : Except WholeFault Int :=
  match s with
  | [] => .error .empty
  | ['+'] | ['-'] => .error .notADigit
  | '-' :: s => (readDigits signedLimit .tooSmall 0 s).map fun size => -size
  | '+' :: s => (readDigits (signedLimit - 1) .tooLarge 0 s).map Int.ofNat
  | s => (readDigits (signedLimit - 1) .tooLarge 0 s).map Int.ofNat

end Outline.Number
