import Outline.Number.Range
import Outline.Number.Scaling
import Outline.Text.Bytes

/-!
# Reading the parts of a document

Readers take the remaining characters and give back what they read with the characters after it, or
the first fault met from left to right. A fault says whether the characters are no document, a
document of another kind than the one looked for, or the beginning of one that stops too early.
-/

namespace Outline.Json

open Number (digitsValue)

/-- What is wrong with a text that should hold a document. -/
inductive ReadFault where
  /-- The characters so far begin no document. -/
  | malformed
  /-- The document so far is not of the kind looked for. -/
  | mismatched
  /-- The text ends before the document does. -/
  | unfinished
  deriving DecidableEq

/-- Spaces, tabs and line ends may stand between the parts of a document. -/
def isSpace (c : Char) : Bool :=
  c == ' ' || c == '\n' || c == '\t' || c == '\r'

/-- The characters after any space. -/
def skipSpace (s : List Char) : List Char :=
  s.dropWhile isSpace

/-- Reads the given characters. -/
def readWord : List Char → List Char → Except ReadFault (List Char)
  | [], s => .ok s
  | _ :: _, [] => .error .unfinished
  | w :: word, c :: s => if c = w then readWord word s else .error .malformed

/-- The value of a hexadecimal digit of either case. -/
def hexValue? (c : Char) : Option Nat :=
  if '0' ≤ c ∧ c ≤ '9' then some (c.toNat - 0x30)
  else if 'a' ≤ c ∧ c ≤ 'f' then some (c.toNat - 0x57)
  else if 'A' ≤ c ∧ c ≤ 'F' then some (c.toNat - 0x37)
  else none

/-- Reads four hexadecimal digits. The text counts as ended if fewer than four bytes remain. -/
def readHex (s : List Char) : Except ReadFault (Nat × List Char) :=
  let fault : ReadFault :=
    if Text.byteCount (s.take 4) < 4 then .unfinished else .malformed
  match s with
  | a :: b :: c :: d :: rest =>
    match hexValue? a, hexValue? b, hexValue? c, hexValue? d with
    | some a, some b, some c, some d => .ok (((a * 16 + b) * 16 + c) * 16 + d, rest)
    | _, _, _, _ => .error fault
  | _ => .error fault

/-- Reads the second half of a surrogate pair, whose first half is `high`. -/
def readLowSurrogate (high : Nat) : List Char → Except ReadFault (Char × List Char)
  | [] => .error .unfinished
  | '\\' :: [] => .error .unfinished
  | '\\' :: 'u' :: s => do
    let (low, rest) ← readHex s
    if 0xdc00 ≤ low ∧ low ≤ 0xdfff then
      return (Char.ofNat (0x10000 + (high - 0xd800) * 0x400 + (low - 0xdc00)), rest)
    else throw .malformed
  | _ => .error .malformed

/-- Reads the character that a backslash introduces. -/
def readEscape : List Char → Except ReadFault (Char × List Char)
  | [] => .error .unfinished
  | '"' :: s => .ok ('"', s)
  | '\\' :: s => .ok ('\\', s)
  | '/' :: s => .ok ('/', s)
  | 'b' :: s => .ok ('\x08', s)
  | 'f' :: s => .ok ('\x0c', s)
  | 'n' :: s => .ok ('\n', s)
  | 'r' :: s => .ok ('\r', s)
  | 't' :: s => .ok ('\t', s)
  | 'u' :: s => do
    let (code, rest) ← readHex s
    if code < 0xd800 ∨ 0xdfff < code then return (Char.ofNat code, rest)
    else if code < 0xdc00 then readLowSurrogate code rest
    else throw .malformed
  | _ => .error .malformed

/-- Reads a text up to and with its closing quote; `limit` bounds the number of its characters. -/
def readTextUpTo : (limit : Nat) → List Char → Except ReadFault (List Char × List Char)
  | _, [] => .error .unfinished
  | 0, _ => .error .unfinished
  | limit + 1, c :: s =>
    if c = '"' then .ok ([], s)
    else if c = '\\' then do
      let (c, s) ← readEscape s
      let (cs, s) ← readTextUpTo limit s
      return (c :: cs, s)
    else if c.toNat < 0x20 then .error .malformed
    else do
      let (cs, s) ← readTextUpTo limit s
      return (c :: cs, s)

/-- Reads a text whose opening quote has been read. -/
def readText (s : List Char) : Except ReadFault (List Char × List Char) :=
  readTextUpTo s.length s

/-- A number as it is written: whole numbers that fit 64 bits apart from all others. -/
inductive NumberLiteral where
  | whole (n : Int)
  | real (x : Double)
  deriving DecidableEq

/-- Splits off the leading digits. -/
def spanDigits (s : List Char) : List Char × List Char :=
  (s.takeWhile Char.isDigit, s.dropWhile Char.isDigit)

/-- Reads an exponent, if there is one; at least one digit must follow its mark. -/
def readExponent (s : List Char) : Except ReadFault (Option Int × List Char) :=
  let digits (negative : Bool) (s : List Char) :=
    match spanDigits s with
    | ([], []) => .error .unfinished
    | ([], _) => .error .malformed
    | (ds, rest) => .ok (some (if negative then -digitsValue ds else digitsValue ds), rest)
  match s with
  | 'e' :: '+' :: s | 'E' :: '+' :: s => digits false s
  | 'e' :: '-' :: s | 'E' :: '-' :: s => digits true s
  | 'e' :: s | 'E' :: s => digits false s
  | s => .ok (none, s)

/-- Reads a fraction, if there is one; at least one digit must follow the point. -/
def readFraction : List Char → Except ReadFault (Option (List Char) × List Char)
  | '.' :: s =>
    match spanDigits s with
    | ([], []) => .error .unfinished
    | ([], _) => .error .malformed
    | (ds, rest) => .ok (some ds, rest)
  | s => .ok (none, s)

/-- Reads the digits before the point: more than one only if the first is not zero. -/
def readWholeDigits (s : List Char) : Except ReadFault (List Char × List Char) :=
  match spanDigits s with
  | ([], []) => .error .unfinished
  | ([], _) => .error .malformed
  | ('0' :: _ :: _, _) => .error .malformed
  | (ds, rest) => .ok (ds, rest)

/-- Appends digits to a number as long as the result fits 64 bits; also tells how many do not. -/
def appendDigits (n : Nat) : List Char → Nat × Nat
  | [] => (n, 0)
  | c :: digits =>
    let longer := 10 * n + (c.toNat - 0x30)
    if longer < Number.unsignedLimit then appendDigits longer digits else (n, digits.length + 1)

/-- The number with the given parts. A number beyond the range of doubles is refused. -/
def numberOfParts (negative : Bool) (digits : List Char) (fraction : Option (List Char))
    (exponent : Option Int) : Except ReadFault NumberLiteral :=
  let (whole, dropped) := appendDigits 0 digits
  let places := fraction.getD []
  let (all, unread) := appendDigits whole places
  let power : Int := dropped - (places.length - unread : Nat) + exponent.getD 0
  let isWhole := fraction.isNone && exponent.isNone && dropped = 0
  if isWhole ∧ !negative then .ok (.whole whole)
  else if isWhole ∧ 0 < whole ∧ whole ≤ Number.signedLimit then .ok (.whole (-whole))
  else
    match Double.ofScaled? all power with
    | some x => .ok (.real (if negative then x.negated else x))
    | none => .error .malformed

/-- Reads a number, whose first character is a minus sign or a digit. -/
def readNumber (s : List Char) : Except ReadFault (NumberLiteral × List Char) := do
  let (negative, s) := match s with
    | '-' :: s => (true, s)
    | s => (false, s)
  let (digits, s) ← readWholeDigits s
  let (fraction, s) ← readFraction s
  let (exponent, s) ← readExponent s
  return (← numberOfParts negative digits fraction exponent, s)

/-- The single that a number denotes. Whole numbers are rounded once, others by way of a double. -/
def NumberLiteral.toSingle : NumberLiteral → Single
  | .whole n => Single.ofDecimal ⟨n < 0, n.natAbs, 0⟩
  | .real x => x.toSingle

def NumberLiteral.toDouble : NumberLiteral → Double
  | .whole n => Double.ofDecimal ⟨n < 0, n.natAbs, 0⟩
  | .real x => x

/-- The fault of a value that stands where another kind of value is looked for. Words, numbers and
texts are read to their end first, so that a fault inside them comes before the mismatch. -/
def mismatch (s : List Char) : ReadFault :=
  let after {α : Type} : Except ReadFault α → ReadFault
    | .ok _ => .mismatched
    | .error fault => fault
  match s with
  | [] => .unfinished
  | 'n' :: s => after (readWord ['u', 'l', 'l'] s)
  | 't' :: s => after (readWord ['r', 'u', 'e'] s)
  | 'f' :: s => after (readWord ['a', 'l', 's', 'e'] s)
  | '"' :: s => after (readText s)
  | c :: s =>
    if c = '[' ∨ c = '\x7b' then .mismatched
    else if c = '-' ∨ c.isDigit then after (readNumber (c :: s))
    else .malformed

end Outline.Json
