import Outline.Json.Reader

/-!
# Passing over values

The value of a member that nobody asks for is passed over. It is checked for its form alone: texts
may hold unpaired surrogates, numbers may be of any size, and nesting has no limit. A number that
breaks off counts as malformed, even at the end of the text.
-/

namespace Outline.Json

/-- Passes over a text up to and with its closing quote; `limit` bounds its length. -/
def skipTextUpTo : (limit : Nat) → List Char → Except ReadFault (List Char)
  | _, [] => .error .unfinished
  | 0, _ => .error .unfinished
  | limit + 1, c :: s =>
    if c = '"' then .ok s
    else if c = '\\' then
      match s with
      | [] => .error .unfinished
      | 'u' :: s => do
        let (_, s) ← readHex s
        skipTextUpTo limit s
      | c :: s =>
        if ['"', '\\', '/', 'b', 'f', 'n', 'r', 't'].contains c then skipTextUpTo limit s
        else .error .malformed
    else if c.toNat < 0x20 then .error .malformed
    else skipTextUpTo limit s

/-- Passes over a text whose opening quote has been read. -/
def skipText (s : List Char) : Except ReadFault (List Char) :=
  skipTextUpTo s.length s

def skipNumber (s : List Char) : Except ReadFault (List Char) :=
  let parts : Except ReadFault (List Char) := do
    let s := match s with
      | '-' :: s => s
      | s => s
    let (_, s) ← readWholeDigits s
    let (_, s) ← readFraction s
    let (_, s) ← readExponent s
    return s
  match parts with
  | .ok s => .ok s
  | .error _ => .error .malformed

mutual

/-- Passes over a value; `limit` bounds the number of its parts. -/
def skipValueUpTo : (limit : Nat) → List Char → Except ReadFault (List Char)
  | 0, _ => .error .unfinished
  | limit + 1, s =>
    match skipSpace s with
    | [] => .error .unfinished
    | 'n' :: s => readWord ['u', 'l', 'l'] s
    | 't' :: s => readWord ['r', 'u', 'e'] s
    | 'f' :: s => readWord ['a', 'l', 's', 'e'] s
    | '"' :: s => skipText s
    | c :: s =>
      if c = '[' then
        match skipSpace s with
        | ']' :: s => .ok s
        | s => skipItems limit s
      else if c = '\x7b' then
        match skipSpace s with
        | '\x7d' :: s => .ok s
        | s => skipMembers limit s
      else if c = '-' ∨ c.isDigit then skipNumber (c :: s)
      else .error .malformed

/-- Passes over the items of a list up to and with the closing bracket. -/
def skipItems : (limit : Nat) → List Char → Except ReadFault (List Char)
  | 0, _ => .error .unfinished
  | limit + 1, s => do
    let s ← skipValueUpTo limit s
    match skipSpace s with
    | ',' :: s => skipItems limit s
    | ']' :: s => return s
    | [] => throw .unfinished
    | _ => throw .malformed

/-- Passes over the members of an object up to and with the closing brace. -/
def skipMembers : (limit : Nat) → List Char → Except ReadFault (List Char)
  | 0, _ => .error .unfinished
  | limit + 1, s =>
    match skipSpace s with
    | [] => .error .unfinished
    | '"' :: s => do
      let s ← skipText s
      match skipSpace s with
      | [] => throw .unfinished
      | ':' :: s =>
        let s ← skipValueUpTo limit s
        match skipSpace s with
        | ',' :: s => skipMembers limit s
        | '\x7d' :: s => return s
        | [] => throw .unfinished
        | _ => throw .malformed
      | _ => throw .malformed
    | _ => .error .malformed

end

def skipValue (s : List Char) : Except ReadFault (List Char) :=
  skipValueUpTo (2 * s.length + 2) s

end Outline.Json
