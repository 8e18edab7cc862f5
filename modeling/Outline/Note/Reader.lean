import Outline.Json.Skip
import Outline.Note

/-!
# Reading notes

A note is read from an object with the fields of `Note.toJson`, or from a list of their values in
the same order. Fields may be left out or null, except that children are never null; unknown fields
are passed over and known ones may not be repeated. Lists and objects nest at most `nestingLimit`
deep.
-/

namespace Outline.Note

open Json (ReadFault skipSpace)

/-- How deep the lists and objects of a note may be nested. -/
def nestingLimit : Nat := 127

/-- The fields of a written note. -/
inductive Field where
  | id
  | value
  | byname
  | weight
  | sharability
  | created
  | children
  deriving DecidableEq

namespace Field

/-- The fields in the order of a note that is written as a list. -/
def inOrder : List Field :=
  [id, value, byname, weight, sharability, created, children]

def name : Field → String
  | id => "id"
  | value => "value"
  | byname => "alias"
  | weight => "weight"
  | sharability => "sharability"
  | created => "created"
  | children => "children"

def ofName? (name : List Char) : Option Field :=
  inOrder.find? fun field => field.name.toList == name

end Field

/-- Reads a text. -/
def readTextValue (s : List Char) : Except ReadFault (String × List Char) :=
  match s with
  | '"' :: rest => do
    let (content, rest) ← Json.readText rest
    return (String.ofList content, rest)
  | s => .error (Json.mismatch s)

/-- Reads a number of any form. -/
def readNumberValue (s : List Char) : Except ReadFault (Json.NumberLiteral × List Char) :=
  match s with
  | c :: _ => if c = '-' ∨ c.isDigit then Json.readNumber s else .error (Json.mismatch s)
  | [] => .error .unfinished

/-- Reads a number as a single. -/
def readSingleValue (s : List Char) : Except ReadFault (Single × List Char) := do
  let (literal, rest) ← readNumberValue s
  return (literal.toSingle, rest)

/-- Reads a whole number of 64 bits with a sign. -/
def readCreatedValue (s : List Char) : Except ReadFault (Int × List Char) := do
  match ← readNumberValue s with
  | (.whole n, rest) => if n < Number.signedLimit then return (n, rest) else throw .mismatched
  | (.real _, _) => throw .mismatched

/-- Reads a value that may be null. -/
def readOptional {α : Type} (read : List Char → Except ReadFault (α × List Char))
    (s : List Char) : Except ReadFault (Option α × List Char) :=
  match skipSpace s with
  | 'n' :: rest => do
    let rest ← Json.readWord ['u', 'l', 'l'] rest
    return (none, rest)
  | s => do
    let (x, rest) ← read s
    return (some x, rest)

/-- What stands before the next item or member of a list or object that ends with `close`: nothing
but space before the first, a comma before the others. Gives the characters from the item on, or
`none` with the characters after the end. -/
def readSeparator (close : Char) (isFirst : Bool) (s : List Char) :
    Except ReadFault (Option (List Char) × List Char) :=
  match skipSpace s with
  | [] => .error .unfinished
  | c :: rest =>
    if c = close then .ok (none, rest)
    else if isFirst then .ok (some (c :: rest), [])
    else if c = ',' then
      match skipSpace rest with
      | [] => .error .unfinished
      | c :: rest => if c = close then .error .malformed else .ok (some (c :: rest), [])
    else .error .malformed

mutual

/-- Reads a note. `levels` bounds the nesting that is still allowed, `limit` the number of parts. -/
def readNote : (limit : Nat) → (levels : Nat) → List Char →
    Except ReadFault (Note × List Char)
  | 0, _, _ => .error .unfinished
  | limit + 1, levels, s =>
    match skipSpace s, levels with
    | [], _ => .error .unfinished
    | c :: rest, levels =>
      if c = '\x7b' then
        match levels with
        | 0 => .error .malformed
        | levels + 1 => readMembers limit levels true [] {} rest
      else if c = '[' then
        match levels with
        | 0 => .error .malformed
        | levels + 1 => readElements limit levels Field.inOrder {} rest
      else .error (Json.mismatch (c :: rest))

/-- Reads the members of a note that is written as an object; `seen` holds the fields so far. -/
def readMembers : (limit : Nat) → (levels : Nat) → (isFirst : Bool) → List Field → Note →
    List Char → Except ReadFault (Note × List Char)
  | 0, _, _, _, _, _ => .error .unfinished
  | limit + 1, levels, isFirst, seen, note, s => do
    match ← readSeparator '\x7d' isFirst s with
    | (none, rest) => return (note, rest)
    | (some ('"' :: rest), _) =>
      let (name, rest) ← Json.readText rest
      match Field.ofName? name with
      | none =>
        let rest ← readColon rest
        let rest ← Json.skipValue rest
        readMembers limit levels false seen note rest
      | some field =>
        if seen.contains field then throw .mismatched
        let rest ← readColon rest
        let (note, rest) ← readField limit levels field note rest
        readMembers limit levels false (field :: seen) note rest
    | (some _, _) => throw .malformed
where
  /-- Reads the colon between a name and its value. -/
  readColon (s : List Char) : Except ReadFault (List Char) :=
    match skipSpace s with
    | ':' :: rest => .ok rest
    | [] => .error .unfinished
    | _ => .error .malformed

/-- Reads the values of the given fields of a note that is written as a list. -/
def readElements : (limit : Nat) → (levels : Nat) → List Field → Note → List Char →
    Except ReadFault (Note × List Char)
  | 0, _, _, _, _ => .error .unfinished
  | _ + 1, _, [], note, s =>
    match skipSpace s with
    | ']' :: rest => .ok (note, rest)
    | [] => .error .unfinished
    | _ => .error .malformed
  | limit + 1, levels, field :: fields, note, s => do
    match ← readSeparator ']' (field == .id) s with
    | (none, rest) => return (note, rest)
    | (some s, _) =>
      let (note, rest) ← readField limit levels field note s
      readElements limit levels fields note rest

/-- Reads the value of a field into a note. -/
def readField : (limit : Nat) → (levels : Nat) → Field → Note → List Char →
    Except ReadFault (Note × List Char)
  | _, _, .id, note, s => do
    let (id, rest) ← readOptional readTextValue s
    return ({ note with id }, rest)
  | _, _, .value, note, s => do
    let (value, rest) ← readOptional readTextValue s
    return ({ note with value }, rest)
  | _, _, .byname, note, s => do
    let (byname, rest) ← readOptional readTextValue s
    return ({ note with byname }, rest)
  | _, _, .weight, note, s => do
    let (weight, rest) ← readOptional readSingleValue s
    return ({ note with weight }, rest)
  | _, _, .sharability, note, s => do
    let (sharability, rest) ← readOptional readSingleValue s
    return ({ note with sharability }, rest)
  | _, _, .created, note, s => do
    let (created, rest) ← readOptional readCreatedValue s
    return ({ note with created }, rest)
  | 0, _, .children, _, _ => .error .unfinished
  | limit + 1, levels, .children, note, s =>
    match skipSpace s, levels with
    | '[' :: _, 0 => .error .malformed
    | '[' :: rest, levels + 1 => do
      let (children, rest) ← readChildren limit levels true rest
      return ({ note with children }, rest)
    | s, _ => .error (Json.mismatch s)

/-- Reads the notes of a list up to and with the closing bracket. -/
def readChildren : (limit : Nat) → (levels : Nat) → (isFirst : Bool) → List Char →
    Except ReadFault (List Note × List Char)
  | 0, _, _, _ => .error .unfinished
  | limit + 1, levels, isFirst, s => do
    match ← readSeparator ']' isFirst s with
    | (none, rest) => return ([], rest)
    | (some s, _) =>
      let (child, rest) ← readNote limit levels s
      let (children, rest) ← readChildren limit levels false rest
      return (child :: children, rest)

end

/-- Reads a text that holds one note and nothing else. -/
def read (text : String) : Except ReadFault Note := do
  let s := text.toList
  let (note, rest) ← readNote (3 * s.length + 3) nestingLimit s
  if (skipSpace rest).isEmpty then return note else throw .malformed

end Outline.Note
