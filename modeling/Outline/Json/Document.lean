import Outline.Json
import Outline.Json.Reader

/-!
# Reading documents

A document of any kind is read whole. Numbers keep the characters with which they are written.
-/

namespace Outline.Json

/-- Reads a number and keeps its characters. -/
def readLiteral (s : List Char) : Except ReadFault (Json × List Char) := do
  let (_, rest) ← readNumber s
  return (.number (String.ofList (s.take (s.length - rest.length))), rest)

mutual

/-- Reads a value; `limit` bounds the number of its parts. -/
def readValue : (limit : Nat) → List Char → Except ReadFault (Json × List Char)
  | 0, _ => .error .unfinished
  | limit + 1, s =>
    match skipSpace s with
    | [] => .error .unfinished
    | 'n' :: s => do return (.null, ← readWord ['u', 'l', 'l'] s)
    | 't' :: s => do return (.flag true, ← readWord ['r', 'u', 'e'] s)
    | 'f' :: s => do return (.flag false, ← readWord ['a', 'l', 's', 'e'] s)
    | '"' :: s => do
      let (content, s) ← readText s
      return (.text (String.ofList content), s)
    | c :: s =>
      if c = '[' then
        match skipSpace s with
        | ']' :: s => .ok (.list [], s)
        | s => do
          let (items, s) ← readItems limit s
          return (.list items, s)
      else if c = '\x7b' then
        match skipSpace s with
        | '\x7d' :: s => .ok (.record [], s)
        | s => do
          let (members, s) ← readRecord limit s
          return (.record members, s)
      else if c = '-' ∨ c.isDigit then readLiteral (c :: s)
      else .error .malformed

/-- Reads the items of a list up to and with the closing bracket. -/
def readItems : (limit : Nat) → List Char → Except ReadFault (List Json × List Char)
  | 0, _ => .error .unfinished
  | limit + 1, s => do
    let (item, s) ← readValue limit s
    match skipSpace s with
    | ',' :: s =>
      let (items, s) ← readItems limit s
      return (item :: items, s)
    | ']' :: s => return ([item], s)
    | [] => throw .unfinished
    | _ => throw .malformed

/-- Reads the members of an object up to and with the closing brace. -/
def readRecord : (limit : Nat) → List Char →
    Except ReadFault (List (String × Json) × List Char)
  | 0, _ => .error .unfinished
  | limit + 1, s =>
    match skipSpace s with
    | [] => .error .unfinished
    | '"' :: s => do
      let (name, s) ← readText s
      match skipSpace s with
      | [] => throw .unfinished
      | ':' :: s =>
        let (value, s) ← readValue limit s
        let member := (String.ofList name, value)
        match skipSpace s with
        | ',' :: s =>
          let (members, s) ← readRecord limit s
          return (member :: members, s)
        | '\x7d' :: s => return ([member], s)
        | [] => throw .unfinished
        | _ => throw .malformed
      | _ => throw .malformed
    | _ => .error .malformed

end

/-- Reads a text that holds one document and nothing else. -/
def read (text : String) : Except ReadFault Json := do
  let s := text.toList
  let (document, rest) ← readValue (2 * s.length + 2) s
  if (skipSpace rest).isEmpty then return document else throw .malformed

/-- The number that a document is. -/
def numberLiteral? : Json → Option NumberLiteral
  | .number literal =>
    match readNumber literal.toList with
    | .ok (read, []) => some read
    | _ => none
  | _ => none

/-- The whole number that a document is. -/
def wholeNumber? (document : Json) : Option Int :=
  match document.numberLiteral? with
  | some (.whole n) => some n
  | _ => none

end Outline.Json
