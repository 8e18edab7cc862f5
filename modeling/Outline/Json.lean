import Outline.Number.Single

/-!
# Documents

A document tree and its two written forms: compact, and indented by two spaces a level. Numbers are
kept as the text they are written with, and the members of an object in the order they are written.
-/

namespace Outline

/-- A document. -/
inductive Json where
  | null
  | flag (value : Bool)
  | number (literal : String)
  | text (content : String)
  | list (items : List Json)
  | record (members : List (String × Json))

namespace Json

/-- A whole number. -/
def ofInt (n : Int) : Json :=
  .number (toString n)

/-- A single precision number; infinities and NaNs have no number in a document. -/
def ofSingle (x : Single) : Json :=
  if x.isFinite then .number (Number.Layout.document.write .single x.bits.toNat) else .null

/-- A single precision number written with the digits of the double of the same value. -/
def ofWidened (x : Single) : Json :=
  if x.isFinite then .number (Number.Layout.wideDocument.write .double x.toDouble.bits.toNat)
  else .null

/-- The digit of a number below sixteen. -/
def hexDigit (n : Nat) : Char :=
  if n < 10 then Char.ofNat (0x30 + n) else Char.ofNat (0x57 + n)

/-- A character as it stands inside a quoted text: only quotes, backslashes and control characters
are escaped, with the short escapes where there are any. -/
def escaped (c : Char) : List Char :=
  if c = '"' then ['\\', '"']
  else if c = '\\' then ['\\', '\\']
  else if 0x20 ≤ c.toNat then [c]
  else if c = '\x08' then ['\\', 'b']
  else if c = '\x0c' then ['\\', 'f']
  else if c = '\n' then ['\\', 'n']
  else if c = '\r' then ['\\', 'r']
  else if c = '\t' then ['\\', 't']
  else ['\\', 'u', '0', '0', hexDigit (c.toNat / 16), hexDigit (c.toNat % 16)]

/-- A text between quotes. -/
def quoted (s : List Char) : List Char :=
  '"' :: s.flatMap escaped ++ ['"']

/-- The word for a truth value. -/
def flagChars (value : Bool) : List Char :=
  if value then ['t', 'r', 'u', 'e'] else ['f', 'a', 'l', 's', 'e']

mutual

/-- The written form without any space. -/
def compactChars : Json → List Char
  | .null => ['n', 'u', 'l', 'l']
  | .flag value => flagChars value
  | .number literal => literal.toList
  | .text content => quoted content.toList
  | .list items => '[' :: compactItems items ++ [']']
  | .record members => '\x7b' :: compactMembers members ++ ['\x7d']

/-- The items of a list, with commas between them. -/
def compactItems : List Json → List Char
  | [] => []
  | [item] => compactChars item
  | item :: rest => compactChars item ++ ',' :: compactItems rest

/-- The members of an object, with commas between them. -/
def compactMembers : List (String × Json) → List Char
  | [] => []
  | [(name, value)] => quoted name.toList ++ ':' :: compactChars value
  | (name, value) :: rest =>
    quoted name.toList ++ ':' :: compactChars value ++ ',' :: compactMembers rest

end

/-- A line break followed by the indentation of a level. -/
def lineBreak (level : Nat) : List Char :=
  '\n' :: List.replicate (2 * level) ' '

mutual

/-- The written form with every item and member on a line of its own. -/
def indentedChars (level : Nat) : Json → List Char
  | .null => ['n', 'u', 'l', 'l']
  | .flag value => flagChars value
  | .number literal => literal.toList
  | .text content => quoted content.toList
  | .list [] => ['[', ']']
  | .list (item :: rest) =>
    '[' :: indentedItems (level + 1) (item :: rest) ++ lineBreak level ++ [']']
  | .record [] => ['\x7b', '\x7d']
  | .record (member :: rest) =>
    '\x7b' :: indentedMembers (level + 1) (member :: rest) ++ lineBreak level ++ ['\x7d']

/-- The items of a list, each after a line break. -/
def indentedItems (level : Nat) : List Json → List Char
  | [] => []
  | [item] => lineBreak level ++ indentedChars level item
  | item :: rest => lineBreak level ++ indentedChars level item ++ ',' :: indentedItems level rest

/-- The members of an object, each after a line break. -/
def indentedMembers (level : Nat) : List (String × Json) → List Char
  | [] => []
  | [(name, value)] =>
    lineBreak level ++ quoted name.toList ++ ':' :: ' ' :: indentedChars level value
  | (name, value) :: rest =>
    lineBreak level ++ quoted name.toList ++ ':' :: ' ' :: indentedChars level value ++
      ',' :: indentedMembers level rest

end

/-- What an object holds under a name; null if it holds nothing. -/
def member (name : String) : Json → Json
  | .record members => ((members.find? fun member => member.1 == name).map Prod.snd).getD .null
  | _ => .null

/-- The content of a text. -/
def text? : Json → Option String
  | .text content => some content
  | _ => none

def items? : Json → Option (List Json)
  | .list items => some items
  | _ => none

/-- The compact written form. -/
def compact (document : Json) : String :=
  String.ofList document.compactChars

/-- The indented written form. -/
def indented (document : Json) : String :=
  String.ofList (document.indentedChars 0)

end Json

end Outline
