import Outline.Text.LetterCase.Table

/-!
# Lower-casing

The full lower-case mapping of Unicode. Two capital letters need more than a table look-up: dotted
capital I becomes two characters, and a capital sigma becomes the final form at the end of a word.
Lower-casing a text is therefore not the same as lower-casing its parts.
-/

namespace Outline.Text

namespace LetterCase

/-- Whether the nearest character that is not passed over has letter case. -/
def nearestIsCased : List Char → Bool
  | [] => false
  | c :: rest =>
    if ignorableRanges.contains c then nearestIsCased rest else casedRanges.contains c

/-- Lower-cases one character, given what stands before it (nearest first) and after it. -/
def lowerChar (before : List Char) (c : Char) (after : List Char) : List Char :=
  if c.toNat < 0x80 then [c.toLower]
  else if c = 'Σ' then
    if nearestIsCased before && !nearestIsCased after then ['ς'] else ['σ']
  else if c = 'İ' then ['i', '\u0307']
  else [shifted lowerRuns c]

/-- Lower-cases the characters that follow `before`, which is given nearest first. -/
def lowerFrom (before : List Char) : List Char → List Char
  | [] => []
  | c :: rest => lowerChar before c rest ++ lowerFrom (c :: before) rest

end LetterCase

/-- The lower-case form of a text. -/
def lowerCase (s : List Char) : List Char :=
  LetterCase.lowerFrom [] s

/-- Lower-cases the ASCII letters of a text and nothing else. -/
def asciiLowerCase (s : List Char) : List Char :=
  s.map Char.toLower

end Outline.Text
