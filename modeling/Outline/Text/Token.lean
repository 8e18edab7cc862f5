import Outline.Text.Token.Table

/-!
# Word tokens

The tokens of a text are its maximal runs of letters and digits, folded to lower case and without
the common Latin diacritics. Combining marks continue a token that has begun but begin none.
-/

namespace Outline.Text

/-- A folded word. -/
abbrev Token := List Char

namespace Token

/-- Whether a character is one of the marks that continue a token. -/
def isMark (c : Char) : Bool :=
  markCodes.contains c.toNat

/-- Whether a character is a letter or digit, so that a token can begin with it. -/
def isWordChar (c : Char) : Bool :=
  if c.toNat < 0x80 then c.isAlphanum else !separatorRanges.contains c && !isMark c

/-- What a character of a token contributes to it. -/
def fold (c : Char) : Token :=
  if c.toNat < 0x80 then [c.toLower]
  else if isMark c then []
  else match plainRuns.find? fun run => run.1 ≤ c.toNat && c.toNat ≤ run.2.1 with
    | some run => [Char.ofNat run.2.2]
    | none => [shifted foldRuns c]

/-- Whether a character continues a token that has begun. -/
def continues (c : Char) : Bool :=
  isWordChar c || isMark c

end Token

/-- The tokens of a text, in order. They are kept whole, however long they are; the index keeps no
more than the first 32768 bytes of one. -/
def tokens (s : List Char) : List Token :=
  match s with
  | [] => []
  | c :: rest =>
    if Token.isWordChar c then
      (c :: rest.takeWhile Token.continues).flatMap Token.fold ::
        tokens (rest.dropWhile Token.continues)
    else tokens rest
termination_by s.length
decreasing_by
  · have := (List.dropWhile_suffix (l := rest) Token.continues).length_le
    simp only [List.length_cons]
    omega
  · simp

end Outline.Text
