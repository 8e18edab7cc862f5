import Outline.Text.LetterCase
import Outline.Text.Occurrence

/-!
# Faults of search expressions

A text that is no search expression has a first fault. Most faults count as an invalid query; which
ones do is read off the wording (`ExpressionFault.isInvalidQuery`).
-/

namespace Outline.Search

/-- What is wrong with a search expression. -/
inductive ExpressionFault where
  /-- A quoted text does not end. -/
  | unterminated
  /-- A lexeme stands where it cannot. -/
  | unexpected (written : List Char)
  | noColumn (name : List Char)
  /-- A distance is not written in digits. -/
  | notADistance (written : List Char)
  /-- Too many parts of the expression are unfinished at once. -/
  | tooDeep
  /-- The tree of the expression is too high. -/
  | tooHigh
  /-- A question to the index itself that it cannot answer. -/
  | unknownQuestion (name : List Char)
  /-- The answer to such a question names no atom. -/
  | noAtom
  deriving DecidableEq

namespace ExpressionFault

/-- How many parts of an expression may be unfinished at once. -/
def depthLimit : Nat := 99

/-- How high the tree of an expression may be. -/
def heightLimit : Nat := 256

def message : ExpressionFault → String
  | unterminated => "unterminated string"
  | unexpected written => "fts5: syntax error near \"" ++ String.ofList written ++ "\""
  | noColumn name => "no such column: " ++ String.ofList name
  | notADistance written => "expected integer, got \"" ++ String.ofList written ++ "\""
  | tooDeep => "fts5: parser stack overflow"
  | tooHigh => "fts5 expression tree is too large (maximum depth " ++ toString heightLimit ++ ")"
  | unknownQuestion name => "unknown special query: " ++ String.ofList name
  | noAtom => "Invalid column type Null at index: 0, name: atom_id"

/-- Whether a fault counts as an invalid query: its wording speaks of syntax or of a text without
end, or is quoted in words that do. -/
def isInvalidQuery (fault : ExpressionFault) : Bool :=
  let message := Text.lowerCase fault.message.toList
  let mentions (words : String) := Text.occurs words.toList message
  fault != .noAtom &&
    ((mentions "fts5" && mentions "syntax") || mentions "malformed match expression" ||
      mentions "unterminated")

end ExpressionFault

end Outline.Search
