import Outline.Search.Expression.Reader
import Outline.Search.Relevance
import Outline.Text.Blank

/-!
# Search requests

A request holds a text and how many atoms are wanted at most. The text is either an expression or
plain words; plain words are quoted, so that none of them joins or groups anything, and all of them
must occur.
-/

namespace Outline

/-- A request for atoms by the text of their entries. -/
structure SearchRequest where
  text : String
  limit : Nat := 50
  /-- Whether the text is an expression and not plain words. -/
  isExpression : Bool := false

/-- Why a search fails. -/
inductive SearchError where
  /-- The expression cannot be read; the query is at fault. -/
  | invalidQuery (expression : String) (fault : Search.ExpressionFault)
  /-- The expression asks for something that does not exist. -/
  | refused (fault : Search.ExpressionFault)
  | database (cause : DatabaseError)
  /-- An entry belongs to an atom with a blank identifier. -/
  | blankAtom
  deriving DecidableEq

def SearchError.message : SearchError → String
  | .invalidQuery expression fault =>
    "invalid full-text query `" ++ expression ++ "`: " ++ fault.message
  | .refused fault => fault.message
  | .database cause => cause.message
  | .blankAtom => "invalid search row: blank atom id"

namespace SearchRequest

/-- The expression that asks for all of some words. -/
def allOf : List (List Char) → List Char
  | [] => []
  | [word] => Search.quoted word
  | word :: words => Search.quoted word ++ [' ', 'A', 'N', 'D', ' '] ++ allOf words

/-- The expression to search for; `none` if the text is blank. -/
def expression? (request : SearchRequest) : Option (List Char) :=
  match Text.trim request.text.toList with
  | [] => none
  | text => some (if request.isExpression then text else allOf (Text.words text))

/-- Accepts an atom with an identifier that is not blank. -/
def accept (id : AtomId) : Except SearchError AtomId :=
  if Text.isBlankText id then .error .blankAtom else .ok id

/-- The atoms that the request is for, the best first. -/
def hits (request : SearchRequest) (store : Store)
    (scoring : Search.Scoring := Search.byRarity) : Except SearchError (List AtomId) :=
  match request.expression? with
  | none => .ok []
  | some written =>
    if request.limit = 0 then .ok []
    else
      match store.index with
      | none => .error (.database .noIndex)
      | some rows =>
        match Search.Expression.read written with
        | .ok expression =>
          ((Search.relevantAtoms rows expression scoring).take request.limit).mapM accept
        | .error fault =>
          if fault.isInvalidQuery then .error (.invalidQuery (String.ofList written) fault)
          else .error (.refused fault)

end SearchRequest

end Outline
