import Outline.Store.Atoms
import Outline.Text.Blank
import Outline.Text.Bytes
import Outline.Text.LetterCase
import Outline.Text.Occurrence

/-!
# Property queries

A query is a row of terms `field="text"`, between which the word `and` may stand. An atom answers a
query if each text occurs in the property that the field names, in letters of either case. A query
without terms has no answer.
-/

namespace Outline

/-- A property that a query can look into. -/
inductive QueryField where
  | value
  | byname
  | shortcut
  deriving DecidableEq

namespace QueryField

def all : List QueryField :=
  [value, byname, shortcut]

def name : QueryField → String
  | value => "value"
  | byname => "alias"
  | shortcut => "shortcut"

/-- The field with the given name, in letters of either case. -/
def ofName? (name : List Char) : Option QueryField :=
  all.find? fun field => field.name.toList == Text.asciiLowerCase name

/-- The property of an atom that a field names. -/
def read (field : QueryField) (atom : Atom) : Option String :=
  match field with
  | value => atom.value
  | byname => atom.byname
  | shortcut => atom.shortcut

end QueryField

/-- One condition of a query. -/
structure QueryTerm where
  field : QueryField
  /-- The text to look for, in lower case. -/
  needle : List Char
  deriving DecidableEq

/-- Whether an atom meets a condition. -/
def QueryTerm.holds (term : QueryTerm) (atom : Atom) : Bool :=
  (term.field.read atom).any fun text => Text.occurs term.needle (Text.lowerCase text.toList)

/-- Why a property query fails. -/
inductive QueryError where
  /-- No term begins at the given byte. -/
  | misshapen (query : String) (position : Nat)
  | unknownField (name : String)
  | store (cause : StoreError)
  deriving DecidableEq

def QueryError.message : QueryError → String
  | .misshapen query position =>
    "invalid query `" ++ query ++ "` at byte " ++ toString position
  | .unknownField name => "unknown query field: " ++ name
  | .store cause => cause.message

namespace PropertyQuery

/-- Whether a character may stand in the name of a field. -/
def isNameChar (c : Char) : Bool :=
  c.isAlpha || c == '_'

/-- A term as it is written, with the characters after it. -/
structure WrittenTerm where
  name : List Char
  text : List Char
  rest : List Char

/-- Reads the equals sign and the text between quotes that follow the name of a field. -/
def afterName? (name s : List Char) : Option WrittenTerm :=
  match Text.trimStart s with
  | '=' :: s =>
    match Text.trimStart s with
    | '"' :: s =>
      match s.dropWhile (· != '"') with
      | _ :: rest => some { name, text := s.takeWhile (· != '"'), rest }
      | [] => none
    | _ => none
  | _ => none

/-- Reads the term that some characters begin with. -/
def writtenTerm? (s : List Char) : Option WrittenTerm :=
  match s.takeWhile isNameChar with
  | [] => none
  | name => afterName? name (s.dropWhile isNameChar)

/-- The characters after the word `and`, if it stands next and a blank after it. -/
def skipJoiner (s : List Char) : List Char :=
  match s with
  | a :: n :: d :: c :: rest =>
    if Text.asciiLowerCase [a, n, d] = ['a', 'n', 'd'] ∧ Text.isBlank c then Text.trimStart rest
    else s
  | s => s

/-- Fewer characters are left after a run of some kind than before it. -/
theorem length_dropWhile_le (kind : Char → Bool) (s : List Char) :
    (s.dropWhile kind).length ≤ s.length :=
  (List.dropWhile_suffix kind).length_le

/-- What follows the joiner is no longer than what began with it. -/
theorem length_skipJoiner_le (s : List Char) : (skipJoiner s).length ≤ s.length := by
  unfold skipJoiner
  split
  · split
    · have := length_dropWhile_le Text.isBlank ‹List Char›
      simp only [Text.trimStart, List.length_cons]
      omega
    · exact Nat.le_refl _
  · exact Nat.le_refl _

/-- What follows a name and its text is shorter than what followed the name. -/
theorem length_rest_lt_of_afterName? {name s : List Char} {term : WrittenTerm}
    (h : afterName? name s = some term) : term.rest.length < s.length := by
  unfold afterName? at h
  split at h
  · rename_i afterEquals equals
    split at h
    · rename_i afterQuote quote
      split at h
      · rename_i close rest found
        cases h
        have first := length_dropWhile_le Text.isBlank s
        have second := length_dropWhile_le Text.isBlank afterEquals
        have third := length_dropWhile_le (· != '"') afterQuote
        rw [← Text.trimStart, equals] at first
        rw [← Text.trimStart, quote] at second
        rw [found] at third
        simp only [List.length_cons] at first second third ⊢
        omega
      · cases h
    · cases h
  · cases h

/-- What follows a term is shorter than what began with it. -/
theorem length_rest_lt_of_writtenTerm? {s : List Char} {term : WrittenTerm}
    (h : writtenTerm? s = some term) : term.rest.length < s.length := by
  unfold writtenTerm? at h
  split at h
  · cases h
  · have := length_rest_lt_of_afterName? h
    have := length_dropWhile_le isNameChar s
    omega

/-- Reads the terms of a query from the given characters on, which do not begin with a blank. -/
def termsFrom (query : String) (isFirst : Bool) (s : List Char) :
    Except QueryError (List QueryTerm) :=
  if s.isEmpty then .ok []
  else
    let start := if isFirst then s else skipJoiner s
    match _ : writtenTerm? start with
    | none => .error (.misshapen query (query.utf8ByteSize - Text.byteCount start))
    | some term =>
      match QueryField.ofName? term.name with
      | none => .error (.unknownField (String.ofList term.name))
      | some field => do
        let terms ← termsFrom query false (Text.trimStart term.rest)
        return { field, needle := Text.lowerCase term.text } :: terms
termination_by s.length
decreasing_by
  have shorter := length_rest_lt_of_writtenTerm? ‹_›
  have trimmed := length_dropWhile_le Text.isBlank term.rest
  have joined := length_skipJoiner_le s
  have : start.length ≤ s.length := by
    simp only [start]
    split
    · exact Nat.le_refl _
    · exact joined
  simp only [Text.trimStart]
  omega

/-- The terms of a query. -/
def terms (query : String) : Except QueryError (List QueryTerm) :=
  termsFrom query true (Text.trimStart query.toList)

/-- The atoms that answer a query, by age. -/
def candidates (query : String) (store : Store) : Except QueryError (List AtomId) := do
  match ← terms query with
  | [] => return []
  | terms =>
    match store.listAtoms with
    | .ok atoms => return (atoms.filter fun atom => terms.all (·.holds atom)).map Atom.id
    | .error cause => throw (.store cause)

end PropertyQuery

end Outline
