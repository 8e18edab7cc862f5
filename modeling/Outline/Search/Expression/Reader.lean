import Outline.Number.Decimal
import Outline.Search.Expression

/-!
# Reading search expressions

`NOT` binds tighter than `AND`, and `AND` tighter than `OR`; each groups to the left. Groups that
follow each other without a joiner belong together as if joined by `AND`. Readers look at the next
lexeme before they judge what they have read, so that the first fault from the left is reported;
`held` counts the parts of the expression that are unfinished at that point.
-/

namespace Outline.Search.Expression

open Lexeme (opening closing setOpening setClosing colon comma plus star minus caret text finish)

/-- The next lexeme, which must not be broken. -/
def peek : List Lexeme → Except ExpressionFault Lexeme
  | [] => .ok finish
  | .broken fault :: _ => .error fault
  | lexeme :: _ => .ok lexeme

/-- Refuses to hold too many unfinished parts. -/
def hold (held : Nat) : Except ExpressionFault Unit :=
  if held ≤ ExpressionFault.depthLimit then .ok () else .error .tooDeep

/-- Takes a lexeme that must stand next, as the part numbered `held`. -/
def take (wanted : Lexeme) (held : Nat) (s : List Lexeme) :
    Except ExpressionFault (List Lexeme) := do
  let next ← peek s
  if next = wanted then
    hold held
    return s.tail
  else throw (.unexpected next.written)

/-- Takes a word or quoted text that must stand next. -/
def takeText (held : Nat) (s : List Lexeme) :
    Except ExpressionFault (List Char × List Lexeme) := do
  match ← peek s with
  | text written =>
    hold held
    return (written, s.tail)
  | other => throw (.unexpected other.written)

/-- Takes the star that may stand after a word. -/
def takeStar (held : Nat) (s : List Lexeme) : Except ExpressionFault (Bool × List Lexeme) := do
  let next ← peek s
  hold held
  return if next = star then (true, s.tail) else (false, s)

/-- Reads more texts of a phrase, each after a plus; `limit` bounds their number. -/
def readMoreTexts : (limit : Nat) → (held : Nat) → Phrase → List Lexeme →
    Except ExpressionFault (Phrase × List Lexeme)
  | 0, _, _, _ => .error .tooDeep
  | limit + 1, held, phrase, s => do
    if (← peek s) = plus then
      let s ← take plus (held + 2) s
      let (written, s) ← takeText (held + 3) s
      let (isStem, s) ← takeStar (held + 4) s
      readMoreTexts limit held (phrase.append (unquoted written) isStem) s
    else return (phrase, s)

/-- Reads the phrase whose first text has been read. -/
def readPhraseAfter (limit held : Nat) (written : List Char) (s : List Lexeme) :
    Except ExpressionFault (Phrase × List Lexeme) := do
  let (isStem, s) ← takeStar (held + 2) s
  readMoreTexts limit held (Phrase.append {} (unquoted written) isStem) s

def readPhrase (limit held : Nat) (s : List Lexeme) :
    Except ExpressionFault (Phrase × List Lexeme) := do
  let (written, s) ← takeText (held + 1) s
  readPhraseAfter limit held written s

/-- Reads the phrases that follow the first one inside parentheses. -/
def readMorePhrases : (limit : Nat) → (held : Nat) → List Lexeme →
    Except ExpressionFault (List Phrase × List Lexeme)
  | 0, _, _ => .error .tooDeep
  | limit + 1, held, s => do
    match ← peek s with
    | text _ =>
      let (phrase, s) ← readPhrase limit held s
      let (phrases, s) ← readMorePhrases limit held s
      return (phrase :: phrases, s)
    | _ => return ([], s)

/-- The number that a distance is written as; too large ones go round the 32 bits of a number with
a sign. -/
def distanceOf (written : List Char) : Except ExpressionFault Int :=
  if written.all Char.isDigit then .ok (Int.bmod (Number.digitsValue written) UInt32.size)
  else .error (.notADistance written)

/-- Reads phrases that must be near each other, from the parenthesis after the word `NEAR`. -/
def readNear (limit held : Nat) (word : List Char) (s : List Lexeme) :
    Except ExpressionFault (Expression × List Lexeme) := do
  let s ← take opening (held + 2) s
  let (first, s) ← readPhrase limit (held + 2) s
  let (others, s) ← readMorePhrases limit (held + 3) s
  hold (held + 4)
  let (written?, s) ←
    if (← peek s) = comma then
      let s ← take comma (held + 4) s
      let (written, s) ← takeText (held + 5) s
      pure (some written, s)
    else pure (none, s)
  let s ← take closing (held + 5) s
  let _ ← peek s
  unless word = ['N', 'E', 'A', 'R'] do throw (.unexpected word)
  let distance ← written?.elim (pure 10) distanceOf
  return (ofPhrases (first :: others) distance, s)

/-- Reads a group whose first text has been read. -/
def readGroupAfter (limit held : Nat) (written : List Char) (s : List Lexeme) :
    Except ExpressionFault (Expression × List Lexeme) := do
  if (← peek s) = opening then readNear limit held written s
  else
    let (phrase, s) ← readPhraseAfter limit held written s
    return (ofPhrases [phrase] 10, s)

/-- Reads a group of phrases. -/
def readGroup (limit held : Nat) (s : List Lexeme) :
    Except ExpressionFault (Expression × List Lexeme) := do
  if (← peek s) = caret then
    let s ← take caret (held + 1) s
    let (phrase, s) ← readPhrase limit (held + 1) s
    return (ofPhrases [{ phrase with isInitial := true }] 10, s)
  else
    let (written, s) ← takeText (held + 1) s
    readGroupAfter limit held written s

/-- The column that a text names. The lexeme after the text is looked at first. -/
def columnOf (written : List Char) (s : List Lexeme) : Except ExpressionFault IndexColumn := do
  let _ ← peek s
  match IndexColumn.ofName? (unquoted written) with
  | some column => return column
  | none => throw (.noColumn (unquoted written))

/-- Reads the columns of a set up to and with its closing brace. -/
def readColumns : (limit : Nat) → (held : Nat) → List Lexeme →
    Except ExpressionFault (List IndexColumn × List Lexeme)
  | 0, _, _ => .error .tooDeep
  | limit + 1, held, s => do
    let (written, s) ← takeText held s
    let column ← columnOf written s
    match ← peek s with
    | text _ =>
      let (columns, s) ← readColumns limit (held + 1) s
      return (column :: columns, s)
    | _ =>
      let s ← take setClosing (held + 1) s
      return ([column], s)

/-- Reads one column or a set of columns. -/
def readColumnSet (limit held : Nat) (s : List Lexeme) :
    Except ExpressionFault (List IndexColumn × List Lexeme) := do
  match ← peek s with
  | setOpening =>
    let s ← take setOpening held s
    readColumns limit (held + 1) s
  | _ =>
    let (written, s) ← takeText held s
    let column ← columnOf written s
    return ([column], s)

/-- What an operand begins with. -/
inductive Beginning where
  /-- The columns that the operand is limited to, with their colon. -/
  | columns (columns : List IndexColumn)
  /-- The first text of a group. -/
  | word (written : List Char)
  /-- Neither of these. -/
  | other

/-- Reads the beginning of an operand. -/
def readBeginning (limit held : Nat) (s : List Lexeme) :
    Except ExpressionFault (Beginning × List Lexeme) := do
  match ← peek s with
  | minus =>
    let s ← take minus (held + 1) s
    let (columns, s) ← readColumnSet limit (held + 2) s
    let _ ← peek s
    let s ← take colon (held + 2) s
    return (.columns (IndexColumn.all.filter fun column => !columns.contains column), s)
  | setOpening =>
    let (columns, s) ← readColumnSet limit (held + 1) s
    let _ ← peek s
    let s ← take colon (held + 2) s
    return (.columns columns, s)
  | text _ =>
    let (written, s) ← takeText (held + 1) s
    if (← peek s) = colon then
      let column ← columnOf written s
      let s ← take colon (held + 2) s
      return (.columns [column], s)
    else return (.word written, s)
  | _ => return (.other, s)

/-- Reads a group that may be limited to some columns. -/
def readLimitedGroup (limit held : Nat) (s : List Lexeme) :
    Except ExpressionFault (Expression × List Lexeme) := do
  match ← readBeginning limit held s with
  | (.columns columns, s) =>
    let (first, s) ← readGroup limit (held + 2) s
    return (first.restrict columns, s)
  | (.word written, s) => readGroupAfter limit held written s
  | (.other, s) => readGroup limit held s

/-- Reads the groups that follow a group without a joiner. -/
def readMoreGroups : (limit : Nat) → (held : Nat) → Expression → List Lexeme →
    Except ExpressionFault (Expression × List Lexeme)
  | 0, _, _, _ => .error .tooDeep
  | limit + 1, held, left, s => do
    match ← peek s with
    | minus | setOpening | caret | text _ =>
      let (right, s) ← readLimitedGroup limit (held + 1) s
      readMoreGroups limit held (left.beside right) s
    | _ => return (left, s)

/-- The two expressions with a joiner between them. -/
def join (joiner : Joiner) (left right : Expression) : Except ExpressionFault Expression :=
  let whole := joined joiner left right
  if whole.height ≤ ExpressionFault.heightLimit then .ok whole else .error .tooHigh

mutual

/-- Reads an expression with the given joiners, which are in order from loose to tight. -/
def readJoined : (limit : Nat) → (joiners : List Joiner) → (held : Nat) → List Lexeme →
    Except ExpressionFault (Expression × List Lexeme)
  | 0, _, _, _ => .error .tooDeep
  | limit + 1, [], held, s => readOperand limit held s
  | limit + 1, joiner :: tighter, held, s => do
    let (left, s) ← readJoined limit tighter held s
    readRest limit joiner tighter held left s

/-- Reads what a joiner joins to an expression. -/
def readRest : (limit : Nat) → (joiner : Joiner) → (tighter : List Joiner) → (held : Nat) →
    Expression → List Lexeme → Except ExpressionFault (Expression × List Lexeme)
  | 0, _, _, _, _, _ => .error .tooDeep
  | limit + 1, joiner, tighter, held, left, s => do
    if (← peek s) = .joiner joiner then
      let s ← take (.joiner joiner) (held + 2) s
      let (right, s) ← readJoined limit tighter (held + 2) s
      readRest limit joiner tighter held (← join joiner left right) s
    else return (left, s)

/-- Reads an expression in parentheses, which may be limited to some columns, or groups. -/
def readOperand : (limit : Nat) → (held : Nat) → List Lexeme →
    Except ExpressionFault (Expression × List Lexeme)
  | 0, _, _ => .error .tooDeep
  | limit + 1, held, s => do
    if (← peek s) = opening then
      let s ← take opening (held + 1) s
      let (inner, s) ← readJoined limit [.or, .and, .not] (held + 1) s
      let s ← take closing (held + 3) s
      let _ ← peek s
      return (inner, s)
    else
      match ← readBeginning limit held s with
      | (.columns columns, s) =>
        if (← peek s) = opening then
          let s ← take opening (held + 3) s
          let (inner, s) ← readJoined limit [.or, .and, .not] (held + 3) s
          let s ← take closing (held + 5) s
          let _ ← peek s
          return (inner.restrict columns, s)
        else
          let (first, s) ← readGroup limit (held + 2) s
          readMoreGroups limit held (first.restrict columns) s
      | (.word written, s) =>
        let (first, s) ← readGroupAfter limit held written s
        readMoreGroups limit held first s
      | (.other, s) =>
        let (first, s) ← readGroup limit held s
        readMoreGroups limit held first s

end

/-- Asks a question to the index itself. The only one with an answer is for its identifier, which
is no row of an atom. -/
def questionFault (question : List Char) : ExpressionFault :=
  let name := (question.dropWhile (· == ' ')).takeWhile fun c => c != ' ' && c != '\x00'
  if name.map Char.toLower = ['i', 'd'] then .noAtom else .unknownQuestion name

/-- Reads a whole expression. A text that begins with a star is a question to the index instead. -/
def read (s : List Char) : Except ExpressionFault Expression := do
  match s with
  | '*' :: question => throw (questionFault question)
  | s =>
    let lexemes := lexemes s
    let (expression, rest) ← readJoined (6 * lexemes.length + 6) [.or, .and, .not] 0 lexemes
    match ← peek rest with
    | finish => return expression
    | other => throw (.unexpected other.written)

end Outline.Search.Expression
