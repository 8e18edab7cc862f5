import Outline.Search.Fault

/-!
# Lexemes of search expressions

A search expression is a run of marks, bare words and quoted texts. The words `AND`, `OR` and `NOT`
join expressions unless they are quoted. The lexemes of a text end with its end or with the first
place that begins no lexeme.
-/

namespace Outline.Search

/-- The words that join expressions. -/
inductive Joiner where
  | or
  | and
  | not
  deriving DecidableEq

def Joiner.word : Joiner → List Char
  | or => ['O', 'R']
  | and => ['A', 'N', 'D']
  | not => ['N', 'O', 'T']

/-- A part of a search expression. -/
inductive Lexeme where
  | opening
  | closing
  | setOpening
  | setClosing
  | colon
  | comma
  | plus
  | star
  | minus
  | caret
  | joiner (joiner : Joiner)
  /-- A bare word or a quoted text, as it is written. -/
  | text (written : List Char)
  /-- The end of the expression. -/
  | finish
  /-- A place where no lexeme begins. -/
  | broken (fault : ExpressionFault)
  deriving DecidableEq

namespace Lexeme

/-- The lexeme that a character is by itself. -/
def ofMark? : Char → Option Lexeme
  | '(' => some opening
  | ')' => some closing
  | '\x7b' => some setOpening
  | '\x7d' => some setClosing
  | ':' => some colon
  | ',' => some comma
  | '+' => some plus
  | '*' => some star
  | '-' => some minus
  | '^' => some caret
  | _ => none

/-- The characters of a lexeme. -/
def written : Lexeme → List Char
  | opening => ['(']
  | closing => [')']
  | setOpening => ['\x7b']
  | setClosing => ['\x7d']
  | colon => [':']
  | comma => [',']
  | plus => ['+']
  | star => ['*']
  | minus => ['-']
  | caret => ['^']
  | joiner word => word.word
  | text written => written
  | finish | broken _ => []

/-- The lexeme of a bare word. -/
def ofWord (word : List Char) : Lexeme :=
  match [Joiner.or, Joiner.and, Joiner.not].find? fun joiner => joiner.word == word with
  | some word => joiner word
  | none => text word

end Lexeme

/-- Whether a character may stand between lexemes. -/
def isGap (c : Char) : Bool :=
  c == ' ' || c == '\t' || c == '\n' || c == '\r'

/-- Whether a character may stand in a bare word. -/
def isBare (c : Char) : Bool :=
  c.isAlphanum || c == '_' || c == '\x1a' || 0x80 ≤ c.toNat

/-- The rest of a quoted text up to and with its closing quote, and what follows it. A quote inside
the text is written twice. -/
def spanQuoted : List Char → Option (List Char × List Char)
  | [] => none
  | '"' :: '"' :: s => (spanQuoted s).map fun (body, rest) => ('"' :: '"' :: body, rest)
  | c :: s =>
    if c = '"' then some ([c], s)
    else (spanQuoted s).map fun (body, rest) => (c :: body, rest)

/-- The characters after a quoted text are fewer than those from its beginning. -/
theorem length_lt_of_spanQuoted {s body rest : List Char}
    (h : spanQuoted s = some (body, rest)) : rest.length < s.length := by
  fun_induction spanQuoted s generalizing body with
  | case1 => simp at h
  | case2 s ih =>
    obtain ⟨⟨body, rest⟩, found, same⟩ := Option.map_eq_some_iff.1 h
    cases same
    have := ih found
    simp only [List.length_cons]
    omega
  | case3 s => simp_all
  | case4 c s _ _ ih =>
    obtain ⟨⟨body, rest⟩, found, same⟩ := Option.map_eq_some_iff.1 h
    cases same
    have := ih found
    simp only [List.length_cons]
    omega

/-- The lexemes of some characters. -/
def lexemesOf (s : List Char) : List Lexeme :=
  match s with
  | [] => [.finish]
  | c :: rest =>
    if isGap c then lexemesOf rest
    else if c = '"' then
      match _ : spanQuoted rest with
      | some (body, rest) => .text (c :: body) :: lexemesOf rest
      | none => [.broken .unterminated]
    else if isBare c then
      .ofWord (c :: rest.takeWhile isBare) :: lexemesOf (rest.dropWhile isBare)
    else
      match Lexeme.ofMark? c with
      | some mark => mark :: lexemesOf rest
      | none => [.broken (.unexpected [c])]
termination_by s.length
decreasing_by
  · simp
  · have := length_lt_of_spanQuoted ‹_›
    simp only [List.length_cons]
    omega
  · have := (List.dropWhile_suffix (l := rest) isBare).length_le
    simp only [List.length_cons]
    omega
  · simp

/-- The lexemes of an expression, which ends before the first null character. -/
def lexemes (expression : List Char) : List Lexeme :=
  lexemesOf (expression.takeWhile (· != '\x00'))

/-- The characters inside quotes, with a doubled quote for each single one. -/
def doubled : List Char → List Char
  | [] => []
  | c :: s => if c = '"' then '"' :: '"' :: doubled s else c :: doubled s

/-- The text between quotes whose opening one has been read. -/
def undoubled : List Char → List Char
  | [] => []
  | '"' :: '"' :: s => '"' :: undoubled s
  | c :: s => if c = '"' then [] else c :: undoubled s

/-- The text that a bare word or a quoted text stands for. -/
def unquoted : List Char → List Char
  | [] => []
  | c :: s => if c = '"' then undoubled s else c :: s

/-- A quoted text that stands for the given one. -/
def quoted (s : List Char) : List Char :=
  '"' :: doubled s ++ ['"']

end Outline.Search
