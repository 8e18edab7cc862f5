import Outline.Command
import Outline.Number.Literal
import Outline.Number.Whole

/-!
# Values of options

Each option has a value, which is read from one text. A text that cannot be read is refused with a
reason.
-/

namespace Outline.Command

/-- An option of the command line. -/
inductive OptionName where
  | depth
  | style
  | filter
  /-- The file to update from. -/
  | file
  deriving DecidableEq

def OptionName.shown : OptionName → String
  | .depth => "--depth <DEPTH>"
  | .style => "--style <STYLE>"
  | .filter => "--filter <S,S,S,W,W,W>"
  | .file => "--file <PATH>"

/-- Why a command line is refused. -/
inductive Refusal where
  /-- The value of an option cannot be read. -/
  | invalidValue (option : OptionName) (value reason : String)
  /-- The command line has another form than any that is understood. -/
  | usage
  /-- The command line asks for help. -/
  | help
  deriving DecidableEq

/-- The wording of a refusal. A value of several lines is not repeated. -/
def Refusal.message : Refusal → String
  | .invalidValue option value reason =>
    if value.toList.contains '\n' then "usage"
    else "error: invalid value '" ++ value ++ "' for '" ++ option.shown ++ "': " ++ reason
  | .usage | .help => "usage"

/-- The values of the options that were given, and the other arguments. -/
structure Given where
  depth : Option Depth := none
  adjacency : Option Adjacency := none
  windows : Option (Window × Window) := none
  file : Option String := none
  /-- The arguments that belong to no option. -/
  texts : List String := []

/-- The depth that a text stands for. -/
def readDepth (value : String) : Except String Depth :=
  match Number.readWhole value.toList with
  | .error fault => .error fault.message
  | .ok n =>
    if Int32.minValue.toInt ≤ n ∧ n ≤ Int32.maxValue.toInt then .ok (Int32.ofInt n)
    else .error (toString n ++ " is not in -2147483648..=2147483647")

/-- The relation that a text names. -/
def readAdjacency (value : String) : Except String Adjacency :=
  match Adjacency.ofName? value with
  | some adjacency => .ok adjacency
  | none => .error (NoteError.unknownStyle value).message

/-- The numbers that a text stands for, which commas separate. -/
def readNumbers (value : String) : Except String (List Single) :=
  (value.splitOn ",").mapM fun part =>
    (Single.readLiteral (Text.trim part.toList)).mapError Single.LiteralFault.message

/-- The windows that a text stands for. -/
def readWindows (value : String) : Except String (Window × Window) := do
  match ← readNumbers value with
  | [a, b, c, d, e, f] =>
    let sharability ← (Window.ofBounds .sharability a b c).mapError WindowFault.message
    let weight ← (Window.ofBounds .weight d e f).mapError WindowFault.message
    return (sharability, weight)
  | _ => throw "expected six comma-separated numbers"

namespace Given

/-- Whether an option was given. -/
def has (given : Given) : OptionName → Bool
  | .depth => given.depth.isSome
  | .style => given.adjacency.isSome
  | .filter => given.windows.isSome
  | .file => given.file.isSome

/-- Adds the value of an option, which may not be given twice. -/
def add (given : Given) (option : OptionName) (value : String) : Except Refusal Given :=
  if given.has option then .error .usage
  else
    let refuse (reason : String) : Refusal := .invalidValue option value reason
    match option with
    | .depth => ((readDepth value).mapError refuse).map fun x => { given with depth := some x }
    | .style =>
      ((readAdjacency value).mapError refuse).map fun x => { given with adjacency := some x }
    | .filter =>
      ((readWindows value).mapError refuse).map fun x => { given with windows := some x }
    | .file => if value = "" then .error .usage else .ok { given with file := some value }

/-- The options, where those given after the command win over those before it. -/
def options (before after : Given) : Options where
  depth := (after.depth <|> before.depth).getD 1
  adjacency := (after.adjacency <|> before.adjacency).getD .forward
  windows := after.windows <|> before.windows

end Given

end Outline.Command
