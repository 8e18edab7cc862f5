import Outline.Command.Value

/-!
# Command lines

A command line holds the path of the database, the name of a command and its arguments. Options may
stand before and after the name. What an argument says is only judged when the next one is met, or
at the end, so that an argument out of place is refused before a value that cannot be read.
-/

namespace Outline.Command

/-- The names of commands. -/
inductive CommandName where
  | create
  | view
  | update
  | search
  | query
  | roots
  | reindex
  deriving DecidableEq

namespace CommandName

def all : List CommandName :=
  [create, view, update, search, query, roots, reindex]

def word : CommandName → String
  | create => "create"
  | view => "view"
  | update => "update"
  | search => "search"
  | query => "query"
  | roots => "roots"
  | reindex => "reindex"

/-- How many texts a command takes. -/
def capacity : CommandName → Nat
  | roots | reindex => 0
  | _ => 1

/-- The command with its texts and file. -/
def build (name : CommandName) (given : Given) : Except Refusal Command :=
  match name, given.texts with
  | create, texts => .ok (.create texts.head?)
  | view, [id] => .ok (.view id)
  | update, [id] => .ok (.update id given.file)
  | search, [text] => .ok (.search text)
  | query, [text] => .ok (.query text)
  | roots, _ => .ok .roots
  | reindex, _ => .ok .reindex
  | _, _ => .error .usage

end CommandName

/-- An argument that has been met but not judged. -/
inductive Pending where
  | text (text : String)
  /-- An option with its value, if that has been met. -/
  | option (option : OptionName) (value : Option String)

/-- What has been read of the arguments before or after the name of the command. -/
structure Reading where
  given : Given := {}
  pending : Option Pending := none
  /-- How many texts have been met. -/
  texts : Nat := 0
  /-- Whether two dashes have been met, after which there are only texts. -/
  textsOnly : Bool := false

namespace Reading

/-- Judges the pending argument. The path of the database, which is the only text before the name of
the command, is not empty. -/
def settle (reading : Reading) (name : Option CommandName) : Except Refusal Reading :=
  match reading.pending with
  | none => .ok reading
  | some (.text text) =>
    if name.isNone ∧ text = "" then .error .usage
    else
      let given := { reading.given with texts := reading.given.texts ++ [text] }
      .ok { reading with given, pending := none }
  | some (.option option (some value)) => do
    return { reading with given := ← reading.given.add option value, pending := none }
  | some (.option _ none) => .error .usage

/-- Meets a text, which must have a place. -/
def meetText (reading : Reading) (name : Option CommandName) (text : String) :
    Except Refusal Reading := do
  if reading.texts < (name.elim 1 CommandName.capacity) then
    let reading ← reading.settle name
    return { reading with pending := some (.text text), texts := reading.texts + 1 }
  else throw .usage

/-- The option with the given name. Only an update takes a file. -/
def optionOf? (name : Option CommandName) (word : List Char) : Option OptionName :=
  match String.ofList word with
  | "depth" | "height" => some .depth
  | "style" => some .style
  | "filter" => some .filter
  | "file" => if name = some .update then some .file else none
  | _ => none

/-- Meets an option, given without its dashes; its value may stand after an equals sign. -/
def meetOption (reading : Reading) (name : Option CommandName) (text : List Char) :
    Except Refusal Reading := do
  let word := text.takeWhile (· != '=')
  match optionOf? name word, text.dropWhile (· != '=') with
  | some option, _ :: value => do
    let reading ← reading.settle name
    return { reading with given := ← reading.given.add option (String.ofList value) }
  | some option, [] => do
    let reading ← reading.settle name
    return { reading with pending := some (.option option none) }
  | none, [] =>
    if word = "help".toList ∨ (name.isNone ∧ word = "version".toList) then
      let _ ← reading.settle name
      throw .help
    else throw .usage
  | none, _ => throw .usage

/-- Meets an argument that begins with one dash. -/
def meetDash (reading : Reading) (name : Option CommandName) (c : Char) :
    Except Refusal Reading := do
  if c = 'h' ∨ (name.isNone ∧ c = 'V') then
    let _ ← reading.settle name
    throw .help
  else throw .usage

/-- The option whose value is awaited. -/
def awaiting? (reading : Reading) : Option OptionName :=
  match reading.pending with
  | some (.option option none) => some option
  | _ => none

/-- Meets one argument. -/
def meet (reading : Reading) (name : Option CommandName) (argument : String) :
    Except Refusal Reading :=
  if reading.textsOnly then reading.meetText name argument
  else
    match argument.toList with
    | ['-', '-'] => .ok { reading with textsOnly := true }
    | '-' :: '-' :: text => reading.meetOption name text
    | '-' :: c :: _ => reading.meetDash name c
    | _ =>
      match reading.awaiting? with
      | some option => .ok { reading with pending := some (.option option (some argument)) }
      | none => reading.meetText name argument

end Reading

/-- Reads the arguments after the name of a command. -/
def readAfter (name : CommandName) (arguments : List String) :
    Except Refusal (Command × Given) := do
  let reading ← arguments.foldlM (fun reading argument => reading.meet (some name) argument)
    ({} : Reading)
  let reading ← reading.settle (some name)
  return (← name.build reading.given, reading.given)

/-- The command that an argument names, unless the argument is the value of an option. -/
def nameOf? (reading : Reading) (argument : String) : Option CommandName :=
  if reading.textsOnly || reading.awaiting?.isSome then none
  else CommandName.all.find? fun name => name.word == argument

/-- Reads the arguments from those before the name of the command on. -/
def readFrom (reading : Reading) : List String → Except Refusal Invocation
  | [] => .error (match reading.settle none with
    | .error refusal => refusal
    | .ok _ => .usage)
  | argument :: arguments => do
    match nameOf? reading argument with
    | some name =>
      let (command, after) ← readAfter name arguments
      let before := (← reading.settle none).given
      match before.texts with
      | [database] => return { database, options := before.options after, command }
      | _ => throw .usage
    | none =>
      if argument = "help" ∧ !reading.textsOnly ∧ reading.awaiting?.isNone then throw .help
      readFrom (← reading.meet none argument) arguments

def read (arguments : List String) : Except Refusal Invocation :=
  readFrom {} arguments

end Outline.Command
