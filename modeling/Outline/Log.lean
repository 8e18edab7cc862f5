import Outline.Folder
import Outline.Text.Blank
import Outline.Text.LetterCase

/-!
# The log

A log is kept in a directory, at a level below which nothing is written. It is started once; to ask
for it again is harmless as long as directory and level are the same. The start of the log is
written to it, and so is every panic after that, on one line and cut to a length.
-/

namespace Outline

/-- How much is written to a log. -/
inductive LogLevel where
  | trace
  | debug
  | info
  | warn
  | error
  deriving DecidableEq

namespace LogLevel

/-- All levels, from the one at which most is written. -/
def all : List LogLevel :=
  [trace, debug, info, warn, error]

def name : LogLevel → String
  | trace => "trace"
  | debug => "debug"
  | info => "info"
  | warn => "warn"
  | error => "error"

/-- Whether a line of one level is written to a log of another. -/
def isWritten (line log : LogLevel) : Bool :=
  all.idxOf log ≤ all.idxOf line

end LogLevel

/-- The level and directory of a log. -/
structure LogSettings where
  level : LogLevel
  /-- The directory as it was given. -/
  directory : String
  deriving DecidableEq

/-- Why a log is not started. -/
inductive LogError where
  | unknownLevel (name : String)
  | noDirectory
  | notAbsolute (directory : String)
  | cannotCreate (directory : String) (fault : FileFault)
  /-- The log is kept in another directory. -/
  | otherDirectory (active wanted : String)
  /-- The log has another level. -/
  | otherLevel (active wanted : LogLevel)
  deriving DecidableEq

def LogError.message : LogError → String
  | .unknownLevel name =>
    "unsupported log level `" ++ name ++ "`; expected trace|debug|info|warn|error"
  | .noDirectory => "log directory cannot be empty"
  | .notAbsolute directory => "log directory must be absolute, got `" ++ directory ++ "`"
  | .cannotCreate directory fault =>
    "failed to create log directory `" ++ directory ++ "`: " ++ fault.message
  | .otherDirectory active wanted =>
    "logging already writes to `" ++ active ++ "`; refusing to switch to `" ++ wanted ++ "`"
  | .otherLevel active wanted =>
    "logging already runs at level `" ++ active.name ++ "`; refusing to switch to `" ++
      wanted.name ++ "`"

namespace LogSettings

/-- The level with the given name. -/
def readLevel (name : String) : Except LogError LogLevel :=
  let name := String.ofList (Text.asciiLowerCase (Text.trim name.toList))
  match LogLevel.all.find? fun level => level.name == name with
  | some level => .ok level
  | none => if name = "warning" then .ok .warn else .error (.unknownLevel name)

/-- The directory that a text names. -/
def readDirectory (text : String) : Except LogError String :=
  let path := String.ofList (Text.trim text.toList)
  if path = "" then .error .noDirectory
  else if isAbsolute path then .ok path
  else .error (.notAbsolute path)

def read (level directory : String) : Except LogError LogSettings := do
  let level ← readLevel level
  let directory ← readDirectory directory
  return { level, directory }

/-- Refuses settings that differ from those of the active log. -/
def ensureSame (active wanted : LogSettings) : Except LogError Unit :=
  if !samePath active.directory wanted.directory then
    .error (.otherDirectory active.directory wanted.directory)
  else if active.level ≠ wanted.level then .error (.otherLevel active.level wanted.level)
  else .ok ()

end LogSettings

/-- What a panic carries. -/
inductive PanicPayload where
  | text (content : String)
  /-- Anything else than a text. -/
  | other

namespace PanicPayload

/-- How many characters of a panic's text are written. -/
def shownLength : Nat := 160

/-- The text that stands for a payload in the log: line ends become spaces, and a long text is cut
and marked. -/
def shown (payload : PanicPayload) : String :=
  let flat := match payload with
    | text content => content.toList.map fun c => if c = '\n' ∨ c = '\r' then ' ' else c
    | other => "non-string panic payload".toList
  if shownLength < flat.length then String.ofList (flat.take shownLength ++ ['.', '.', '.'])
  else String.ofList flat

end PanicPayload

/-- The log of a process: its settings once it is started, and the lines written to it. -/
structure Log where
  settings : Option LogSettings := none
  lines : List String := []
  deriving DecidableEq

namespace Log

/-- The environment variable that names the directory. -/
def directoryVariable : String := "ATOMNOTE_LOG_DIR"

/-- The environment variable that names the level. -/
def levelVariable : String := "ATOMNOTE_LOG_LEVEL"

/-- The name of the file in which the lines stand. -/
def fileName : String := "atomnote_rCURRENT.log"

/-- The level at which a log is kept if none is asked for. -/
def defaultLevel : String := "info"

/-- Writes a line, if the log is started and its level takes it. -/
def write (log : Log) (level : LogLevel) (line : String) : Log :=
  match log.settings with
  | some settings =>
    if level.isWritten settings.level then { log with lines := log.lines ++ [line] } else log
  | none => log

/-- Starts the log. -/
def start (settings : LogSettings) (folder : Folder) : Except LogError (Log × Folder) :=
  match folder.createDirectory settings.directory with
  | .error fault => .error (.cannotCreate settings.directory fault)
  | .ok folder =>
    let line := "INFO event=logging_init module=logging status=ok level=" ++ settings.level.name ++
      " log_dir=" ++ settings.directory
    .ok (write { settings := some settings } .info line, folder)

/-- Starts the log unless it is started with the same settings already. -/
def init (log : Log) (level directory : String) (folder : Folder) :
    Except LogError (Log × Folder) := do
  let wanted ← LogSettings.read level directory
  match log.settings with
  | some active =>
    active.ensureSame wanted
    return (log, folder)
  | none => start wanted folder

/-- A setting of the environment, unless it is blank. -/
def setting? (value : Option String) : Option String :=
  value.filter fun value => !Text.isBlankText value

/-- Starts the log as the environment asks; `none` if it names no directory. -/
def initFromEnvironment (log : Log) (directory level : Option String) (folder : Folder) :
    Except LogError (Option (Log × Folder)) :=
  match setting? directory with
  | none => .ok none
  | some directory => some <$> log.init ((setting? level).getD defaultLevel) directory folder

/-- Writes a panic. -/
def recordPanic (log : Log) (payload : PanicPayload) : Log :=
  log.write .error
    ("ERROR event=panic_captured module=logging status=error payload=" ++ payload.shown)

/-- The lines in the log file of a directory, if there is such a file. -/
def linesIn? (log : Log) (folder : Folder) (directory : String) : Option (List String) :=
  match log.settings with
  | some settings =>
    if folder.locate settings.directory = folder.locate directory then some log.lines else none
  | none => none

end Log

end Outline
