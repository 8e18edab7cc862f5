import Outline.Program
import Outline.Store.Archive
import Std.Time.DateTime.Timestamp

/-!
# The command line

Gathers what surrounds a run of the program, runs it, and puts into place what it leaves behind. A
database is kept as the archive of its store.
-/

namespace Outline

/-- What a text in a file stands for. -/
def Entry.ofContent (content : String) : Entry :=
  match Json.read content with
  | .ok document =>
    match Store.ofJson? document with
    | some store => .database { schema := Schema.current, store }
    | none => .text content
  | .error _ => .text content

/-- The path of a location. -/
def pathOf (location : Location) : String :=
  "/" ++ String.intercalate "/" location

namespace Folder

/-- What stands at a path, if anything does. -/
def find? (path : String) : IO (Option Entry) := do
  try
    let content ← IO.FS.readBinFile path
    return some ((String.fromUTF8? content).elim .bytes Entry.ofContent)
  catch
    | .noFileOrDirectory .. => return none
    | .inappropriateType .. => return some .directory
    | _ => return some .bytes

/-- The folder with what stands at a path and on the way to it. -/
def gather (folder : Folder) (path : String) : IO Folder := do
  let location := folder.locate path
  (List.range (location.length + 1)).foldlM (fun folder length => do
    let location := location.take length
    if length = 0 || folder.isDirectory location.dropLast then
      match ← find? (pathOf location) with
      | some entry => return folder.put location entry
      | none => return folder
    else return folder) folder

/-- Puts the directories of a folder, and the database at a location, into place. -/
def keep (folder : Folder) (database : Location) : IO Unit :=
  folder.entries.forM fun (location, entry) =>
    match entry with
    | .directory => IO.FS.createDirAll (pathOf location)
    | .database file =>
      if location = database then IO.FS.writeFile (pathOf location) file.store.toJson.compact
      else pure ()
    | _ => pure ()

end Folder

/-- Appends the lines of a log to its file. -/
def Log.keep (log : Log) : IO Unit :=
  match log.settings with
  | none => pure ()
  | some settings =>
    IO.FS.withFile (settings.directory ++ "/" ++ Log.fileName) .append fun file =>
      log.lines.forM file.putStrLn

namespace Invocation

/-- The file that a command updates from. -/
def file? (invocation : Invocation) : Option String :=
  match invocation.command with
  | .update _ file => file
  | _ => none

/-- Whether a command updates from the input. -/
def readsInput (invocation : Invocation) : Bool :=
  match invocation.command with
  | .update _ file => file.isNone
  | _ => false

end Invocation

/-- Identifiers and times that no other run has used. -/
def freshSupply : IO Supply := do
  let drawn := (← IO.getRandomBytes 7).toList.foldl (fun n byte => 256 * n + byte.toNat) 0
  let now := (← Std.Time.Timestamp.now).toMillisecondsSinceUnixEpoch
  return { drawn, now := now.toInt, step := 0 }

/-- The lines of a stream up to its end. -/
partial def readAll (stream : IO.FS.Stream) (before : String) : IO String := do
  let line ← stream.getLine
  if line.isEmpty then return before else readAll stream (before ++ line)

end Outline

open Outline in
/-- Runs the program on the arguments of the command line. -/
def main (arguments : List String) : IO UInt32 := do
  let logDirectory ← IO.getEnv Log.directoryVariable
  let logLevel ← IO.getEnv Log.levelVariable
  let invocation? := (Command.read arguments).toOption
  let readsInput := invocation?.any Invocation.readsInput
  let input ← if readsInput then readAll (← IO.getStdin) "" else pure ""
  let home := pathNames (← IO.currentDir).toString
  let database := (invocation?.map Invocation.database).filter (· != Program.unkept)
  let paths := database.toList ++ (invocation?.bind Invocation.file?).toList ++
    ((Log.setting? logDirectory).bind fun path => (LogSettings.readDirectory path).toOption).toList
  let folder ← paths.foldlM (fun folder path => folder.gather path) { home }
  let surroundings := { input, logDirectory, logLevel, supply := ← freshSupply }
  let (report, after) := Program.run arguments surroundings folder
  after.keep (after.locate (database.getD Program.unkept))
  report.log.keep
  IO.print report.output
  IO.eprint report.errors
  return report.status.toUInt32
