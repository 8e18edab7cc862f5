import Outline.Command.Arguments
import Outline.Log
import Outline.Note.Reader
import Outline.Schema
import Outline.Store.Transaction
import Outline.Update

/-!
# The program

A run of the program carries out one command line in a folder. The database is created on first
use. Each command is one transaction: if it fails, the store is left as it was when it was opened.
-/

namespace Outline

/-- What surrounds a run of the program. -/
structure Surroundings where
  input : String := ""
  /-- The directory for the log. -/
  logDirectory : Option String := none
  logLevel : Option String := none
  /-- Where new identifiers and times come from. -/
  supply : Supply := {}

/-- Why a command fails. -/
inductive CommandFailure where
  | note (cause : NoteError)
  | store (cause : StoreError)
  | database (cause : DatabaseError)
  | file (fault : FileFault)
  /-- The database cannot be opened. -/
  | schema (cause : Schema.SchemaError)
  /-- The database cannot keep a store. -/
  | ready (cause : ReadyError)
  | notADatabase
  /-- The text to update from is no note. -/
  | badNote

def CommandFailure.message : CommandFailure → String
  | .note cause => cause.message
  | .store cause => cause.message
  | .database cause => cause.message
  | .file fault => fault.message
  | .schema cause => cause.message
  | .ready cause => cause.message
  | .notADatabase => "file is not a database"
  | .badNote => "bad note"

/-- What a run of the program leaves behind besides the folder. -/
structure Report where
  /-- Zero if the command was carried out, one if it failed, two if it was refused. -/
  status : Nat
  output : String := ""
  errors : String := ""
  /-- The log, if one was started. -/
  log : Log := {}
  deriving DecidableEq

mutual

/-- The document of a note with its members sorted by name and its numbers with the digits of
doubles. -/
def Note.toSortedJson : Note → Json
  | { id, value, byname, weight, sharability, created, children } =>
    .record <|
      (byname.map fun text => ("alias", Json.text text)).toList ++
        (match children with
          | [] => []
          | child :: rest =>
            [("children", .list (child.toSortedJson :: sortedChildren rest))]) ++
        [("created", created.map Json.ofInt), ("id", id.map Json.text),
          ("sharability", sharability.map Json.ofWidened), ("value", value.map Json.text),
          ("weight", weight.map Json.ofWidened)].filterMap fun member =>
            member.2.map fun document => (member.1, document)

/-- The documents of some notes. -/
def Note.sortedChildren : List Note → List Json
  | [] => []
  | child :: rest => child.toSortedJson :: sortedChildren rest

end

def UpdateStats.toJson (stats : UpdateStats) : Json :=
  .record [("created", .ofInt stats.created), ("deleted", .ofInt stats.deleted),
    ("inserted", .ofInt stats.inserted)]

namespace Command

/-- Where a command ended: its document, or why it failed, with the store and the reported events
at that point. -/
structure Ending where
  result : Except CommandFailure Json
  store : Store
  events : List Event := []

/-- The end of a command that only looks at the store. -/
def looking (store : Store) (result : Except NoteError Note) : Ending where
  result := result.mapError .note |>.map Note.toJson
  store := store

/-- The end of a command that updates an atom. -/
def updating (outcome : Update.Outcome Note) (document : Json) : Ending where
  result := outcome.failure.elim (.ok document) fun cause => .error (.note cause)
  store := outcome.progress.store

/-- Creates an atom, and gives it a value if one is wanted. -/
def createWith (visibility : Visibility) (value : Option String) (store : Store) : Ending :=
  match store.createAtom none visibility.defaults with
  | .error cause store => { result := .error (.store cause), store }
  | .ok atom store =>
    let document := ({ id := some atom.id } : Note).toJson
    match value with
    | none => { result := .ok document, store }
    | some _ => updating (Update.atRootWith none visibility atom.id 0 { value } store) document

/-- The text that a command updates from. -/
def noteText (file : Option String) (input : String) (folder : Folder) :
    Except FileFault String :=
  match file with
  | some path => folder.readText path
  | none => .ok input

/-- Updates an atom by a text. -/
def updateFrom (options : Options) (id : AtomId) (text : String) (store : Store) : Ending :=
  match Note.read text with
  | .error _ => { result := .error .badNote, store }
  | .ok note =>
    let outcome := Update.atRoot options.visibility id options.depth.levels note store
    let document := Json.record
      [("note", outcome.notes.toSortedJson), ("stats", outcome.progress.stats.toJson)]
    { updating outcome document with events := outcome.progress.events }

/-- Shows an atom. -/
def viewWith (options : Options) (id : AtomId) (store : Store) : Ending :=
  let view := store.viewAt options.visibility options.adjacency options.depth.levels id
  { looking store view with events := if view.isOk then [.view id] else [] }

/-- Carries out a command on a store. -/
def execute (command : Command) (options : Options) (input : String) (folder : Folder)
    (store : Store) : Ending :=
  let visibility := options.visibility
  let adjacency := options.adjacency
  match command with
  | .create value => createWith visibility value store
  | .view id => viewWith options id store
  | .update id file =>
    match noteText file input folder with
    | .error fault => { result := .error (.file fault), store }
    | .ok text => updateFrom options id text store
  | .search text => looking store (store.search visibility adjacency options.depth { text })
  | .query text =>
    looking store (store.answers visibility adjacency options.depth PropertyQuery.candidates text)
  | .roots => looking store ((store.roots visibility adjacency).mapError .store)
  | .reindex =>
    match store.reindex with
    | .error cause store => { result := .error (.store cause), store }
    | .ok count store => { result := .ok (.record [("indexed", .ofInt count)]), store }

/-- Carries out a command on the store of a database, which must be able to keep one. -/
def serve (command : Command) (options : Options) (input : String) (folder : Folder)
    (schema : Database) (store : Store) : Ending :=
  match schema.checkReady with
  | .error cause => { result := .error (.ready cause), store }
  | .ok () => command.execute options input folder store

/-- Carries out a command as one transaction. -/
def transact (command : Command) (options : Options) (input : String) (folder : Folder)
    (schema : Database) (store : Store) : Ending :=
  match ({ store } : Connection).begin with
  | .error cause => { result := .error (.database cause), store }
  | .ok connection =>
    let ending := command.serve options input folder schema connection.store
    let connection := { connection with store := ending.store }
    match ending.result with
    | .error _ => { ending with store := connection.abandon.store }
    | .ok _ =>
      match connection.commit with
      | .error cause =>
        { ending with result := .error (.database cause), store := connection.abandon.store }
      | .ok connection => { ending with store := connection.store }

/-- Whether a command updates from a text that is no note. -/
def hasBadNote (command : Command) (input : String) (folder : Folder) : Bool :=
  match command with
  | .update _ file =>
    match noteText file input folder with
    | .error _ => false
    | .ok text => !(Note.read text).isOk
  | _ => false

end Command

namespace Program

/-- Opens the database at a path, and creates it if nothing stands there. -/
def openDatabase (path : String) (folder : Folder) : Except CommandFailure DatabaseFile :=
  let location := folder.locate path
  match folder.entry? location with
  | some (.database file) => file.migrated.mapError .schema
  | some (.text content) =>
    if content = "" then ({} : DatabaseFile).migrated.mapError .schema else .error .notADatabase
  | some .bytes => .error .notADatabase
  | some .directory => .error (.schema (.cannotOpen path))
  | none =>
    if folder.isDirectory location.dropLast then
      ({} : DatabaseFile).migrated.mapError .schema
    else .error (.schema (.cannotOpen path))

/-- The path that stands for a database of its own, which is not kept. -/
def unkept : String := ":memory:"

/-- The report on a command that failed. -/
def failed (invocation : Invocation) (surroundings : Surroundings) (folder : Folder)
    (notice : String) (log : Log) (failure : CommandFailure) : Report where
  status := 1
  errors :=
    if invocation.command.hasBadNote surroundings.input folder then
      CommandFailure.message .badNote
    else notice ++ "error: " ++ failure.message ++ "\n"
  log := log.write .error
    ("ERROR event=cli_command module=cli status=error error=" ++ failure.message)

/-- The database that an invocation is for, ready for use. -/
def database (invocation : Invocation) (folder : Folder) : Except CommandFailure DatabaseFile :=
  if invocation.database = unkept then ({} : DatabaseFile).migrated.mapError .schema
  else openDatabase invocation.database folder

/-- The folder with a database in its place, unless it is not kept. -/
def place (invocation : Invocation) (file : DatabaseFile) (folder : Folder) : Folder :=
  if invocation.database = unkept then folder
  else folder.put (folder.locate invocation.database) (.database file)

/-- Carries out what a command line asks for. `notice` stands before all errors. -/
def carryOut (invocation : Invocation) (surroundings : Surroundings) (notice : String) (log : Log)
    (folder : Folder) : Report × Folder :=
  match database invocation folder with
  | .error failure => (failed invocation surroundings folder notice log failure, folder)
  | .ok file =>
    let store := { file.store with supply := surroundings.supply, references := .immediate }
    let ending := invocation.command.transact invocation.options surroundings.input
      (place invocation { file with store } folder) file.schema store
    let folder := place invocation { file with store := ending.store } folder
    let log := ending.events.foldl (fun log event => log.write .info event.line) log
    match ending.result with
    | .error failure => (failed invocation surroundings folder notice log failure, folder)
    | .ok document =>
      ({ status := 0, output := document.indented ++ "\n", errors := notice, log }, folder)

/-- Starts the log, if one is wanted: the notice that it cannot be started, the log, and the folder
with its directory. -/
def startLog (surroundings : Surroundings) (folder : Folder) : String × Log × Folder :=
  match ({} : Log).initFromEnvironment surroundings.logDirectory surroundings.logLevel folder with
  | .error cause => ("logging disabled: " ++ cause.message ++ "\n", {}, folder)
  | .ok none => ("", {}, folder)
  | .ok (some (log, folder)) => ("", log, folder)

/-- Runs the program on some arguments. What is printed is taken to reach its readers: output that
cannot be written would change the status, but comes too late to change the database. -/
def run (arguments : List String) (surroundings : Surroundings) (folder : Folder) :
    Report × Folder :=
  match Command.read arguments with
  | .error .help => ({ status := 0, output := "usage\n" }, folder)
  | .error refusal => ({ status := 2, errors := refusal.message }, folder)
  | .ok invocation =>
    let (notice, log, folder) := startLog surroundings folder
    carryOut invocation surroundings notice log folder

end Program

end Outline
