import Outline.Schema
import Outline.Store.Basic

/-!
# Folders

The files that the program meets: texts, databases and the directories that hold them. Paths are
taken apart into the names between their slashes; a relative path starts from the working directory.
-/

namespace Outline

/-- The names on the way from the root to a file. -/
abbrev Location := List String

/-- What a file holds that is a database. -/
structure DatabaseFile where
  /-- Its version and its tables. -/
  schema : Database := {}
  /-- The rows of the tables. Without a table for it there is no index. -/
  store : Store := {}

/-- The database brought to the latest version. The tables that this creates have no rows. -/
def DatabaseFile.migrated (file : DatabaseFile) : Except Schema.SchemaError DatabaseFile := do
  let schema ← file.schema.migrate
  return { schema, store := if file.schema.version = Schema.latest then file.store else {} }

/-- What stands at a location. -/
inductive Entry where
  | directory
  | text (content : String)
  | database (file : DatabaseFile)
  /-- A file that holds neither a text nor a database. -/
  | bytes

/-- Why a file cannot be read or a directory cannot be created. -/
inductive FileFault where
  | missing
  | exists
  | notDirectory
  | isDirectory
  /-- The bytes of the file are no text. -/
  | notText
  deriving DecidableEq

def FileFault.message : FileFault → String
  | .missing => "No such file or directory (os error 2)"
  | .exists => "File exists (os error 17)"
  | .notDirectory => "Not a directory (os error 20)"
  | .isDirectory => "Is a directory (os error 21)"
  | .notText => "stream did not contain valid UTF-8"

/-- The names in a path; empty names and single dots say nothing. -/
def pathNames (path : String) : List String :=
  (path.splitOn "/").filter fun name => name != "" && name != "."

def isAbsolute (path : String) : Bool :=
  path.toList.head? == some '/'

/-- Whether two paths have the same names, apart from how the slashes are written. -/
def samePath (a b : String) : Bool :=
  isAbsolute a == isAbsolute b && pathNames a == pathNames b

/-- The files around a working directory. -/
structure Folder where
  /-- The working directory, which exists. -/
  home : Location
  entries : List (Location × Entry) := []

namespace Folder

/-- Follows names from a location; two dots lead back to the directory above. -/
def follow (location : Location) (names : List String) : Location :=
  names.foldl (fun location name => if name = ".." then location.dropLast else location ++ [name])
    location

/-- The location that a path leads to. -/
def locate (folder : Folder) (path : String) : Location :=
  follow (if isAbsolute path then [] else folder.home) (pathNames path)

/-- What stands at a location. -/
def entry? (folder : Folder) (location : Location) : Option Entry :=
  if location.isPrefixOf folder.home then some .directory
  else (folder.entries.find? fun entry => entry.1 == location).map Prod.snd

/-- The folder with something else at a location. -/
def put (folder : Folder) (location : Location) (entry : Entry) : Folder :=
  { folder with
    entries := (location, entry) :: folder.entries.filter fun other => other.1 != location }

def isDirectory (folder : Folder) (location : Location) : Bool :=
  match folder.entry? location with
  | some .directory => true
  | _ => false

/-- The fault of a location at which nothing stands: a file on the way, or nothing. -/
def missingFault (folder : Folder) (location : Location) : FileFault :=
  let isFile (length : Nat) : Bool :=
    match folder.entry? (location.take length) with
    | none | some .directory => false
    | some _ => true
  if (List.range location.length).any isFile then .notDirectory else .missing

/-- Whether the end of a path says that a directory stands there. -/
def endsInSlash (path : String) : Bool :=
  path.toList.getLast? == some '/'

def readText (folder : Folder) (path : String) : Except FileFault String :=
  let location := folder.locate path
  match folder.entry? location with
  | none => .error (folder.missingFault location)
  | some .directory => .error .isDirectory
  | some (.text content) => if endsInSlash path then .error .notDirectory else .ok content
  | some (.database _) | some .bytes =>
    .error (if endsInSlash path then .notDirectory else .notText)

/-- Creates the directories on the way to a location that do not exist. -/
def addDirectories (folder : Folder) (location : Location) : Except FileFault Folder :=
  (List.range (location.length + 1)).foldlM (fun folder length =>
    let location' := location.take length
    match folder.entry? location' with
    | some .directory => .ok folder
    | some _ => .error (if length = location.length then .exists else .notDirectory)
    | none => .ok (folder.put location' .directory)) folder

/-- Creates the directory that a path leads to. A path that ends in a dot leads to nothing but what
exists. -/
def createDirectory (folder : Folder) (path : String) : Except FileFault Folder :=
  let location := folder.locate path
  if folder.isDirectory location then .ok folder
  else if (path.splitOn "/").getLast? = some "." then .error (folder.missingFault location)
  else folder.addDirectories location

end Folder

end Outline
