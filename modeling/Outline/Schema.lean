/-!
# The schema

A database bears a version and holds tables, views and indexes, no two of one name. Migration brings
an older database to the latest version by scripts of statements, all of which take effect or none.
A store can be kept only in a database of the latest version whose tables have the columns that the
store reads and writes.
-/

namespace Outline

/-- A table with its columns. -/
structure Table where
  name : String
  columns : List String
  deriving DecidableEq

/-- The version of a database and what is named in it. Triggers are left out, whose names are apart
from all others, and so are the indexes that keys bring with them, whose names are reserved. -/
structure Database where
  version : Int := 0
  tables : List Table := []
  /-- The names of the views. -/
  views : List String := []
  /-- The names of the indexes. -/
  indexes : List String := []
  deriving DecidableEq

namespace Schema

/-- What a name can belong to. -/
inductive Kind where
  | table
  | view
  | index
  deriving DecidableEq

def Kind.word : Kind → String
  | table => "table"
  | view => "view"
  | index => "index"

/-- What a statement of the migration script creates. -/
inductive Creation where
  | table (table : Table)
  /-- An index of another table. -/
  | index (name : String)
  /-- A table for full-text search, which is kept in further tables beside it. -/
  | fullText (table : Table)
  deriving DecidableEq

/-- A statement of the migration script. -/
structure Statement where
  creation : Creation
  /-- The text before the name of what is created. -/
  opening : String
  /-- The text after the name. -/
  body : String
  deriving DecidableEq

def Creation.name : Creation → String
  | table created => created.name
  | index name => name
  | fullText created => created.name

def Statement.text (statement : Statement) : String :=
  statement.opening ++ statement.creation.name ++ statement.body

def atoms : Table where
  name := "atoms"
  columns := ["id", "value", "alias", "created", "priority", "sharability", "weight", "shortcut",
    "notes"]

def cells : Table where
  name := "atom_list_cells"
  columns := ["id", "first", "rest"]

/-- The name of the index of the cells by the atoms in them. -/
def cellIndex : String := "idx_atom_list_cells_first"

def search : Table where
  name := "atom_search"
  columns := ["atom_id", "value"]

/-- The script that creates the tables of a store. -/
def script : List Statement := [
  { creation := .table atoms
    opening := "CREATE TABLE "
    body := " (\n    id          TEXT PRIMARY KEY NOT NULL,\n    value       TEXT,\n" ++
      "    alias       TEXT,\n    created     INTEGER NOT NULL,\n    priority    REAL,\n" ++
      "    sharability REAL,\n    weight      REAL,\n    shortcut    TEXT,\n" ++
      "    notes       TEXT UNIQUE REFERENCES atom_list_cells(id) " ++
      "DEFERRABLE INITIALLY DEFERRED\n);" },
  { creation := .table cells
    opening := "\n\nCREATE TABLE "
    body := " (\n    id    TEXT PRIMARY KEY NOT NULL,\n" ++
      "    first TEXT NOT NULL REFERENCES atoms(id),\n" ++
      "    rest  TEXT UNIQUE REFERENCES atom_list_cells(id) DEFERRABLE INITIALLY DEFERRED\n);" },
  { creation := .index cellIndex
    opening := "\n\nCREATE INDEX "
    body := " ON atom_list_cells(first);" },
  { creation := .fullText search
    opening := "\n\nCREATE VIRTUAL TABLE "
    body := " USING fts5(\n    atom_id UNINDEXED,\n    value\n);\n" }]

/-- A step to a version from the one before it. -/
structure Migration where
  version : Int
  script : List Statement

/-- The migrations, each to a later version than the one before it. -/
def migrations : List Migration := [{ version := 1, script }]

/-- The version that the last migration leads to. -/
def latest : Int :=
  (migrations.getLast?.map Migration.version).getD 0

/-- The tables that a full-text table is kept in. -/
def companions (table : Table) : List Table :=
  let columns := (List.range table.columns.length).map fun place => "c" ++ toString place
  [ { name := table.name ++ "_data", columns := ["id", "block"] },
    { name := table.name ++ "_idx", columns := ["segid", "term", "pgno"] },
    { name := table.name ++ "_content", columns := "id" :: columns },
    { name := table.name ++ "_docsize", columns := ["id", "sz"] },
    { name := table.name ++ "_config", columns := ["k", "v"] } ]

/-- A database that has been brought to the latest version from nothing. -/
def current : Database where
  version := latest
  tables := atoms :: cells :: search :: companions search
  indexes := [cellIndex]

/-- Why a database cannot be opened or migrated. -/
inductive SchemaError where
  | cannotOpen (path : String)
  /-- The version does not fit in 32 bits without a sign. -/
  | versionOutOfRange (version : Int)
  /-- The version is later than the latest. -/
  | tooNew (version : Int)
  /-- The name of what is to be created belongs to something; `later` are the statements after the
  failing one. -/
  | taken (statement : Statement) (later : List Statement) (kind : Kind)
  /-- The name of a table that a full-text table is to be kept in belongs to something. -/
  | companionTaken (name : String) (kind : Kind)
  deriving DecidableEq

/-- What of the script has not run, with the place of the name that is taken. Nothing is said if
that is the whole script. -/
def remainder (statement : Statement) (later : List Statement) : String :=
  if script = statement :: later then ""
  else " in " ++ String.join ((statement :: later).map Statement.text) ++ " at offset " ++
    toString statement.opening.length

def SchemaError.message : SchemaError → String
  | .cannotOpen path => "unable to open database file: " ++ path
  | .versionOutOfRange version => "Integer " ++ toString version ++ " out of range at index 0"
  | .tooNew version =>
    "graph schema version " ++ toString version ++ " is newer than supported " ++ toString latest
  | .taken statement later kind =>
    match statement.creation, kind with
    | .index name, .index => "index " ++ name ++ " already exists"
    | .index name, _ => "there is already a table named " ++ name
    | created, .index => "there is already an index named " ++ created.name
    | created, kind =>
      kind.word ++ " " ++ created.name ++ " already exists" ++ remainder statement later
  | .companionTaken name kind =>
    "fts5: error creating shadow table " ++ name ++ ": " ++
      match kind with
      | .index => "there is already an index named " ++ name
      | kind => kind.word ++ " '" ++ name ++ "' already exists"

end Schema

namespace Database

open Schema

/-- The version of a database, which must fit in 32 bits without a sign. -/
def readVersion (database : Database) : Except SchemaError Int :=
  if database.version < 0 then .error (.versionOutOfRange database.version)
  else .ok database.version

/-- What a name belongs to, in letters of either case. -/
def kind? (database : Database) (name : String) : Option Kind :=
  let isName (other : String) : Bool := other.toLower == name.toLower
  if database.tables.any fun table => isName table.name then some .table
  else if database.views.any isName then some .view
  else if database.indexes.any isName then some .index
  else none

/-- Runs a statement; `later` are those after it. -/
def run (database : Database) (statement : Statement) (later : List Statement) :
    Except SchemaError Database :=
  match database.kind? statement.creation.name with
  | some kind => .error (.taken statement later kind)
  | none =>
    match statement.creation with
    | .table table => .ok { database with tables := database.tables ++ [table] }
    | .index name => .ok { database with indexes := database.indexes ++ [name] }
    | .fullText table =>
      let clash? (companion : Table) : Option SchemaError :=
        (database.kind? companion.name).map (.companionTaken companion.name)
      match (companions table).findSome? clash? with
      | some cause => .error cause
      | none => .ok { database with tables := database.tables ++ table :: companions table }

end Database

namespace Schema

/-- An operation on a database. A failure keeps the database as it was when the failure arose. -/
abbrev SchemaM := EStateM SchemaError Database

/-- Runs a statement; `later` are those after it. A statement that fails changes nothing. -/
def runStatement (statement : Statement) (later : List Statement) : SchemaM Unit := fun database =>
  match database.run statement later with
  | .ok changed => .ok () changed
  | .error cause => .error cause database

/-- Runs the statements of a script up to the first one that fails. -/
def runScript : List Statement → SchemaM Unit
  | [] => pure ()
  | statement :: later => do
    runStatement statement later
    runScript later

/-- Carries out an operation as one transaction: a failure takes back all that it has done. -/
def transaction (operation : SchemaM Unit) : SchemaM Unit := fun database =>
  match operation database with
  | .ok () changed => .ok () changed
  | .error cause _ => .error cause database

/-- Runs the script of a migration and sets the version that it leads to. -/
def Migration.apply (migration : Migration) : SchemaM Unit := do
  runScript migration.script
  modify fun database => { database with version := migration.version }

/-- Looks up the version of a database. -/
def currentVersion : SchemaM Int := fun database =>
  match database.readVersion with
  | .ok version => .ok version database
  | .error cause => .error cause database

/-- Brings a database to the latest version, in one transaction. -/
def upgrade : SchemaM Unit := do
  let version ← currentVersion
  if latest < version then throw (.tooNew version)
  if version ≠ latest then
    transaction ((migrations.filter (version < ·.version)).forM Migration.apply)

end Schema

/-- The database brought to the latest version. -/
def Database.migrate (database : Database) : Except Schema.SchemaError Database :=
  match Schema.upgrade database with
  | .ok () migrated => .ok migrated
  | .error cause _ => .error cause

/-- Why a database cannot keep a store. -/
inductive ReadyError where
  | schema (cause : Schema.SchemaError)
  | otherVersion (version : Int)
  | noTable (table : Table)
  | noColumn (table : Table) (column : String)
  deriving DecidableEq

def ReadyError.message : ReadyError → String
  | .schema cause => cause.message
  | .otherVersion version =>
    "graph repository requires schema version " ++ toString Schema.latest ++ ", got " ++
      toString version
  | .noTable table => "graph repository requires table `" ++ table.name ++ "`"
  | .noColumn table column =>
    "graph repository requires column `" ++ column ++ "` in table `" ++ table.name ++ "`"

namespace Database

/-- The table with the given name, in the same letters. -/
def table? (database : Database) (name : String) : Option Table :=
  database.tables.find? fun found => found.name == name

/-- Checks that a database has a table with all its columns. -/
def checkTable (database : Database) (table : Table) : Except ReadyError Unit :=
  match database.table? table.name with
  | none => .error (.noTable table)
  | some found =>
    match table.columns.find? fun column => !found.columns.contains column with
    | some column => .error (.noColumn table column)
    | none => .ok ()

/-- Checks that a store can be kept in a database. -/
def checkReady (database : Database) : Except ReadyError Unit := do
  let version ← database.readVersion.mapError .schema
  if version ≠ Schema.latest then throw (.otherVersion version)
  database.checkTable Schema.atoms
  database.checkTable Schema.cells

end Database

end Outline
