import Mathlib.Data.List.Pairwise
import Mathlib.Tactic.SplitIfs
import Mathlib.Tactic.Tauto
import Outline.Proofs.Running
import Outline.Schema

/-!
# Migration

A migration runs a script of statements, any of which may find a name taken after others have
created their tables.  Since all of them are one transaction, a database ends at the latest
version with the tables that a store is kept in, or is what it was.  Whether a store can be kept
in a database is then a matter of its version and of the columns of two tables, which are looked
at in the order in which they are declared.
-/

namespace Outline

open Schema

variable {database changed : Database} {statement : Statement} {later statements : List Statement}
  {name : String} {cause : SchemaError}

/-! ## Names -/

/-- Whether two names are one name, in letters of either case. -/
def Schema.SameName (first second : String) : Prop :=
  first.toLower = second.toLower

instance : DecidableRel SameName := fun first second =>
  inferInstanceAs (Decidable (first.toLower = second.toLower))

namespace Database

/-- All names in a database. -/
def names (database : Database) : List String :=
  database.tables.map Table.name ++ database.views ++ database.indexes

end Database

/-! ## Statements -/

namespace Schema

/-- The tables that a creation adds to those of a database. -/
def Creation.tables : Creation → List Table
  | .table created => [created]
  | .index _ => []
  | .fullText created => created :: companions created

/-- The indexes that a creation adds to those of a database. -/
def Creation.indexes : Creation → List String
  | .table _ | .fullText _ => []
  | .index name => [name]

/-- The names that must be free for something to be created, and are then taken. -/
def Creation.names (creation : Creation) : List String :=
  creation.tables.map Table.name ++ creation.indexes

/-- The first statement takes no name that the second one needs. -/
def Apart (first second : Statement) : Prop :=
  ∀ taken ∈ first.creation.names, ∀ name ∈ second.creation.names, ¬SameName taken name

instance : DecidableRel Apart := fun first second =>
  inferInstanceAs (Decidable (∀ taken ∈ first.creation.names,
    ∀ name ∈ second.creation.names, ¬SameName taken name))

end Schema

namespace Database

end Database

/-! ## Scripts -/

namespace Schema

theorem latest_nonneg : 0 ≤ latest := by decide

end Schema

/-! ## Readiness -/

/-- What a database must have if a store is to be kept in it: a table, or a column of one. -/
inductive Requirement where
  | table (required : Table)
  | column (required : Table) (name : String)

/-- The table with each of its columns, in the order in which they are declared. -/
def Table.requirements (table : Table) : List Requirement :=
  .table table :: table.columns.map (.column table)

/-- All that a store requires. -/
def Schema.requirements : List Requirement :=
  atoms.requirements ++ cells.requirements

/-- The error that names a requirement. -/
def Requirement.fault : Requirement → ReadyError
  | .table required => .noTable required
  | .column required name => .noColumn required name

namespace Database

variable {table : Table} {requirements : List Requirement}

/-- Whether a database has what is required of it. -/
def meets (database : Database) : Requirement → Bool
  | .table required => (database.table? required.name).isSome
  | .column required name =>
    (database.table? required.name).any fun found => found.columns.contains name

/-- Looks for requirements that are not met, and reports the first one. -/
def check (database : Database) (requirements : List Requirement) : Except ReadyError Unit :=
  match requirements.find? fun requirement => !database.meets requirement with
  | some requirement => .error requirement.fault
  | none => .ok ()

end Database

/-! ## Databases brought to the latest version -/

namespace Database

end Database

namespace Schema

theorem currentVersion_eq (h : 0 ≤ database.version) :
    currentVersion database = .ok database.version database := by
  rw [currentVersion, Database.readVersion, if_neg (Int.not_lt.mpr h)]

theorem upgrade_of_latest (h : database.version = latest) :
    upgrade database = .ok () database := by
  have hversion : 0 ≤ database.version := h.symm ▸ latest_nonneg
  rw [upgrade, bind_of_ok (currentVersion_eq hversion), if_neg (h ▸ Int.lt_irrefl latest)]
  simp [h, pure, EStateM.pure]

example : ({} : Database).migrate.toOption = some current := by decide +kernel

-- The script alone would leave two tables and the index behind where only the last name is taken.
example : finalState (runScript script { tables := [search] }) =
    { tables := [search, atoms, cells], indexes := [cellIndex] } := by decide +kernel

example : finalState (upgrade { tables := [search] }) = { tables := [search] } := by
  decide +kernel

-- A view takes the name of a table.
example : ({ views := ["Atoms"] } : Database).migrate.toOption = none := by decide +kernel

end Schema

end Outline
