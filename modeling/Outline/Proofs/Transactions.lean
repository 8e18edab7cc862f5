import Outline.Program
import Outline.Proofs.Calls
import Outline.Proofs.Folders
import Outline.Proofs.Migration
import Outline.Proofs.SilentUpdates

/-!
# Commands as transactions

A command line opens a database, which brings it to the latest version, and carries out one
command on it.  An update that fails may have changed a good deal by then, but the changes
are inside a transaction: the database is as it was opened, unless all that the command does
has succeeded.
-/

namespace Outline

/-- What a database keeps from one command to the next. -/
structure Content where
  schema : Database
  atoms : List AtomRow
  cells : List CellRow
  index : Option (List IndexRow)
  deriving DecidableEq

def DatabaseFile.content (file : DatabaseFile) : Content where
  schema := file.schema
  atoms := file.store.atoms
  cells := file.store.cells
  index := file.store.index

/-- Opening a database of the latest version leaves it as it is. -/
theorem DatabaseFile.migrated_of_latest {file : DatabaseFile}
    (h : file.schema.version = Schema.latest) : file.migrated = .ok file := by
  have hmigrate : file.schema.migrate = .ok file.schema := by
    rw [Database.migrate, Schema.upgrade_of_latest h]
  rw [DatabaseFile.migrated, hmigrate]
  simp only [h, if_true, bind, Except.bind]
  rfl

/-- The store of a database in a new transaction. -/
def DatabaseFile.begun (file : DatabaseFile) (supply : Supply) : Store :=
  { file.store with supply, references := .deferred 0 }

/-! ## Calls that succeed -/

/-- Whether an operation has succeeded. -/
def Succeeded {ε σ α : Type} : EStateM.Result ε σ α → Prop
  | .ok _ _ => True
  | .error _ _ => False

/-- Whether a call succeeds. -/
def Call.Succeeds (store : Store) : Call → Prop
  | .createAtom id defaults => Succeeded (store.createAtom id defaults)
  | .updateAtom atom => Succeeded (Store.updateAtom atom store)
  | .removeAtom id => Succeeded (Store.removeAtom id store)
  | .insertAt owner position child => Succeeded (Store.insertAt owner position child store)
  | .deleteAt owner position => Succeeded (Store.deleteAt owner position store)
  | .updateAtRoot visibility id depth note =>
    (Update.atRoot visibility id depth.levels note store).failure = none
  | .updateAtAtom visibility id depth note =>
    (Update.atAtom visibility id depth.levels note store).failure = none
  | .reindex => Succeeded (Store.reindex store)

/-- Calls that are made one after the other and all succeed lead from one store to another. -/
inductive Made : Store → List Call → Store → Prop
  | nil (store : Store) : Made store [] store
  | cons {store last : Store} {call : Call} {calls : List Call} (h : call.Succeeds store)
      (hcalls : Made (call.run store) calls last) : Made store (call :: calls) last

theorem Made.single {store : Store} {call : Call} (h : call.Succeeds store) :
    Made store [call] (call.run store) :=
  .cons h (.nil _)

namespace Command

variable {command : Command} {options : Options} {input : String} {earlier folder : Folder}
  {schema : Database} {store : Store} {document : Json}

/-- The note that a command updates from, if its text is one. -/
def note? (file : Option String) (input : String) (folder : Folder) : Option Note :=
  match noteText file input folder with
  | .ok text => (Note.read text).toOption
  | .error _ => none

theorem noteText_of_textsFrom {file : Option String} {text : String}
    (htexts : Folder.TextsFrom earlier folder) (h : noteText file input folder = .ok text) :
    noteText file input earlier = .ok text := by
  cases file with
  | none => exact h
  | some path => exact htexts path text h

/-- The calls that a command makes to change a store. -/
def calls (command : Command) (options : Options) (input : String) (folder : Folder)
    (store : Store) : List Call :=
  let visibility := options.visibility
  match command with
  | .create none => [.createAtom none visibility.defaults]
  | .create (some value) =>
    [.createAtom none visibility.defaults,
      .updateAtRoot visibility store.supply.nextIdentifier 0 { value := some value }]
  | .update id file =>
    (note? file input folder).toList.map (.updateAtRoot visibility id options.depth)
  | .reindex => [.reindex]
  | .view _ | .search _ | .query _ | .roots => []

theorem failure_of_updating {outcome : Update.Outcome Note} {wanted : Json}
    (h : (updating outcome wanted).result = .ok document) : outcome.failure = none := by
  rw [updating] at h
  cases hfailure : outcome.failure with
  | none => rfl
  | some cause => simp [hfailure] at h

/-- An update that has no failure is a call that succeeds, whether or not there is a log. -/
theorem made_update {visibility : Visibility} {id : AtomId} (depth : Depth) {note : Note}
    {log : Option (List Event)}
    (h : (Update.atRootWith log visibility id depth.levels note store).failure = none) :
    Made store [.updateAtRoot visibility id depth note]
      (Update.atRootWith log visibility id depth.levels note store).progress.store := by
  have hsilent : (Update.atRootWith log visibility id depth.levels note store).silent =
      (Update.atRoot visibility id depth.levels note store).silent :=
    (Update.atRootWith_none log id depth.levels note store).symm.trans
      (Update.atRootWith_none (some []) id depth.levels note store)
  have hfailure := congrArg Update.Outcome.failure hsilent
  have hstore := congrArg (fun outcome => outcome.progress.store) hsilent
  have hmade : Made store [.updateAtRoot visibility id depth note] _ :=
    .single (hfailure.symm.trans h)
  exact hstore ▸ hmade

theorem made_createAtom {id : Option AtomId} {defaults : Defaults} {atom : Atom}
    {after last : Store} {calls : List Call} (h : store.createAtom id defaults = .ok atom after)
    (hcalls : Made after calls last) : Made store (.createAtom id defaults :: calls) last := by
  refine .cons ?_ ?_
  · rw [Call.Succeeds, h]
    trivial
  · rw [Call.run, h]
    exact hcalls

theorem made_reindex {count : Nat} {after : Store} (h : store.reindex = .ok count after) :
    Made store [.reindex] after := by
  refine .cons ?_ ?_
  · rw [Call.Succeeds, h]
    trivial
  · rw [Call.run, h]
    exact .nil after

/-- A command that is carried out has made its calls, all of which have succeeded. -/
theorem made_of_execute (htexts : Folder.TextsFrom earlier folder)
    (h : (command.execute options input folder store).result = .ok document) :
    Made store (command.calls options input earlier store)
      (command.execute options input folder store).store := by
  cases command with
  | create value =>
      rw [execute, createWith] at h ⊢
      cases hcreate : store.createAtom none options.visibility.defaults with
      | error cause after => simp [hcreate] at h
      | ok atom after =>
          simp only [hcreate] at h ⊢
          cases value with
          | none => exact made_createAtom hcreate (.nil after)
          | some value =>
              -- the value goes to the atom whose identifier was drawn next
              have hid : atom.id = store.supply.nextIdentifier := by
                rw [(Store.createAtom_eq_ok hcreate).1]
                rfl
              have hupdate := made_update 0 (failure_of_updating h)
              rw [hid] at hupdate ⊢
              exact made_createAtom hcreate hupdate
  | view id => exact .nil store
  | update id file =>
      rw [execute] at h ⊢
      rw [calls, note?]
      cases htext : noteText file input folder with
      | error fault => simp [htext] at h
      | ok text =>
          rw [noteText_of_textsFrom htexts htext]
          simp only [htext, updateFrom] at h ⊢
          cases hnote : Note.read text with
          | error cause => simp [hnote] at h
          | ok note =>
              simp only [hnote] at h ⊢
              exact made_update _ (failure_of_updating h)
  | search text => exact .nil store
  | query text => exact .nil store
  | roots => exact .nil store
  | reindex =>
      rw [execute] at h ⊢
      cases hrun : store.reindex with
      | error cause after => simp [hrun] at h
      | ok count after => exact made_reindex hrun

theorem made_of_serve (htexts : Folder.TextsFrom earlier folder)
    (h : (command.serve options input folder schema store).result = .ok document) :
    Made store (command.calls options input earlier store)
      (command.serve options input folder schema store).store := by
  rw [serve] at h ⊢
  cases hready : schema.checkReady with
  | error cause => simp [hready] at h
  | ok _ =>
      simp only [hready] at h ⊢
      exact made_of_execute htexts h

/-! ## The transaction -/

theorem store_of_commit {connection committed : Connection}
    (h : connection.commit = .ok committed) :
    ∃ references, committed.store = { connection.store with references } := by
  rw [Connection.commit] at h
  split at h
  · cases h
  · cases h
  · cases h
    exact ⟨_, rfl⟩

/-- A transaction ends in one of two ways: the command fails and the rows are what they were,
or it is carried out and they are what its calls have led to. -/
theorem transact_cases (command : Command) (options : Options) (input : String)
    (htexts : Folder.TextsFrom earlier folder) (schema : Database)
    (hcheck : store.references = .immediate) :
    (∃ failure supply,
      (command.transact options input folder schema store).result = .error failure ∧
      (command.transact options input folder schema store).store = { store with supply }) ∨
    ∃ document last references,
      (command.transact options input folder schema store).result = .ok document ∧
      Made { store with references := .deferred 0 }
        (command.calls options input earlier { store with references := .deferred 0 }) last ∧
      (command.transact options input folder schema store).store = { last with references } := by
  let begun : Store := { store with references := .deferred 0 }
  have hbegin : ({ store } : Connection).begin = .ok { store := begun, saved := some store } := by
    simp only [Connection.begin, hcheck, begun]
  rw [transact, hbegin]
  dsimp only
  cases hserve : (command.serve options input folder schema begun).result with
  | error failure => exact .inl ⟨failure, _, rfl, rfl⟩
  | ok document =>
      dsimp only
      cases hcommit : Connection.commit
          { store := (command.serve options input folder schema begun).store
            saved := some store } with
      | error cause => exact .inl ⟨_, _, rfl, rfl⟩
      | ok committed =>
          obtain ⟨references, hstore⟩ := store_of_commit hcommit
          exact .inr ⟨document, _, references, rfl, made_of_serve htexts hserve, hstore⟩

/-- The atom that is updated has no children. -/
def sampleNotes : Store where
  atoms := [{ id := .text "a", created := .integer 1000 }]

/-- The first child is stored before the second one turns out to have no name. -/
def sampleInput : String :=
  "\x7b\"value\": \"new\", \"children\": [\x7b\"value\": \"first\"\x7d, \x7b\"id\": \" \"\x7d]\x7d"

example : let command := Command.update "a" none
    (command.execute {} sampleInput { home := [] } sampleNotes).store.atoms.length = 2 ∧
    (command.transact {} sampleInput { home := [] } Schema.current sampleNotes).store.atoms =
      sampleNotes.atoms := by
  decide +kernel

end Command

/-! ## One run -/

/-- An invocation is for the database at a location. -/
def Invocation.IsFor (invocation : Invocation) (folder : Folder) (location : Location) : Prop :=
  invocation.database ≠ Program.unkept ∧ folder.locate invocation.database = location

namespace Program

/-- What a command line makes of the database at a location, and the status that it ends with.
The database that is opened is the one before, brought to the latest version. -/
inductive Settled (arguments : List String) (surroundings : Surroundings) (folder : Folder)
    (location : Location) (before : DatabaseFile) : Nat → DatabaseFile → Prop
  /-- The command line is refused, asks for help, or is for another database. -/
  | elsewhere {status : Nat}
      (h : ∀ invocation, Command.read arguments = .ok invocation →
        ¬invocation.IsFor folder location) :
      Settled arguments surroundings folder location before status before
  /-- The database cannot be opened. -/
  | unopened {invocation : Invocation} {cause : Schema.SchemaError} {status : Nat}
      (hread : Command.read arguments = .ok invocation) (hfor : invocation.IsFor folder location)
      (hopen : before.migrated = .error cause) (hstatus : status ≠ 0) :
      Settled arguments surroundings folder location before status before
  /-- The command fails: the database is as it was opened. -/
  | failed {invocation : Invocation} {opened after : DatabaseFile} {status : Nat}
      (hread : Command.read arguments = .ok invocation) (hfor : invocation.IsFor folder location)
      (hopen : before.migrated = .ok opened) (hstatus : status ≠ 0)
      (hcontent : after.content = opened.content) :
      Settled arguments surroundings folder location before status after
  /-- The command is carried out: all of its calls have succeeded, and the database is what they
  have led to. -/
  | carriedOut {invocation : Invocation} {opened after : DatabaseFile} {last : Store}
      (hread : Command.read arguments = .ok invocation) (hfor : invocation.IsFor folder location)
      (hopen : before.migrated = .ok opened)
      (hmade : Made (opened.begun surroundings.supply)
        (invocation.command.calls invocation.options surroundings.input folder
          (opened.begun surroundings.supply)) last)
      (hcontent : after.content = DatabaseFile.content { opened with store := last }) :
      Settled arguments surroundings folder location before 0 after

variable {arguments : List String} {surroundings : Surroundings} {folder : Folder}
  {location : Location} {before : DatabaseFile} {invocation : Invocation} {notice : String}
  {log : Log}

theorem database_eq (hfor : invocation.IsFor folder location)
    (h : folder.database? location = some before) :
    database invocation folder = before.migrated.mapError .schema := by
  obtain ⟨hkept, rfl⟩ := hfor
  rw [database, if_neg hkept, openDatabase]
  rw [Folder.database?] at h
  split at h
  · rename_i hentry
    cases h
    rw [hentry]
  · rename_i content hentry
    split at h
    · rename_i hempty
      cases h
      simp only [hentry, hempty, if_true]
    · cases h
  · cases h

theorem carryOut_elsewhere (hfor : ¬invocation.IsFor folder location) :
    (carryOut invocation surroundings notice log folder).2.database? location =
      folder.database? location := by
  have hplace : ∀ file, (place invocation file folder).database? location =
      folder.database? location := by
    intro file
    rw [place]
    split
    · rfl
    · rename_i hkept
      have hne : location ≠ folder.locate invocation.database := fun heq => hfor ⟨hkept, heq.symm⟩
      exact Folder.database?_put_of_ne hne _
  rw [carryOut]
  split
  · rfl
  · dsimp only
    split <;> exact hplace _

theorem free_of_database? (h : folder.database? location = some before) :
    folder.entry? location ≠ some .directory := by
  intro hdirectory
  rw [Folder.database?, hdirectory] at h
  cases h

theorem database?_place (hfor : invocation.IsFor folder location)
    (h : folder.database? location = some before) (file : DatabaseFile) :
    (place invocation file folder).database? location = some file := by
  obtain ⟨hkept, rfl⟩ := hfor
  rw [place, if_neg hkept]
  exact Folder.database?_put_self (free_of_database? h) file

theorem textsFrom_place (hfor : invocation.IsFor folder location)
    (h : folder.database? location = some before) (file : DatabaseFile) :
    Folder.TextsFrom folder (place invocation file folder) := by
  obtain ⟨hkept, rfl⟩ := hfor
  rw [place, if_neg hkept]
  exact Folder.textsFrom_put_database (free_of_database? h) file

theorem furnished_startLog (surroundings : Surroundings) (folder : Folder) :
    Folder.Furnished folder (startLog surroundings folder).2.2 := by
  rw [startLog]
  split
  · exact .refl folder
  · exact .refl folder
  · rename_i hinit
    exact Folder.furnished_initFromEnvironment hinit

theorem carryOut_settled {earlier : Folder} (hearlier : Folder.Furnished earlier folder)
    (hread : Command.read arguments = .ok invocation) (hfor : invocation.IsFor earlier location)
    (h : folder.database? location = some before) :
    ∃ after, (carryOut invocation surroundings notice log folder).2.database? location =
        some after ∧
      Settled arguments surroundings earlier location before
        (carryOut invocation surroundings notice log folder).1.status after := by
  have hfor' : invocation.IsFor folder location := ⟨hfor.1, by rw [hearlier.locate_eq, hfor.2]⟩
  rw [carryOut, database_eq hfor' h]
  cases hopen : before.migrated with
  | error cause => exact ⟨before, h, .unopened hread hfor hopen Nat.one_ne_zero⟩
  | ok opened =>
      dsimp only [Except.mapError]
      let store : Store :=
        { opened.store with supply := surroundings.supply, references := .immediate }
      have hcheck : store.references = .immediate := rfl
      have htexts := hearlier.textsFrom.trans (textsFrom_place hfor' h { opened with store })
      rcases Command.transact_cases invocation.command invocation.options surroundings.input htexts
        opened.schema hcheck with
        ⟨failure, supply, hresult, hstore⟩ | ⟨document, last, references, hresult, hmade, hstore⟩
      · rw [hresult, hstore]
        exact ⟨_, database?_place hfor' h _, .failed hread hfor hopen Nat.one_ne_zero rfl⟩
      · rw [hresult, hstore]
        exact ⟨_, database?_place hfor' h _, .carriedOut hread hfor hopen hmade rfl⟩

/-- A run leaves a database at the location, and settles it. -/
theorem run_settled (arguments : List String) (surroundings : Surroundings)
    (h : folder.database? location = some before) :
    ∃ after, (run arguments surroundings folder).2.database? location = some after ∧
      Settled arguments surroundings folder location before
        (run arguments surroundings folder).1.status after := by
  cases hread : Command.read arguments with
  | error refusal =>
      have hrefused : ∀ invocation, Command.read arguments = .ok invocation →
          ¬invocation.IsFor folder location := by
        rintro invocation hread'
        rw [hread] at hread'
        cases hread'
      have hfolder : (run arguments surroundings folder).2 = folder := by
        rw [run, hread]
        cases refusal <;> rfl
      rw [hfolder]
      exact ⟨before, h, .elsewhere hrefused⟩
  | ok invocation =>
      have hfurnished := furnished_startLog surroundings folder
      have hstarted := hfurnished.database?_eq h
      rw [run, hread]
      dsimp only
      by_cases hfor : invocation.IsFor folder location
      · exact carryOut_settled hfurnished hread hfor hstarted
      · have hother : ∀ other, Command.read arguments = .ok other →
            ¬other.IsFor folder location := by
          rintro other hother
          cases hread.symm.trans hother
          exact hfor
        refine ⟨before, ?_, .elsewhere hother⟩
        rw [carryOut_elsewhere (fun hfor' => hfor ⟨hfor'.1, ?_⟩), hstarted]
        rw [← hfurnished.locate_eq, hfor'.2]

/-! ## Many runs -/

/-- A command line with what surrounds it. -/
structure Invoked where
  arguments : List String
  surroundings : Surroundings

/-- The folder after a run. -/
def Invoked.after (folder : Folder) (invoked : Invoked) : Folder :=
  (run invoked.arguments invoked.surroundings folder).2

/-- What command lines, one after the other, make of the database at a location. -/
inductive History (location : Location) :
    Folder → DatabaseFile → List Invoked → DatabaseFile → Prop
  | nil (folder : Folder) (file : DatabaseFile) : History location folder file [] file
  | cons {folder : Folder} {before between after : DatabaseFile} {invoked : Invoked}
      {later : List Invoked}
      (h : Settled invoked.arguments invoked.surroundings folder location before
        (run invoked.arguments invoked.surroundings folder).1.status between)
      (hlater : History location (invoked.after folder) between later after) :
      History location folder before (invoked :: later) after

/-- Whatever command lines are run one after the other, a database stays where it is, and each
run settles it: a command that fails leaves what was opened, and one that is carried out leaves
what its calls have led to, all of which have succeeded.  The output of the runs is taken to be
writable, since a run reports on a command only after it has been settled. -/
theorem runs_settle (invoked : List Invoked) (h : folder.database? location = some before) :
    ∃ after, (invoked.foldl Invoked.after folder).database? location = some after ∧
      History location folder before invoked after := by
  induction invoked generalizing folder before with
  | nil => exact ⟨before, h, .nil folder before⟩
  | cons first later ih =>
      obtain ⟨between, hbetween, hsettled⟩ := run_settled first.arguments first.surroundings h
      obtain ⟨after, hafter, hlater⟩ := ih hbetween
      exact ⟨after, hafter, .cons hsettled hlater⟩

def sampleFile : DatabaseFile where
  schema := Schema.current
  store := Command.sampleNotes

def sampleFolder : Folder where
  home := ["home"]
  entries := [(["home", "db"], .database sampleFile)]

/-- An update that fails halfway, and a command that is carried out. -/
def sampleRuns : List Invoked := [
  { arguments := ["db", "update", "a"], surroundings := { input := Command.sampleInput } },
  { arguments := ["db", "create", "second"], surroundings := {} }]

theorem sample_runs_settle :
    sampleFolder.database? ["home", "db"] = some sampleFile ∧
    ∃ after, (sampleRuns.foldl Invoked.after sampleFolder).database? ["home", "db"] = some after ∧
      History ["home", "db"] sampleFolder sampleFile sampleRuns after :=
  ⟨rfl, runs_settle sampleRuns rfl⟩

end Program

end Outline
