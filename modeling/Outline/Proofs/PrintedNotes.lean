import Outline.Proofs.NotesReadBack
import Outline.Proofs.Transactions

/-!
# What is shown and what is updated from

A run that shows an atom prints the document of a note.  An update reads this note back
from what was printed, wherever the text goes in between.
-/

namespace Outline

namespace Command

variable {options : Options} {id : AtomId} {file : Option String} {input text : String}
  {folder : Folder} {schema : Database} {store : Store} {note : Note} {document : Json}

/-- Updates an atom by a note. -/
def updateBy (options : Options) (id : AtomId) (note : Note) (store : Store) : Ending :=
  let outcome := Update.atRoot options.visibility id options.depth.levels note store
  let document := Json.record
    [("note", outcome.notes.toSortedJson), ("stats", outcome.progress.stats.toJson)]
  { updating outcome document with events := outcome.progress.events }

theorem execute_update_of_read (htext : noteText file input folder = .ok text)
    (hnote : Note.read text = .ok note) :
    (update id file).execute options input folder store = updateBy options id note store := by
  simp only [execute, htext, updateFrom, hnote, updateBy]

/-- A view changes nothing, so its transaction ends with the document of the note. -/
theorem result_of_transact_view (hcheck : store.references = .immediate) :
    ((view id).transact options input folder schema store).result = .ok document ↔
      schema.checkReady = .ok () ∧ ∃ note,
        Store.viewAt { store with references := .deferred 0 } options.visibility
          options.adjacency options.depth.levels id = .ok note ∧ note.toJson = document := by
  let begun : Store := { store with references := .deferred 0 }
  have hbegin : ({ store } : Connection).begin = .ok { store := begun, saved := some store } := by
    simp only [Connection.begin, hcheck, begun]
  rw [transact, hbegin]
  dsimp only [serve]
  cases hready : schema.checkReady with
  | error cause => simp
  | ok _ =>
      simp only [execute, viewWith, looking]
      cases begun.viewAt options.visibility options.adjacency options.depth.levels id with
      | error cause => simp [Except.mapError, Except.map]
      | ok note => simp [Except.mapError, Except.map, Connection.commit, begun]

end Command

namespace Program

variable {arguments : List String} {surroundings : Surroundings} {folder : Folder}
  {invocation : Invocation} {id : AtomId} {note : Note}

/-- A run shows a note: the note is the view of an atom in the database that is opened. -/
structure Shows (arguments : List String) (surroundings : Surroundings) (folder : Folder)
    (invocation : Invocation) (id : AtomId) (note : Note) : Prop where
  read : Command.read arguments = .ok invocation
  command : invocation.command = .view id
  view : ∃ file, database invocation (startLog surroundings folder).2.2 = .ok file ∧
    file.schema.checkReady = .ok () ∧
    (file.begun surroundings.supply).viewAt invocation.options.visibility
      invocation.options.adjacency invocation.options.depth.levels id = .ok note

/-- A view that is carried out shows a note. -/
theorem exists_shows (hread : Command.read arguments = .ok invocation)
    (hcommand : invocation.command = .view id)
    (hstatus : (run arguments surroundings folder).1.status = 0) :
    ∃ note, Shows arguments surroundings folder invocation id note := by
  rw [run, hread] at hstatus
  dsimp only at hstatus
  rw [carryOut] at hstatus
  cases hfile : database invocation (startLog surroundings folder).2.2 with
  | error failure =>
      rw [hfile] at hstatus
      cases hstatus
  | ok file =>
      rw [hfile] at hstatus
      dsimp only at hstatus
      split at hstatus
      · cases hstatus
      · rename_i document hdocument
        rw [hcommand] at hdocument
        obtain ⟨hready, note, hnote, -⟩ := (Command.result_of_transact_view rfl).mp hdocument
        exact ⟨note, hread, hcommand, file, hfile, hready, hnote⟩

/-- A run that shows a note is carried out, and prints the document of the note. -/
theorem output_of_shows (h : Shows arguments surroundings folder invocation id note) :
    (run arguments surroundings folder).1.status = 0 ∧
      (run arguments surroundings folder).1.output = note.toJson.indented ++ "\n" := by
  obtain ⟨hread, hcommand, file, hfile, hready, hnote⟩ := h
  have hresult (folder : Folder) : (invocation.command.transact invocation.options
      surroundings.input folder file.schema
      { file.store with supply := surroundings.supply, references := .immediate }).result =
      .ok note.toJson := by
    rw [hcommand]
    exact (Command.result_of_transact_view rfl).mpr ⟨hready, note, hnote, rfl⟩
  rw [run, hread]
  dsimp only
  rw [carryOut, hfile]
  dsimp only
  rw [hresult]
  exact ⟨rfl, rfl⟩

end Program

namespace Note

/-- A note of at most 64 levels is read back from its document, compact or indented: so an update
by what a view has printed is an update by the note that was shown. -/
theorem read_written {note : Note} (hlevels : note.WithinLevels 63)
    (hfit : ∀ part : Note, part.Within note → part.NumbersFit) :
    read note.toJson.compact = .ok note ∧
      read note.toJson.indented = .ok note ∧
      ∀ arguments surroundings earlier invocation shown,
        Program.Shows arguments surroundings earlier invocation shown note →
        ∀ options id file input folder store,
          Command.noteText file input folder =
            .ok (Program.run arguments surroundings earlier).1.output →
          (Command.update id file).execute options input folder store =
            Command.updateBy options id note store := by
  refine ⟨read_compact hlevels hfit, ?_, ?_⟩
  · have h := read_indented_append hlevels hfit Json.isGap_nil
    rwa [String.ofList_nil, String.append_empty] at h
  · intro arguments surroundings earlier invocation shown hshows options id file input folder store
      htext
    have hgap : Json.IsGap ['\n'] := by simp [Json.IsGap, Json.isSpace]
    have hend : "\n" = String.ofList ['\n'] := rfl
    rw [(Program.output_of_shows hshows).2, hend] at htext
    exact Command.execute_update_of_read htext (read_indented_append hlevels hfit hgap)

/-- An atom with quotes, control characters and small numbers, and one with the largest single. -/
def sampleKept : Store where
  atoms := [
    { id := .text "a", value := some (.text "\"\\\n\x00\x1f é"), byname := some (.text "tab\t"),
      created := .integer 1700000000000, sharability := some (.single ⟨0x33d6bf95⟩),
      weight := some (.single ⟨0x3dcccccd⟩), notes := some (.text "c") },
    { id := .text "b", created := .integer 0, weight := some (.single ⟨0x7f7fffff⟩) }]
  cells := [{ id := .text "c", first := .text "b" }]

def sampleFolder : Folder where
  home := ["home"]
  entries := [(["home", "db"], .database { schema := Schema.current, store := sampleKept })]

/-- The first atom of the sample with the second one under it. -/
def sampleShown : Note where
  id := some "a"
  value := some "\"\\\n\x00\x1f é"
  byname := some "tab\t"
  weight := some ⟨0x3dcccccd⟩
  sharability := some ⟨0x33d6bf95⟩
  created := some 1700000000000
  children := [{ id := some "b", weight := some ⟨0x7f7fffff⟩, created := some 0 }]

theorem sampleShown_shown :
    Program.Shows ["db", "view", "a"] {} sampleFolder
      { database := "db", options := {}, command := .view "a" } "a" sampleShown where
  read := rfl
  command := rfl
  view := by
    -- The path has no slash: it is read to its end, two steps on.
    have hnames : "db".splitOn "/" = ["db"] := by
      rw [String.splitOn, if_neg (by decide)]
      iterate 2 rw [String.splitOnAux, if_neg (by decide), if_neg (by decide)]
      rw [String.splitOnAux, if_pos (by decide)]
      rfl
    have hlocate : sampleFolder.locate "db" = ["home", "db"] := by
      rw [Folder.locate, pathNames, hnames]
      decide
    have hfolder : (Program.startLog {} sampleFolder).2.2 = sampleFolder := rfl
    have hkept : "db" ≠ Program.unkept := by decide
    refine ⟨{ schema := Schema.current, store := sampleKept }, ?_, rfl, ?_⟩
    · rw [Program.database, if_neg hkept, Program.openDatabase, hfolder, hlocate]
      rfl
    · with_unfolding_all rfl

theorem numbersFit_sampleShown :
    ∀ part : Note, part.Within sampleShown → part.NumbersFit := by
  refine forall_within (by decide +kernel) (List.forall_mem_singleton.mpr ?_)
  exact forall_within (by decide +kernel) (List.forall_mem_nil _)

/-- What the run prints of the sample is read back, and another atom is updated by it. -/
theorem sample_read_written :
    sampleShown.WithinLevels 63 ∧ (∀ part : Note, part.Within sampleShown → part.NumbersFit) ∧
      read sampleShown.toJson.compact = .ok sampleShown ∧
      read sampleShown.toJson.indented = .ok sampleShown ∧
      (Command.update "b" none).execute {}
          (Program.run ["db", "view", "a"] {} sampleFolder).1.output sampleFolder sampleKept =
        Command.updateBy {} "b" sampleShown sampleKept := by
  have hlevels : sampleShown.WithinLevels 63 :=
    List.forall_mem_singleton.mpr (List.forall_mem_nil _)
  obtain ⟨hcompact, hindented, hupdate⟩ := read_written hlevels numbersFit_sampleShown
  exact ⟨hlevels, numbersFit_sampleShown, hcompact, hindented,
    hupdate _ _ _ _ _ sampleShown_shown _ _ _ _ _ _ rfl⟩

end Note

end Outline
