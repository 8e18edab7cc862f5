import Outline.Log
import Outline.Proofs.Running

/-!
# What stays in a folder

A folder changes in two ways: something is put at a location, and directories are created
where nothing stood.  Either way, what stands at the other locations stays there.
-/

namespace Outline

namespace Folder

variable {folder before middle after : Folder} {location other : Location} {entry : Entry}
  {path text : String}

/-- The database at a location. An empty file is a database without tables. -/
def database? (folder : Folder) (location : Location) : Option DatabaseFile :=
  match folder.entry? location with
  | some (.database file) => some file
  | some (.text content) => if content = "" then some {} else none
  | _ => none

/-! ## Putting -/

theorem entry?_put_of_ne (hne : other ≠ location) (entry : Entry) :
    Folder.entry? (folder.put location entry) other = folder.entry? other := by
  have hfind : ((location, entry) :: folder.entries.filter fun e => e.1 != location).find?
      (fun e => e.1 == other) = folder.entries.find? fun e => e.1 == other := by
    rw [List.find?_cons_of_neg (by simpa using hne.symm), List.find?_filter]
    congr 1
    funext e
    by_cases he : e.1 = other <;> simp [he, hne]
  rw [put, entry?, entry?, hfind]

theorem entry?_put_self (hfree : folder.entry? location ≠ some .directory) (entry : Entry) :
    Folder.entry? (folder.put location entry) location = some entry := by
  have hhome : ¬location.isPrefixOf folder.home := by
    intro hhome
    unfold entry? at hfree
    rw [if_pos hhome] at hfree
    exact hfree rfl
  rw [put, entry?, if_neg hhome]
  simp

theorem database?_put_self (hfree : folder.entry? location ≠ some .directory)
    (file : DatabaseFile) :
    (folder.put location (.database file)).database? location = some file := by
  rw [database?, entry?_put_self hfree]

theorem database?_put_of_ne (hne : other ≠ location) (entry : Entry) :
    (folder.put location entry).database? other = folder.database? other := by
  rw [database?, database?, entry?_put_of_ne hne]

/-! ## Creating directories -/

/-- A folder with some more directories. -/
structure Furnished (before after : Folder) : Prop where
  home : after.home = before.home
  entry : ∀ location, after.entry? location = before.entry? location ∨
    before.entry? location = none ∧ after.entry? location = some .directory

theorem Furnished.refl (folder : Folder) : Furnished folder folder :=
  ⟨rfl, fun _ => .inl rfl⟩

theorem Furnished.trans (h : Furnished before middle) (h' : Furnished middle after) :
    Furnished before after := by
  refine ⟨h'.home.trans h.home, fun location => ?_⟩
  rcases h.entry location with heq | ⟨hnone, hdirectory⟩
  · rw [← heq]
    exact h'.entry location
  · rcases h'.entry location with heq | ⟨hnone', -⟩
    · exact .inr ⟨hnone, heq.trans hdirectory⟩
    · rw [hdirectory] at hnone'
      cases hnone'

theorem furnished_put (h : folder.entry? location = none) :
    Furnished folder (folder.put location .directory) := by
  refine ⟨rfl, fun other => ?_⟩
  by_cases hother : other = location
  · subst hother
    exact .inr ⟨h, entry?_put_self (by simp [h]) _⟩
  · exact .inl (entry?_put_of_ne hother _)

theorem furnished_foldlM {α : Type} {step : Folder → α → Except FileFault Folder}
    (hstep : ∀ folder a next, step folder a = .ok next → Furnished folder next) {xs : List α}
    (h : xs.foldlM step before = .ok after) : Furnished before after := by
  induction xs generalizing before with
  | nil =>
      cases h
      exact .refl _
  | cons a xs ih =>
      rw [List.foldlM_cons, except_bind_eq_ok] at h
      obtain ⟨next, hnext, h⟩ := h
      exact (hstep before a next hnext).trans (ih h)

theorem furnished_addDirectories (h : before.addDirectories location = .ok after) :
    Furnished before after := by
  refine furnished_foldlM (fun folder length next hnext => ?_) h
  dsimp only at hnext
  split at hnext
  · cases hnext
    exact .refl _
  · cases hnext
  · rename_i hnone
    cases hnext
    exact furnished_put hnone

theorem furnished_createDirectory (h : before.createDirectory path = .ok after) :
    Furnished before after := by
  rw [createDirectory] at h
  split at h
  · cases h
    exact .refl before
  · split at h
    · cases h
    · exact furnished_addDirectories h

theorem Furnished.locate_eq (h : Furnished before after) (path : String) :
    after.locate path = before.locate path := by
  rw [locate, locate, h.home]

theorem Furnished.database?_eq (h : Furnished before after) {file : DatabaseFile}
    (hfile : before.database? location = some file) : after.database? location = some file := by
  rcases h.entry location with heq | ⟨hnone, -⟩
  · rw [database?, heq]
    exact hfile
  · rw [database?, hnone] at hfile
    cases hfile

theorem furnished_start {settings : LogSettings} {log : Log}
    (h : Log.start settings before = .ok (log, after)) : Furnished before after := by
  rw [Log.start] at h
  split at h
  · cases h
  · rename_i hcreated
    cases h
    exact furnished_createDirectory hcreated

/-- Starting the log creates directories and nothing else. -/
theorem furnished_initFromEnvironment {directory level : Option String} {log : Log}
    (h : ({} : Log).initFromEnvironment directory level before = .ok (some (log, after))) :
    Furnished before after := by
  rw [Log.initFromEnvironment] at h
  split at h
  · cases h
  · rw [map_eq_pure_bind, except_bind_eq_ok] at h
    obtain ⟨started, hinit, h⟩ := h
    cases h
    rw [Log.init, except_bind_eq_ok] at hinit
    obtain ⟨settings, -, hstart⟩ := hinit
    exact furnished_start hstart

/-! ## Reading texts -/

theorem readText_eq_ok : folder.readText path = .ok text ↔
    folder.entry? (folder.locate path) = some (.text text) ∧ endsInSlash path = false := by
  rw [readText]
  split
  all_goals rename_i hentry; rw [hentry]
  · simp
  · simp
  · by_cases hslash : endsInSlash path <;> simp [hslash]
  · simp
  · simp

/-- Every text that is read in one folder is read in an earlier one too. -/
def TextsFrom (earlier later : Folder) : Prop :=
  ∀ path text, later.readText path = .ok text → earlier.readText path = .ok text

theorem TextsFrom.trans (h : TextsFrom before middle) (h' : TextsFrom middle after) :
    TextsFrom before after :=
  fun path text htext => h path text (h' path text htext)

theorem Furnished.textsFrom (h : Furnished before after) : TextsFrom before after := by
  intro path text htext
  rw [readText_eq_ok, h.locate_eq] at htext
  refine readText_eq_ok.mpr ⟨?_, htext.2⟩
  rcases h.entry (before.locate path) with heq | ⟨-, hdirectory⟩
  · rw [← heq]
    exact htext.1
  · rw [hdirectory] at htext
    cases htext.1

theorem textsFrom_put_database (hfree : before.entry? location ≠ some .directory)
    (file : DatabaseFile) : TextsFrom before (before.put location (.database file)) := by
  intro path text htext
  rw [readText_eq_ok] at htext
  refine readText_eq_ok.mpr ⟨?_, htext.2⟩
  by_cases hpath : before.locate path = location
  · have hentry : Folder.entry? (before.put location (.database file)) location =
        some (.text text) :=
      hpath ▸ htext.1
    rw [entry?_put_self hfree] at hentry
    cases hentry
  · rw [← entry?_put_of_ne hpath (.database file)]
    exact htext.1

end Folder

end Outline
