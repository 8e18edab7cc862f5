import Outline.Proofs.NotesReadBack

/-!
# How deep notes are nested

However a note is written, reading it opens no more lists and objects inside each other
than are allowed.  So what is read has at most sixty-four levels of notes, which is also
how many levels of notes are read back: the bound on both is the same.
-/

namespace Outline.Note

open Json

variable {note partly : Note} {levels limit : Nat} {s t rest : List Char} {isFirst : Bool}
  {field : Field} {fields seen : List Field} {children : List Note}

/-- A note takes no more than some levels of brackets: one for itself, and two for every level of
notes below it. -/
def Takes (levels : Nat) (note : Note) : Prop :=
  0 < levels ∧ note.WithinLevels ((levels - 1) / 2)

/-- Inside its own brackets, a note takes no more than some levels of brackets. -/
def TakesInside (levels : Nat) (note : Note) : Prop :=
  ∀ child ∈ note.children, child.Takes (levels - 1)

theorem withinLevels_of_children_eq_nil (h : note.children = []) (n : Nat) :
    note.WithinLevels n := by
  cases n with
  | zero => exact h
  | succ n => exact fun child hchild => absurd (h ▸ hchild) List.not_mem_nil

theorem takesInside_empty (levels : Nat) : TakesInside levels {} :=
  List.forall_mem_nil _

theorem TakesInside.takes (h : note.TakesInside levels) : note.Takes (levels + 1) := by
  refine ⟨Nat.succ_pos levels, ?_⟩
  cases hchildren : note.children with
  | nil => exact withinLevels_of_children_eq_nil hchildren _
  | cons child children =>
      have hpos : 0 < levels - 1 := (h child (hchildren ▸ List.mem_cons_self)).1
      have hhalf : (levels + 1 - 1) / 2 = (levels - 1 - 1) / 2 + 1 := by omega
      rw [hhalf]
      exact fun child hchild => (h child hchild).2

/-- With a bound on the number of parts, no reader goes deeper than is allowed. -/
structure ReadsNested (limit : Nat) : Prop where
  note : ∀ {levels s note rest}, readNote limit levels s = .ok (note, rest) → note.Takes levels
  members : ∀ {levels isFirst seen partly s note rest},
    readMembers limit levels isFirst seen partly s = .ok (note, rest) →
    partly.TakesInside levels → note.TakesInside levels
  elements : ∀ {levels fields partly s note rest},
    readElements limit levels fields partly s = .ok (note, rest) →
    partly.TakesInside levels → note.TakesInside levels
  field : ∀ {levels field partly s note rest},
    readField limit levels field partly s = .ok (note, rest) →
    partly.TakesInside levels → note.TakesInside levels
  children : ∀ {levels isFirst s children rest},
    readChildren limit levels isFirst s = .ok (children, rest) →
    ∀ child ∈ children, child.Takes levels

theorem takes_of_readNote (ih : ReadsNested limit)
    (h : readNote (limit + 1) levels s = .ok (note, rest)) : note.Takes levels := by
  rw [readNote.eq_def] at h
  dsimp only at h
  split at h
  · cases h
  · split_ifs at h
    · split at h
      · cases h
      · exact (ih.members h (takesInside_empty _)).takes
    · split at h
      · cases h
      · exact (ih.elements h (takesInside_empty _)).takes

theorem takesInside_of_readMembers (ih : ReadsNested limit)
    (h : readMembers (limit + 1) levels isFirst seen partly s = .ok (note, rest))
    (hpartly : partly.TakesInside levels) : note.TakesInside levels := by
  rw [readMembers] at h
  obtain ⟨⟨found, t⟩, -, h⟩ := except_bind_eq_ok.mp h
  dsimp only at h
  split at h
  · cases h
    exact hpartly
  · obtain ⟨⟨name, u⟩, -, h⟩ := except_bind_eq_ok.mp h
    dsimp only at h
    split at h
    · obtain ⟨v, -, h⟩ := except_bind_eq_ok.mp h
      obtain ⟨w, -, h⟩ := except_bind_eq_ok.mp h
      exact ih.members h hpartly
    · split_ifs at h
      · cases h
      · obtain ⟨v, -, h⟩ := except_bind_eq_ok.mp h
        obtain ⟨⟨next, w⟩, hfield, h⟩ := except_bind_eq_ok.mp h
        exact ih.members h (ih.field hfield hpartly)
  · cases h

theorem takesInside_of_readElements (ih : ReadsNested limit)
    (h : readElements (limit + 1) levels fields partly s = .ok (note, rest))
    (hpartly : partly.TakesInside levels) : note.TakesInside levels := by
  cases fields with
  | nil =>
      rw [readElements] at h
      split at h
      · cases h
        exact hpartly
      · cases h
      · cases h
  | cons field fields =>
      rw [readElements] at h
      obtain ⟨⟨found, t⟩, -, h⟩ := except_bind_eq_ok.mp h
      dsimp only at h
      split at h
      · cases h
        exact hpartly
      · obtain ⟨⟨next, u⟩, hfield, h⟩ := except_bind_eq_ok.mp h
        exact ih.elements h (ih.field hfield hpartly)

/-- Only the children of a note take brackets. -/
theorem takesInside_of_readField
    (hchildren : ∀ {smaller inner isFirst s children rest}, smaller < limit →
      readChildren smaller inner isFirst s = .ok (children, rest) →
      ∀ child ∈ children, child.Takes inner)
    (h : readField limit levels field partly s = .ok (note, rest))
    (hpartly : partly.TakesInside levels) : note.TakesInside levels := by
  cases field with
  | children =>
      obtain _ | limit := limit
      · rw [readField.eq_def] at h
        cases h
      · rw [readField.eq_def] at h
        dsimp only at h
        split at h
        · cases h
        · obtain ⟨⟨children, t⟩, hread, heq⟩ := except_bind_eq_ok.mp h
          cases heq
          exact hchildren (Nat.lt_succ_self limit) hread
        · cases h
  | _ =>
      rw [readField] at h
      obtain ⟨⟨x, t⟩, -, heq⟩ := except_bind_eq_ok.mp h
      cases heq
      exact hpartly

theorem takes_of_readChildren (ih : ReadsNested limit)
    (h : readChildren (limit + 1) levels isFirst s = .ok (children, rest)) :
    ∀ child ∈ children, child.Takes levels := by
  rw [readChildren] at h
  obtain ⟨⟨found, t⟩, -, h⟩ := except_bind_eq_ok.mp h
  dsimp only at h
  split at h
  · cases h
    exact List.forall_mem_nil _
  · obtain ⟨⟨child, u⟩, hchild, h⟩ := except_bind_eq_ok.mp h
    obtain ⟨⟨more, v⟩, hmore, heq⟩ := except_bind_eq_ok.mp h
    cases heq
    exact List.forall_mem_cons.mpr ⟨ih.note hchild, ih.children hmore⟩

theorem readsNested (limit : Nat) : ReadsNested limit := by
  -- Each reader leaves fewer parts to the others, and fields are read at any bound.
  induction limit using Nat.strongRecOn with
  | ind limit ih =>
      have hfield {levels : Nat} {field : Field} {partly note : Note} {s rest : List Char}
          (h : readField limit levels field partly s = .ok (note, rest)) :
          partly.TakesInside levels → note.TakesInside levels :=
        takesInside_of_readField (fun hlt => (ih _ hlt).children) h
      cases limit with
      | zero =>
          refine ⟨fun h => ?_, fun h => ?_, fun h => ?_, hfield, fun h => ?_⟩
          · rw [readNote] at h
            cases h
          · rw [readMembers] at h
            cases h
          · rw [readElements] at h
            cases h
          · rw [readChildren] at h
            cases h
      | succ limit =>
          have ih := ih limit (Nat.lt_succ_self limit)
          exact ⟨takes_of_readNote ih, takesInside_of_readMembers ih,
            takesInside_of_readElements ih, hfield, takes_of_readChildren ih⟩

/-- A note that is read has at most sixty-four levels. -/
theorem withinLevels_of_read {text : String} (h : read text = .ok note) :
    note.WithinLevels 63 := by
  obtain ⟨⟨shown, rest⟩, hread, h⟩ := except_bind_eq_ok.mp h
  dsimp only at h
  split_ifs at h
  cases h
  exact ((readsNested _).note hread).2

/-- The notes that are read back from their documents are those of at most sixty-four levels. -/
theorem read_compact_iff (hfit : ∀ part : Note, part.Within note → part.NumbersFit) :
    read note.toJson.compact = .ok note ↔ note.WithinLevels 63 :=
  ⟨withinLevels_of_read, fun hlevels => read_compact hlevels hfit⟩

end Outline.Note
