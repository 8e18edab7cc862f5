import Outline.Proofs.UpdateSteps

/-!
# Updates without a log

An update writes to its log and never reads it.  So it goes the same way without
one: the notes, the store, the counts and the failure are the same.
-/

namespace Outline

/-- The progress without its log. -/
def Progress.silent (progress : Progress) : Progress :=
  { progress with log := none }

@[simp] theorem Progress.store_silent (progress : Progress) :
    progress.silent.store = progress.store := rfl

namespace Update

open Progress

/-- How a step ends, without its log. -/
def silence {α : Type} : EStateM.Result NoteError Progress α → EStateM.Result NoteError Progress α
  | .ok a progress => .ok a progress.silent
  | .error cause progress => .error cause progress.silent

/-- Whether a step goes the same way without a log. -/
def IgnoresLog {α : Type} (x : UpdateM α) : Prop :=
  ∀ progress : Progress, x progress.silent = silence (x progress)

variable {α β : Type} {visibility : Visibility}

/-! ## One level -/

theorem IgnoresLog.pure (a : α) : IgnoresLog (Pure.pure a : UpdateM α) :=
  fun _ => rfl

theorem IgnoresLog.bind {x : UpdateM α} {f : α → UpdateM β} (hx : IgnoresLog x)
    (hf : ∀ a, IgnoresLog (f a)) : IgnoresLog (x >>= f) := by
  intro progress
  have hsilent := hx progress
  cases hrun : x progress with
  | ok a progress' =>
      rw [hrun] at hsilent
      rw [bind_of_ok hrun, bind_of_ok hsilent]
      exact hf a progress'
  | error cause progress' =>
      rw [hrun] at hsilent
      rw [bind_of_error hrun, bind_of_error hsilent]
      rfl

theorem IgnoresLog.ite {c : Prop} [Decidable c] {x y : UpdateM α} (hx : IgnoresLog x)
    (hy : IgnoresLog y) : IgnoresLog (if c then x else y) := by
  split
  · exact hx
  · exact hy

theorem ignoresLog_onStore (action : StoreM α) : IgnoresLog (onStore action) := by
  intro progress
  change onStore action { progress with log := none } = _
  rw [onStore, onStore]
  cases action progress.store <;> rfl

theorem ignoresLog_record (event : Event) : IgnoresLog (record event) :=
  fun _ => rfl

theorem ignoresLog_count (change : UpdateStats → UpdateStats) : IgnoresLog (count change) :=
  fun _ => rfl

theorem ignoresLog_indexText (id : AtomId) (text : String) : IgnoresLog (indexText id text) :=
  fun _ => rfl

theorem ignoresLog_storeProperties (id : AtomId) (note : Note) :
    IgnoresLog (storeProperties id note) := by
  refine (ignoresLog_onStore _).bind fun stored => ?_
  extract_lets atom changesValue changesOthers finish recordOthers recordValue
  have hfinish : ∀ u, IgnoresLog (finish u) := fun _ => IgnoresLog.pure _
  have hothers : ∀ u, IgnoresLog (recordOthers u) := fun _ =>
    ((ignoresLog_record _).bind hfinish).ite (hfinish ())
  have hvalue : ∀ u, IgnoresLog (recordValue u) := by
    intro _
    refine IgnoresLog.ite ((ignoresLog_record _).bind fun _ => ?_) (hothers ())
    split
    · exact (ignoresLog_indexText _ _).bind hothers
    · exact hothers ()
  exact ((ignoresLog_onStore _).bind hvalue).ite (hvalue ())

theorem ignoresLog_perform (action : StoreM α) (event : α → Event)
    (change : UpdateStats → UpdateStats) (answer : α → β) :
    IgnoresLog (perform action event change answer) :=
  (ignoresLog_onStore _).bind fun _ =>
    (ignoresLog_record _).bind fun _ => (ignoresLog_count _).bind fun _ => IgnoresLog.pure _

theorem ignoresLog_findOrCreate (visibility : Visibility) (id : Option AtomId) :
    IgnoresLog (findOrCreate visibility id) := by
  cases id with
  | none => exact ignoresLog_perform _ _ _ _
  | some id =>
      refine (ignoresLog_onStore _).bind fun existing => ?_
      cases existing with
      | some atom => exact IgnoresLog.pure _
      | none => exact ignoresLog_perform _ _ _ _

theorem ignoresLog_applyEdit (visibility : Visibility) (parent : AtomId) (slots : List Slot)
    (edit : Edit) : IgnoresLog (applyEdit visibility parent slots edit) := by
  cases edit with
  | delete position index => exact ignoresLog_perform _ _ _ _
  | insert position index =>
      cases hslot : slots[index]? with
      | none =>
          rw [applyEdit, hslot]
          exact IgnoresLog.pure _
      | some slot =>
          rw [applyEdit_insert_eq visibility parent position hslot]
          exact (ignoresLog_findOrCreate visibility _).bind fun _ => ignoresLog_perform _ _ _ _

theorem applyScript_silent (parent : AtomId) (edits : List Edit) (slots : List Slot)
    (progress : Progress) :
    applyScript visibility parent edits slots progress.silent =
      ((applyScript visibility parent edits slots progress).1,
        (applyScript visibility parent edits slots progress).2.1,
        (applyScript visibility parent edits slots progress).2.2.silent) := by
  induction edits generalizing slots progress with
  | nil => rfl
  | cons edit edits ih =>
      rw [applyScript, applyScript, ignoresLog_applyEdit]
      cases applyEdit visibility parent slots edit progress with
      | ok slots progress' => exact ih slots progress'
      | error cause progress' => rfl

theorem editList_silent (parent : Atom) (children : List Note) (progress : Progress) :
    editList visibility parent children progress.silent =
      ((editList visibility parent children progress).1,
        (editList visibility parent children progress).2.1,
        (editList visibility parent children progress).2.2.silent) := by
  rw [editList, editList, Progress.store_silent]
  cases progress.store.sequence parent with
  | error cause => rfl
  | ok atoms => exact applyScript_silent parent.id _ _ progress

/-! ## All levels -/

/-- Where an update ended, without its log. -/
def Outcome.silent (outcome : Outcome α) : Outcome α :=
  { outcome with progress := outcome.progress.silent }

mutual

theorem applyNote_silent (id : AtomId) (depth : Nat) (progress : Progress) (note : Note) :
    applyNote visibility id depth progress.silent note =
      (applyNote visibility id depth progress note).silent := by
  cases note with
  | mk own value byname weight sharability created children =>
      rw [applyNote, applyNote, ignoresLog_storeProperties]
      cases storeProperties id
        { id := own, value, byname, weight, sharability, created, children } progress with
      | error cause progress' => rfl
      | ok atom progress' =>
          cases depth with
          | zero => rfl
          | succ depth =>
              dsimp only [silence]
              rw [editList_silent]
              by_cases hshows : visibility.shows atom
              · rw [if_pos hshows, if_pos hshows]
                rcases editList visibility atom children progress' with ⟨failure, slots, progress₂⟩
                cases failure with
                | some cause => rfl
                | none =>
                    have hbelow := applyChildren_silent depth progress₂ slots children
                    dsimp only
                    rw [hbelow]
                    rfl
              · rw [if_neg hshows, if_neg hshows]
                cases children <;> rfl

theorem applyChildren_silent (depth : Nat) (progress : Progress) (slots : List Slot)
    (children : List Note) :
    applyChildren visibility depth progress.silent slots children =
      (applyChildren visibility depth progress slots children).silent := by
  cases children with
  | nil => rfl
  | cons child children =>
      cases slots with
      | nil => rfl
      | cons slot slots =>
          rw [applyChildren, applyChildren]
          cases slot.id with
          | none => rfl
          | some id =>
              dsimp only
              rw [applyNote_silent]
              generalize applyNote visibility id (if slot.isInserted then 0 else depth) progress
                child = first
              obtain ⟨notes, progress', failure⟩ := first
              cases failure with
              | some cause => rfl
              | none =>
                  have hrest := applyChildren_silent depth progress' slots children
                  dsimp only [Outcome.silent] at hrest ⊢
                  rw [hrest]

end

/-- An update without a log ends as it does with one. -/
theorem atAtomWith_none (log : Option (List Event)) (id : Option AtomId) (depth : Nat) (note : Note)
    (store : Store) :
    atAtomWith none visibility id depth note store =
      (atAtomWith log visibility id depth note store).silent := by
  cases id with
  | none => rfl
  | some id => exact applyNote_silent id depth { store, log } note

theorem atRootWith_none (log : Option (List Event)) (id : AtomId) (depth : Nat) (note : Note)
    (store : Store) :
    atRootWith none visibility id depth note store =
      (atRootWith log visibility id depth note store).silent := by
  rw [atRootWith, atRootWith]
  split
  · rfl
  · rfl
  · exact atAtomWith_none log _ depth note store

end Update

end Outline
