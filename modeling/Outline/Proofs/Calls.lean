import Outline.Proofs.AtomRows
import Outline.Proofs.Invariants

/-!
# Stores that calls lead to

Starting from a store without rows, calls are made one after the other with any
arguments.  A call that fails keeps what it had changed before, and the next one
starts from there.  Every store on the way is well formed.
-/

namespace Outline

/-- A call that may change a store. -/
inductive Call where
  | createAtom (id : Option AtomId) (defaults : Defaults)
  | updateAtom (atom : Atom)
  | removeAtom (id : AtomId)
  | insertAt (owner : AtomId) (position : Nat) (child : AtomId)
  | deleteAt (owner : AtomId) (position : Nat)
  | updateAtRoot (visibility : Visibility) (id : AtomId) (depth : Depth) (note : Note)
  | updateAtAtom (visibility : Visibility) (id : Option AtomId) (depth : Depth) (note : Note)
  | reindex

/-- The store after a call, whether it succeeds or fails. -/
def Call.run (store : Store) : Call → Store
  | .createAtom id defaults => finalState (store.createAtom id defaults)
  | .updateAtom atom => finalState (Store.updateAtom atom store)
  | .removeAtom id => finalState (Store.removeAtom id store)
  | .insertAt owner position child => finalState (Store.insertAt owner position child store)
  | .deleteAt owner position => finalState (Store.deleteAt owner position store)
  | .updateAtRoot visibility id depth note =>
    (Update.atRoot visibility id depth.levels note store).progress.store
  | .updateAtAtom visibility id depth note =>
    (Update.atAtom visibility id depth.levels note store).progress.store
  | .reindex => finalState (Store.reindex store)

namespace Store

variable {store : Store}

theorem wellFormed_keptByOperations : KeptByOperations WellFormed where
  createAtom := keeps_wellFormed_createAtom
  updateAtom := keeps_wellFormed_updateAtom
  insertAt := keeps_wellFormed_insertAt
  deleteAt := keeps_wellFormed_deleteAt
  indexText _ _ _ h := h.indexText

/-- A store without rows is well formed. -/
theorem wellFormed_empty (references : ReferenceCheck) (supply : Supply) :
    ({ references, supply } : Store).WellFormed := by
  have harranged : ({ references, supply } : Store).Arranged fun _ => [] := by
    constructor <;> simp
  exact harranged.wellFormed rfl

/-- A call leaves a well-formed store well formed, also when it fails. -/
theorem WellFormed.run (h : store.WellFormed) (call : Call) : (Call.run store call).WellFormed := by
  have hsteps {visibility : Visibility} :
      Update.KeptBySteps visibility (Update.OfStore WellFormed) :=
    Update.keptBySteps_ofStore wellFormed_keptByOperations visibility
  cases call with
  | createAtom id defaults => exact keeps_wellFormed_createAtom id defaults store h
  | updateAtom atom => exact keeps_wellFormed_updateAtom atom store h
  | removeAtom id => exact keeps_wellFormed_removeAtom id store h
  | insertAt owner position child => exact keeps_wellFormed_insertAt owner position child store h
  | deleteAt owner position => exact keeps_wellFormed_deleteAt owner position store h
  | updateAtRoot visibility id depth note =>
      exact Update.atRootWith_keeps hsteps _ id _ note store h
  | updateAtAtom visibility id depth note =>
      exact Update.atAtomWith_keeps hsteps _ id _ note store h
  | reindex => exact keeps_wellFormed_reindex store h

/-- Whatever calls are made, in whatever order and with whatever arguments, and
whether they succeed or fail, the store is well formed: its pointers resolve,
its lists end, they share no cell, and no cell is left over. -/
theorem wellFormed_of_calls (references : ReferenceCheck) (supply : Supply) (calls : List Call) :
    (calls.foldl Call.run { references, supply }).WellFormed := by
  have hrun : ∀ store : Store, store.WellFormed → (calls.foldl Call.run store).WellFormed := by
    induction calls with
    | nil => exact fun _ h => h
    | cons call calls ih => exact fun store h => ih (Call.run store call) (h.run call)
  exact hrun _ (wellFormed_empty references supply)

end Store

end Outline
