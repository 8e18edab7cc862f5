import Outline.Adjacency
import Outline.Note
import Outline.Visibility

/-!
# Views

A view is the tree of notes around an atom down to a height. Every neighbour is listed, in the order
of the relation walked; a neighbour that is not shown has no children, whatever the height.
-/

namespace Outline.Store

/-- The view of an atom that the walk reached from `parent`. -/
def view (store : Store) (visibility : Visibility) (adjacency : Adjacency) :
    (height : Nat) → (parent : Option Atom) → Atom → Except StoreError Note
  | 0, _, atom => .ok (.ofAtom atom)
  | height + 1, parent, atom => do
    let neighbours ← adjacency.linked store atom parent
    let children ← neighbours.mapM fun neighbour =>
      if visibility.shows neighbour then
        store.view visibility adjacency height (some atom) neighbour
      else .ok (.ofAtom neighbour)
    return { Note.ofAtom atom with children }

end Outline.Store
