import Outline.Store.Basic

/-!
# Writing the full-text index

Each atom has at most one entry in the index. Writing an entry never fails: if the table of the
index does not exist, nothing is written.
-/

namespace Outline.Store

/-- Makes a text the entry of an atom. -/
def indexText (id : AtomId) (text : String) (store : Store) : Store :=
  { store with
    index := store.index.map fun entries =>
      entries.filter (·.atom != id) ++ [{ atom := id, text }] }

end Outline.Store
