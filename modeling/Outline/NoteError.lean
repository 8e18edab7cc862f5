import Outline.PropertyQuery
import Outline.Search.Request

/-!
# Failures of views, updates and listings

A view, update or listing fails for a reason of its own or because the store, the search or the
query below it fails.
-/

namespace Outline

/-- Why an update is not carried out. -/
inductive UpdateFault where
  /-- There is no atom to update. -/
  | noRoot
  | unknownRoot (id : AtomId)
  /-- Notes are given under an atom that is not shown. -/
  | hidden (id : AtomId)
  /-- A note that was kept has no identifier. -/
  | unnamed
  deriving DecidableEq

def UpdateFault.message : UpdateFault → String
  | .noRoot => "null update root"
  | .unknownRoot id => "no such root atom: " ++ id
  | .hidden id => "children supplied for hidden atom " ++ id
  | .unnamed => "child note left without an atom id"

/-- Why a view, an update or a listing fails. -/
inductive NoteError where
  /-- There is no atom to view. -/
  | noRoot
  | invalidUpdate (fault : UpdateFault)
  | noAtom (id : AtomId)
  | unknownStyle (name : String)
  | store (cause : StoreError)
  | search (cause : SearchError)
  | query (cause : QueryError)
  deriving DecidableEq

def NoteError.message : NoteError → String
  | .noRoot => "view root is missing"
  | .invalidUpdate fault => "invalid update: " ++ fault.message
  | .noAtom id => "no such atom: " ++ id
  | .unknownStyle name => "unknown adjacency style: " ++ name
  | .store cause => cause.message
  | .search cause => cause.message
  | .query cause => cause.message

end Outline
