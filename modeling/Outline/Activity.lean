import Outline.Atom

/-!
# Activity

What a view or an update did, as a list of events in the order in which they happened. An event
names atoms and never holds their text.
-/

namespace Outline

/-- One thing that happened. -/
inductive Event where
  | create (atom : AtomId)
  /-- The value of an atom changed. -/
  | update (atom : AtomId)
  /-- Other properties of an atom changed. -/
  | setProperties (atom : AtomId)
  | link (parent child : AtomId)
  | unlink (parent child : AtomId)
  | view (atom : AtomId)
  deriving DecidableEq

namespace Event

/-- The name of what happened. -/
def kind : Event → String
  | create _ => "create"
  | update _ => "update"
  | setProperties _ => "set_properties"
  | link _ _ => "link"
  | unlink _ _ => "unlink"
  | view _ => "view"

/-- The atoms that an event names, each with its part in it. -/
def participants : Event → List (String × AtomId)
  | create atom | update atom | setProperties atom | view atom => [("atom_id", atom)]
  | link parent child | unlink parent child => [("parent_id", parent), ("child_id", child)]

/-- The log line that reports an event. -/
def line (event : Event) : String :=
  event.participants.foldl (fun line (part, atom) => line ++ " " ++ part ++ "=" ++ atom)
    ("INFO event=activity kind=" ++ event.kind)

end Event

/-- How many events are of the given kind. -/
def countKind (kind : String) (events : List Event) : Nat :=
  events.countP fun event => event.kind == kind

end Outline
