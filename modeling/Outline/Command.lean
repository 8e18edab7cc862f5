import Outline.Listing

/-!
# Commands

What a command line asks for: a database, some options, and one thing to do with the notes in it.
-/

namespace Outline

/-- One thing to do. -/
inductive Command where
  /-- Creates an atom that stands in no list. -/
  | create (value : Option String)
  | view (id : AtomId)
  /-- Updates an atom by the note in a file, or by the note in the input. -/
  | update (id : AtomId) (file : Option String)
  | search (text : String)
  | query (query : String)
  | roots
  | reindex
  deriving DecidableEq

/-- What holds for any command. -/
structure Options where
  depth : Depth := 1
  adjacency : Adjacency := .forward
  /-- The windows of sharability and weight. -/
  windows : Option (Window × Window) := none

/-- Which atoms the options show. -/
def Options.visibility (options : Options) : Visibility :=
  match options.windows with
  | none => .everything
  | some (sharability, weight) => .within sharability weight

/-- What a command line asks for. -/
structure Invocation where
  /-- The path of the database. -/
  database : String
  options : Options
  command : Command

end Outline
