import Outline.Atom
import Outline.Json

/-!
# Notes

A note is a tree of entries as people see and edit it. An identifier ties a note to an atom; a note
without one asks for a new atom. Every other field may be left out too, which in an update means
that the stored property stays as it is. The document of a note leaves out what is unset.
-/

namespace Outline

/-- An entry with the entries under it. -/
structure Note where
  id : Option AtomId := none
  value : Option String := none
  byname : Option String := none
  weight : Option Single := none
  sharability : Option Single := none
  created : Option Int := none
  children : List Note := []

namespace Note

/-- The note that shows an atom, without any children. -/
def ofAtom (atom : Atom) : Note where
  id := atom.id
  value := atom.value
  byname := atom.byname
  weight := atom.weight
  sharability := atom.sharability
  created := atom.created

/-- Whether two notes stand for the same atom. Notes without an identifier stand for none yet, so
they do not match even themselves. -/
def samePosition (a b : Note) : Bool :=
  match a.id, b.id with
  | some x, some y => x == y
  | _, _ => false

/-- The set fields of a note, in the order they are written. -/
def memberDocuments (note : Note) : List (String × Json) :=
  [("id", note.id.map .text), ("value", note.value.map .text), ("alias", note.byname.map .text),
    ("weight", note.weight.map .ofSingle), ("sharability", note.sharability.map .ofSingle),
    ("created", note.created.map .ofInt)].filterMap fun member =>
      member.2.map fun document => (member.1, document)

mutual

def toJson : Note → Json
  | { id, value, byname, weight, sharability, created, children } =>
    .record <| memberDocuments { id, value, byname, weight, sharability, created } ++
      match children with
      | [] => []
      | child :: rest => [("children", .list (child.toJson :: childrenToJson rest))]

/-- The documents of a list of notes. -/
def childrenToJson : List Note → List Json
  | [] => []
  | child :: rest => child.toJson :: childrenToJson rest

end

end Note

end Outline
