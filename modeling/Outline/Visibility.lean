import Outline.Atom

/-!
# Visibility

A visibility says which atoms a view or an update may go into, and with which properties an update
creates new atoms. One kind of visibility shows everything; the other shows the atoms whose
sharability and weight lie in a window each. An atom that has no such property counts as if it had
the usual value of the window, which is also the value that new atoms get.
-/

namespace Outline

/-- Three numbers that do not bound a window. -/
structure WindowFault where
  property : NumberProperty
  least : Single
  usual : Single
  most : Single
  deriving DecidableEq

def WindowFault.message (fault : WindowFault) : String :=
  fault.property.name ++ " bounds must satisfy 0 <= min (" ++ fault.least.messageText ++
    ") <= default (" ++ fault.usual.messageText ++
    ") <= max (" ++ fault.most.messageText ++ ") <= 1"

/-- Whether three numbers bound a window: they lie between zero and one and do not decrease. -/
def areBounds (least usual most : Single) : Bool :=
  Single.zero.atMost least && least.atMost usual && usual.atMost most && most.atMost .one

/-- A range of numbers between zero and one, both ends included, with a usual value inside it. -/
structure Window where
  least : Single
  usual : Single
  most : Single
  areBounds : areBounds least usual most

namespace Window

/-- The window with the given bounds. -/
def ofBounds (property : NumberProperty) (least usual most : Single) :
    Except WindowFault Window :=
  if h : Outline.areBounds least usual most then .ok ⟨least, usual, most, h⟩
  else .error { property, least, usual, most }

/-- Whether a number lies in the window. -/
def contains (window : Window) (x : Single) : Bool :=
  window.least.atMost x && x.atMost window.most

end Window

/-- Which atoms are shown, and the properties of new ones. -/
structure Visibility where
  shows : Atom → Bool
  defaults : Defaults := {}

namespace Visibility

/-- Every atom is shown. -/
def everything : Visibility where
  shows _ := true

/-- The atoms whose sharability and weight lie in the windows are shown. -/
def within (sharability weight : Window) : Visibility where
  shows atom :=
    sharability.contains (atom.sharability.getD sharability.usual) &&
      weight.contains (atom.weight.getD weight.usual)
  defaults := { weight := some weight.usual, sharability := some sharability.usual }

end Visibility

end Outline
