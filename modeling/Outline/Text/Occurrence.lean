/-!
# Occurrences

Whether one text stands inside another.
-/

namespace Outline.Text

/-- Whether `part` occurs somewhere in a text. -/
def occurs (part : List Char) : List Char → Bool
  | [] => part.isEmpty
  | c :: rest => part.isPrefixOf (c :: rest) || occurs part rest

end Outline.Text
