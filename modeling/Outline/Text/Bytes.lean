/-!
# Bytes

The length of a text in the bytes of its UTF-8 form.
-/

namespace Outline.Text

/-- The number of bytes of some characters. -/
def byteCount : List Char → Nat
  | [] => 0
  | c :: s => c.utf8Size + byteCount s

theorem byteCount_append (s t : List Char) : byteCount (s ++ t) = byteCount s + byteCount t := by
  induction s with
  | nil => simp [byteCount]
  | cons c s ih => simp [byteCount, ih, Nat.add_assoc]

theorem utf8ByteSize_ofList (s : List Char) : (String.ofList s).utf8ByteSize = byteCount s := by
  induction s with
  | nil => rfl
  | cons c s ih =>
    have single : String.ofList [c] = String.singleton c := by simp
    rw [← List.singleton_append, String.ofList_append, String.utf8ByteSize_append, ih, single,
      String.utf8ByteSize_singleton]
    rfl

end Outline.Text
