import Outline.Alignment

/-!
# Edit scripts

A script turns one list into another by deletions and insertions at positions. The positions count
in the list as the edits before have left it. Items that a longest alignment pairs are kept; between
two kept items the deletions come before the insertions.
-/

namespace Outline

/-- One change to a list. -/
inductive Edit where
  /-- Removes what stands at `position`, which is item `index` of the list before. -/
  | delete (position index : Nat)
  /-- Inserts item `index` of the list after at `position`. -/
  | insert (position index : Nat)
  deriving DecidableEq

namespace Edit

/-- The edits for the gaps between kept pairs. The first gap begins at places `i` and `j`, and at
`position` in the list being edited. -/
def fillGaps (i j position : Nat) : List (Nat × Nat) → List Edit
  | [] => []
  | (i', j') :: pairs =>
    (List.range' i (i' - i)).map (delete position) ++
      (List.range (j' - j)).map (fun offset => insert (position + offset) (j + offset)) ++
      fillGaps (i' + 1) (j' + 1) (position + (j' - j) + 1) pairs

/-- The script that turns `before` into `after`. -/
def script {α : Type} (isMatch : α → α → Bool) (before after : List α) : List Edit :=
  let kept := (Alignment.longest isMatch before after).pairs
  fillGaps 0 0 0 (kept ++ [(before.length, after.length)])

/-- Applies an edit, where `after` supplies what is inserted; `none` if it is out of range. -/
def perform {α : Type} (after : List α) (list : List α) : Edit → Option (List α)
  | delete position _ => if position < list.length then some (list.eraseIdx position) else none
  | insert position index =>
    match after[index]? with
    | some item => if position ≤ list.length then some (list.insertIdx position item) else none
    | none => none

end Edit

end Outline
