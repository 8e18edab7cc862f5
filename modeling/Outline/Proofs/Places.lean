import Mathlib.Data.List.Nodup
import Outline.Atom

/-!
# Places

A list of atoms is kept as cells, each naming the next.  Without those names a
cell is a `Place`: its identifier and the atom in it.  `linkedTo` puts the
names back, so that a chain of cells is the same thing as a list of places.
-/

namespace Outline

/-- A place in a list: a cell and the atom in it, without the cell that comes
next. -/
structure Place where
  cell : CellId
  atom : AtomId
  deriving DecidableEq

/-- The place of a cell. -/
def Cell.place (cell : Cell) : Place :=
  ⟨cell.id, cell.first⟩

/-- The cell with which some places begin, and `stop` if there are none. -/
def start (stop : Option CellId) : List Place → Option CellId
  | [] => stop
  | place :: _ => some place.cell

/-- The cells of consecutive places, each linked to the next one and the last
one to `stop`. -/
def linkedTo (stop : Option CellId) : List Place → List Cell
  | [] => []
  | place :: places =>
    { id := place.cell, first := place.atom, rest := start stop places } :: linkedTo stop places

theorem insertIdx_length_append {α : Type} (xs ys : List α) (x : α) :
    (xs ++ ys).insertIdx xs.length x = xs ++ x :: ys := by
  induction xs with
  | nil => rfl
  | cons y xs ih => simp [ih]

theorem drop_eq_cons {α : Type} {xs : List α} {k : Nat} {x : α} (h : xs[k]? = some x) :
    xs.drop k = x :: xs.drop (k + 1) := by
  obtain ⟨hk, rfl⟩ := List.getElem?_eq_some_iff.mp h
  exact List.drop_eq_getElem_cons hk

variable {stop : Option CellId} {places : List Place} {cell : Cell}

@[simp] theorem start_nil : start stop [] = stop := rfl

@[simp] theorem start_cons (place : Place) : start stop (place :: places) = some place.cell := rfl

@[simp] theorem linkedTo_nil : linkedTo stop [] = [] := rfl

@[simp] theorem linkedTo_cons (place : Place) :
    linkedTo stop (place :: places) =
      { id := place.cell, first := place.atom, rest := start stop places } ::
        linkedTo stop places := rfl

theorem start_eq_some {id : CellId} :
    start none places = some id ↔ ∃ place rest, places = place :: rest ∧ place.cell = id := by
  cases places <;> simp

/-- A list that starts at a cell has a place for it. -/
theorem exists_mem_of_start {id : CellId} (h : start none places = some id) :
    ∃ place ∈ places, place.cell = id := by
  obtain ⟨place, rest, rfl, hid⟩ := start_eq_some.mp h
  exact ⟨place, List.mem_cons_self, hid⟩

theorem start_append (xs ys : List Place) :
    start stop (xs ++ ys) = start (start stop ys) xs := by
  cases xs <;> rfl

theorem linkedTo_append (xs ys : List Place) :
    linkedTo stop (xs ++ ys) = linkedTo (start stop ys) xs ++ linkedTo stop ys := by
  induction xs with
  | nil => rfl
  | cons x xs ih => simp [ih, start_append]

@[simp] theorem map_place_linkedTo (stop : Option CellId) (places : List Place) :
    (linkedTo stop places).map Cell.place = places := by
  induction places with
  | nil => rfl
  | cons place places ih => simp [ih, Cell.place]

@[simp] theorem map_id_linkedTo (stop : Option CellId) (places : List Place) :
    (linkedTo stop places).map Cell.id = places.map Place.cell := by
  induction places with
  | nil => rfl
  | cons place places ih => simp [ih]

@[simp] theorem length_linkedTo : (linkedTo stop places).length = places.length := by
  rw [← List.length_map (f := Cell.place), map_place_linkedTo]

theorem place_mem_of_mem_linkedTo (h : cell ∈ linkedTo stop places) : cell.place ∈ places := by
  rw [← map_place_linkedTo stop places]
  exact List.mem_map_of_mem h

theorem exists_mem_linkedTo (stop : Option CellId) {place : Place} (h : place ∈ places) :
    ∃ cell ∈ linkedTo stop places, cell.place = place := by
  rw [← map_place_linkedTo stop places] at h
  exact List.mem_map.mp h

/-- The successor of a cell is a later place. -/
theorem exists_mem_tail_of_rest {id : CellId} (h : cell ∈ linkedTo none places)
    (hrest : cell.rest = some id) : ∃ place ∈ places.tail, place.cell = id := by
  induction places with
  | nil => simp at h
  | cons place places ih =>
      rw [linkedTo_cons, List.mem_cons] at h
      rcases h with rfl | h
      · cases places with
        | nil => simp at hrest
        | cons next places => exact ⟨next, by simp, by simpa using hrest⟩
      · obtain ⟨later, hlater, hid⟩ := ih h
        exact ⟨later, List.mem_of_mem_tail hlater, hid⟩

/-- The cell at a place, with the place after it. -/
theorem getElem?_linkedTo_append_cons (xs ys : List Place) (place : Place) :
    (linkedTo stop (xs ++ place :: ys))[xs.length]? =
      some { id := place.cell, first := place.atom, rest := start stop ys } := by
  rw [linkedTo_append, List.getElem?_append_right (by simp)]
  simp

theorem take_linkedTo_append (xs ys : List Place) :
    (linkedTo stop (xs ++ ys)).take xs.length = linkedTo (start stop ys) xs := by
  rw [linkedTo_append, List.take_append_of_le_length (by simp), List.take_of_length_le (by simp)]

theorem rest_of_getLast?_linkedTo (h : (linkedTo stop places).getLast? = some cell) :
    cell.rest = stop := by
  induction places with
  | nil => simp at h
  | cons place places ih =>
      cases places with
      | nil =>
          cases h
          rfl
      | cons next places =>
          rw [linkedTo_cons, linkedTo_cons, List.getLast?_cons_cons] at h
          exact ih h

/-- What comes after the places `xs` of a list: the successor of the last of
them, or the start of the list if there are none. -/
theorem getLast?_linkedTo_elim (xs ys : List Place) :
    (linkedTo (start stop ys) xs).getLast?.elim (start stop (xs ++ ys)) Cell.rest =
      start stop ys := by
  cases hlast : (linkedTo (start stop ys) xs).getLast? with
  | none =>
      have hxs : xs = [] := by
        cases xs with
        | nil => rfl
        | cons x xs => simp at hlast
      simp [hxs]
  | some cell => exact rest_of_getLast?_linkedTo hlast

end Outline
