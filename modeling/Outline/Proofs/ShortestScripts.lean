import Mathlib.Data.List.InsertIdx
import Outline.Proofs.EditWalks
import Outline.Proofs.Places

/-!
# Shortest scripts

While a list is edited it consists of items that were there before, each known by its
place, and of items that were put in.  The script of two lists takes out and puts in the
items that it names, one after the other, and ends with pieces that fit the list after,
one for each of its items.  No other row of edits that ends with fitting pieces is
shorter: the items that it keeps are pairs of matching places, and each of the others has
to be taken out or put in.
-/

namespace Outline.Edit

variable {α : Type} {isMatch : α → α → Bool} {before after : List α}

/-- What stands in a list that is being edited: an item of the list before, known by its
place there, or an item that was put in. -/
inductive Piece (α : Type) where
  | kept (place : Nat)
  | inserted (item : α)
  deriving DecidableEq

namespace Piece

/-- The item that a piece is. -/
def item? (before : List α) : Piece α → Option α
  | kept place => before[place]?
  | inserted item => some item

/-- The place before of a piece that was not put in. -/
def place? : Piece α → Option Nat
  | kept place => some place
  | inserted _ => none

/-- Whether a piece may stand where the list after has the given item. -/
inductive Fits (isMatch : α → α → Bool) (before : List α) : Piece α → α → Prop
  | kept {place : Nat} {x y : α} (hx : before[place]? = some x) (hmatch : isMatch x y) :
      Fits isMatch before (kept place) y
  | inserted (y : α) : Fits isMatch before (inserted y) y

end Piece

open Piece

/-- The items of a list from place `i` on. -/
def unedited (i n : Nat) : List (Piece α) :=
  (List.range' i (n - i)).map kept

/-- The edits of a row are made at positions in range, and take out and put in the items
that they name. -/
inductive Run (after : List α) : List (Piece α) → List Edit → List (Piece α) → Prop
  | done (pieces : List (Piece α)) : Run after pieces [] pieces
  | delete {pieces final : List (Piece α)} {edits : List Edit} {position index : Nat}
      (htaken : pieces[position]? = some (kept index))
      (hrest : Run after (pieces.eraseIdx position) edits final) :
      Run after pieces (.delete position index :: edits) final
  | insert {pieces final : List (Piece α)} {edits : List Edit} {position index : Nat} {item : α}
      (hposition : position ≤ pieces.length) (hitem : after[index]? = some item)
      (hrest : Run after (pieces.insertIdx position (inserted item)) edits final) :
      Run after pieces (.insert position index :: edits) final

/-- The item of the list before that an edit takes out. -/
def deletedIndex? : Edit → Option Nat
  | delete _ index => some index
  | insert _ _ => none

/-- The item of the list after that an edit puts in. -/
def insertedIndex? : Edit → Option Nat
  | delete _ _ => none
  | insert _ index => some index

/-! ## The items themselves -/

/-- What the edits do to pieces they do to the items that these stand for. -/
theorem Run.exists_foldlM {pieces final : List (Piece α)} {edits : List Edit}
    (h : Run after pieces edits final) {items : List α}
    (hitems : pieces.map (item? before) = items.map some) :
    ∃ result, edits.foldlM (perform after) items = some result ∧
      final.map (item? before) = result.map some := by
  have hlength {pieces : List (Piece α)} {items : List α}
      (hitems : pieces.map (item? before) = items.map some) : pieces.length = items.length := by
    simpa using congrArg List.length hitems
  induction h generalizing items with
  | done pieces => exact ⟨items, rfl, hitems⟩
  | @delete pieces final edits position index htaken _ ih =>
      have hposition : position < items.length := by
        rw [← hlength hitems]
        exact (List.getElem?_eq_some_iff.mp htaken).1
      have hitems : (pieces.eraseIdx position).map (item? before) =
          (items.eraseIdx position).map some := by
        rw [← List.eraseIdx_map, hitems, List.eraseIdx_map]
      obtain ⟨result, hrun, hfinal⟩ := ih hitems
      refine ⟨result, ?_, hfinal⟩
      rw [List.foldlM_cons, perform, if_pos hposition]
      exact hrun
  | @insert pieces final edits position index item hposition hitem _ ih =>
      rw [hlength hitems] at hposition
      have hitems : (pieces.insertIdx position (inserted item)).map (item? before) =
          (items.insertIdx position item).map some := by
        rw [List.map_insertIdx, List.map_insertIdx, hitems]
        rfl
      obtain ⟨result, hrun, hfinal⟩ := ih hitems
      refine ⟨result, ?_, hfinal⟩
      rw [List.foldlM_cons, perform, hitem]
      simp only [if_pos hposition]
      exact hrun

theorem map_item?_unedited (before : List α) :
    (unedited 0 before.length).map (item? before) = before.map some := by
  apply List.ext_getElem?
  intro i
  by_cases hi : i < before.length
  · simp [unedited, item?, hi]
  · simp [unedited, hi]

/-! ## What a script does -/

namespace Walk

variable {n m i j : Nat} {pairs : List (Nat × Nat)} {edits : List Edit}

/-- The places from `i` on are `i` and those after it. -/
theorem range'_sub_eq_cons (hi : i < n) :
    List.range' i (n - i) = i :: List.range' (i + 1) (n - (i + 1)) := by
  rw [show n - i = n - (i + 1) + 1 by omega, List.range'_succ]

theorem unedited_eq_cons (hi : i < n) :
    (unedited i n : List (Piece α)) = kept i :: unedited (i + 1) n := by
  rw [unedited, unedited, range'_sub_eq_cons hi, List.map_cons]

/-- The edits of a walk run.  They leave the pieces before its places as they are, and
after these come pieces that fit the rest of the list after. -/
theorem exists_run (h : Walk before.length after.length i j pairs edits)
    (hmatching : ∀ p ∈ pairs, ∃ x y,
      before[p.1]? = some x ∧ after[p.2]? = some y ∧ isMatch x y)
    {done : List (Piece α)} (hdone : done.length = j) :
    ∃ fitting, Run after (done ++ unedited i before.length) edits (done ++ fitting) ∧
      List.Forall₂ (Fits isMatch before) fitting (after.drop j) := by
  generalize hn : before.length = n at h
  generalize hm : after.length = m at h
  induction h generalizing done with
  | done =>
      refine ⟨[], ?_, ?_⟩
      · rw [unedited, Nat.sub_self]
        exact .done _
      · rw [← hm, List.drop_length]
        exact .nil
  | @delete i j pairs edits hi _ ih =>
      obtain ⟨fitting, hrun, hfitting⟩ := ih hmatching hdone
      refine ⟨fitting, .delete ?_ ?_, hfitting⟩
      · rw [unedited_eq_cons hi, ← hdone, List.getElem?_append_right (Nat.le_refl _)]
        simp
      · rw [unedited_eq_cons hi, ← hdone, List.eraseIdx_append_of_length_le (Nat.le_refl _)]
        simpa using hrun
  | @insert i j pairs edits hj _ ih =>
      obtain ⟨item, hitem⟩ : ∃ item, after[j]? = some item :=
        ⟨_, List.getElem?_eq_getElem (hm ▸ hj)⟩
      have hlonger : (done ++ [inserted item]).length = j + 1 := by simp [hdone]
      obtain ⟨fitting, hrun, hfitting⟩ := ih hmatching hlonger
      refine ⟨inserted item :: fitting, .insert ?_ hitem ?_, ?_⟩
      · simp [hdone]
      · rw [← hdone, insertIdx_length_append]
        simpa using hrun
      · rw [drop_eq_cons hitem]
        exact .cons (.inserted item) hfitting
  | @keep i j pairs edits hi hj _ ih =>
      obtain ⟨hpair, hmatching⟩ := List.forall_mem_cons.mp hmatching
      obtain ⟨x, y, hx, hy, hmatch⟩ := hpair
      have hlonger : (done ++ [kept i]).length = j + 1 := by simp [hdone]
      obtain ⟨fitting, hrun, hfitting⟩ := ih hmatching hlonger
      refine ⟨kept i :: fitting, ?_, ?_⟩
      · rw [unedited_eq_cons hi]
        simpa using hrun
      · rw [drop_eq_cons hy]
        exact .cons (.kept hx hmatch) hfitting

/-- A walk takes out items in the order in which they stand. -/
theorem deleted_sublist (h : Walk n m i j pairs edits) :
    (edits.filterMap deletedIndex?).Sublist (List.range' i (n - i)) := by
  induction h with
  | done => exact List.nil_sublist _
  | delete hi _ ih =>
      rw [range'_sub_eq_cons hi]
      exact ih.cons_cons _
  | insert _ _ ih => exact ih
  | keep hi _ _ ih =>
      rw [range'_sub_eq_cons hi]
      exact ih.cons _

/-- A walk puts in items in the order in which they stand. -/
theorem inserted_sublist (h : Walk n m i j pairs edits) :
    (edits.filterMap insertedIndex?).Sublist (List.range' j (m - j)) := by
  induction h with
  | done => exact List.nil_sublist _
  | delete _ _ ih => exact ih
  | insert hj _ ih =>
      rw [range'_sub_eq_cons hj]
      exact ih.cons_cons _
  | keep _ hj _ ih =>
      rw [range'_sub_eq_cons hj]
      exact ih.cons _

/-- On a walk each item is kept, or taken out, or put in. -/
theorem length_edits (h : Walk n m i j pairs edits) :
    edits.length + 2 * pairs.length + i + j = n + m := by
  induction h with
  | done => simp
  | delete _ _ ih | insert _ _ ih | keep _ _ _ ih =>
      simp only [List.length_cons]
      omega

end Walk

/-! ## What any row of edits does -/

/-- The places before of the pieces that were not put in. -/
def keptPlaces (pieces : List (Piece α)) : List Nat :=
  pieces.filterMap place?

/-- An edit puts no item of the list before back in or at another place, and takes out at
most one of them if it puts in none. -/
theorem keptPlaces_perform {stock : List α} {pieces pieces' : List (Piece α)} {edit : Edit}
    (h : perform (stock.map inserted) pieces edit = some pieces') :
    (keptPlaces pieces').Sublist (keptPlaces pieces) ∧
      pieces'.length + 2 * (keptPlaces pieces).length ≤
        1 + pieces.length + 2 * (keptPlaces pieces').length := by
  cases edit with
  | delete position index =>
      simp only [perform, Option.ite_none_right_eq_some, Option.some.injEq] at h
      obtain ⟨hposition, rfl⟩ := h
      obtain ⟨xs, piece, ys, rfl, rfl⟩ : ∃ xs piece ys,
          pieces = xs ++ piece :: ys ∧ xs.length = position :=
        ⟨pieces.take position, pieces[position], pieces.drop (position + 1), by simp,
          List.length_take_of_le (Nat.le_of_lt hposition)⟩
      refine ⟨(List.eraseIdx_sublist _ _).filterMap _, ?_⟩
      rw [List.eraseIdx_append_of_length_le (Nat.le_refl _), Nat.sub_self, List.eraseIdx_cons_zero]
      cases piece with
      | kept place =>
          simp only [keptPlaces, List.filterMap_append, List.filterMap_cons, place?,
            List.length_append, List.length_cons]
          omega
      | inserted item =>
          simp only [keptPlaces, List.filterMap_append, List.filterMap_cons, place?,
            List.length_append, List.length_cons]
          omega
  | insert position index =>
      simp only [perform, List.getElem?_map] at h
      cases hitem : stock[index]? with
      | none => simp [hitem] at h
      | some item =>
          simp only [hitem, Option.map_some, Option.ite_none_right_eq_some,
            Option.some.injEq] at h
          obtain ⟨hposition, rfl⟩ := h
          obtain ⟨xs, ys, rfl, rfl⟩ : ∃ xs ys, pieces = xs ++ ys ∧ xs.length = position :=
            ⟨_, _, (List.take_append_drop position _).symm, List.length_take_of_le hposition⟩
          rw [insertIdx_length_append]
          simp only [keptPlaces, List.filterMap_append, List.filterMap_cons, place?,
            List.length_append, List.length_cons]
          exact ⟨List.Sublist.refl _, by omega⟩

/-- A row of edits is at least as long as the items are many that it takes out or puts in. -/
theorem keptPlaces_foldlM {stock : List α} {pieces final : List (Piece α)} {edits : List Edit}
    (h : edits.foldlM (perform (stock.map inserted)) pieces = some final) :
    (keptPlaces final).Sublist (keptPlaces pieces) ∧
      final.length + 2 * (keptPlaces pieces).length ≤
        edits.length + pieces.length + 2 * (keptPlaces final).length := by
  induction edits generalizing pieces with
  | nil =>
      obtain rfl := Option.some.inj h
      exact ⟨List.Sublist.refl _, by simp⟩
  | cons edit edits ih =>
      rw [List.foldlM_cons, Option.bind_eq_bind, Option.bind_eq_some_iff] at h
      obtain ⟨next, hedit, hrest⟩ := h
      obtain ⟨hsublist, hlength⟩ := keptPlaces_perform hedit
      obtain ⟨hsublist', hlength'⟩ := ih hrest
      refine ⟨hsublist'.trans hsublist, ?_⟩
      rw [List.length_cons]
      omega

theorem keptPlaces_unedited (n : Nat) :
    keptPlaces (unedited 0 n : List (Piece α)) = List.range' 0 n := by
  have hplace : place? ∘ (kept : Nat → Piece α) = some := rfl
  rw [keptPlaces, unedited, List.filterMap_map, hplace, List.filterMap_some, Nat.sub_zero]

/-- Pieces that fit the items after, with those of the list before in their order, pair
matching places. -/
theorem exists_aligns_of_fits {pieces : List (Piece α)} {ys : List α}
    (h : List.Forall₂ (Fits isMatch before) pieces ys)
    (horder : (keptPlaces pieces).Pairwise (· < ·)) (j : Nat) :
    ∃ pairs, Alignment.Aligns isMatch 0 j before ys pairs ∧
      pairs.map Prod.fst = keptPlaces pieces := by
  induction h generalizing j with
  | nil => exact ⟨[], .nil, rfl⟩
  | @cons piece y pieces ys hfits _ ih =>
      cases hfits with
      | inserted y =>
          obtain ⟨pairs, haligns, hplaces⟩ := ih horder (j + 1)
          have hstart : ∀ p ∈ pairs, j < p.2 := fun p hp => (haligns.fromStart p hp).2
          exact ⟨pairs, (Alignment.Aligns.cons_right_iff hstart).mpr haligns, hplaces⟩
      | @kept place x y hx hmatch =>
          obtain ⟨hbefore, horder⟩ := List.pairwise_cons.mp horder
          obtain ⟨pairs, haligns, hplaces⟩ := ih horder (j + 1)
          have hstart : ∀ p ∈ pairs, j < p.2 := fun p hp => (haligns.fromStart p hp).2
          have hlater : ∀ p ∈ pairs, place < p.1 := by
            intro p hp
            have hkept : p.1 ∈ keptPlaces pieces := hplaces ▸ List.mem_map_of_mem hp
            exact hbefore p.1 hkept
          have hrest := (Alignment.Aligns.cons_right_iff hstart (y := y)).mpr haligns
          refine ⟨(place, j) :: pairs, ?_, by rw [List.map_cons, hplaces]; rfl⟩
          constructor
          case increasing =>
            exact List.pairwise_cons.mpr
              ⟨fun p hp => ⟨hlater p hp, hstart p hp⟩, haligns.increasing⟩
          case fromStart =>
            exact List.forall_mem_cons.mpr ⟨⟨Nat.zero_le _, Nat.le_refl _⟩, hrest.fromStart⟩
          case matching =>
            exact List.forall_mem_cons.mpr ⟨⟨x, y, hx, by simp, hmatch⟩, hrest.matching⟩

/-- No row of edits that ends with fitting pieces is shorter than the script, whatever
items it may put in on the way. -/
theorem length_script_le {stock : List α} {edits : List Edit} {pieces : List (Piece α)}
    (hrun : edits.foldlM (perform (stock.map inserted)) (unedited 0 before.length) = some pieces)
    (hfits : List.Forall₂ (Fits isMatch before) pieces after) :
    (script isMatch before after).length ≤ edits.length := by
  obtain ⟨hsublist, hlength⟩ := keptPlaces_foldlM hrun
  rw [keptPlaces_unedited] at hsublist hlength
  have horder : (keptPlaces pieces).Pairwise (· < ·) :=
    (List.pairwise_lt_range' 1).sublist hsublist
  obtain ⟨pairs, haligns, hplaces⟩ := exists_aligns_of_fits hfits horder 0
  have hkept : (keptPlaces pieces).length ≤
      (Alignment.longest isMatch before after).pairs.length := by
    rw [← hplaces, List.length_map]
    exact Alignment.length_le_longest haligns
  have hscript := (walk_script isMatch before after).length_edits
  have hpieces := hfits.length_eq
  simp only [unedited, List.length_map, List.length_range'] at hlength
  omega

/-- The script of two lists runs to its end, and each item is taken out or put in once at
most.  It ends with pieces that fit the list after, one for each of its items, and so does
the list itself.  No other row of edits that ends with fitting pieces is shorter. -/
theorem script_fits_and_shortest (isMatch : α → α → Bool) (before after : List α) :
    (∃ pieces, Run after (unedited 0 before.length) (script isMatch before after) pieces ∧
      List.Forall₂ (Fits isMatch before) pieces after ∧
      ∃ result, (script isMatch before after).foldlM (perform after) before = some result ∧
        pieces.map (item? before) = result.map some) ∧
    ((script isMatch before after).filterMap deletedIndex?).Nodup ∧
    ((script isMatch before after).filterMap insertedIndex?).Nodup ∧
    ∀ (stock : List α) (edits : List Edit) (pieces : List (Piece α)),
      edits.foldlM (perform (stock.map inserted)) (unedited 0 before.length) = some pieces →
      List.Forall₂ (Fits isMatch before) pieces after →
      (script isMatch before after).length ≤ edits.length := by
  have hwalk := walk_script isMatch before after
  have haligns := Alignment.aligns_longest isMatch before after
  obtain ⟨pieces, hrun, hfits⟩ := hwalk.exists_run haligns.matching List.length_nil
  refine ⟨⟨pieces, hrun, hfits, hrun.exists_foldlM (map_item?_unedited before)⟩, ?_, ?_, ?_⟩
  · exact (List.nodup_range' 1).sublist hwalk.deleted_sublist
  · exact (List.nodup_range' 1).sublist hwalk.inserted_sublist
  · exact fun _ _ _ => length_script_le

/-- An item is matched by every larger one.  A longer row of edits with the same result puts
another item in first, and takes it out again. -/
theorem sample_script :
    script (fun x y : Nat => x < y) [3, 1, 4] [4, 0, 5] = [.delete 1 1, .insert 1 1] ∧
    ∃ pieces, [Edit.insert 0 1, .delete 0 0, .delete 1 1, .insert 1 0].foldlM
        (perform ([0, 7].map inserted)) (unedited 0 3) = some pieces ∧
      List.Forall₂ (Fits (fun x y : Nat => x < y) [3, 1, 4]) pieces [4, 0, 5] ∧
      (script (fun x y : Nat => x < y) [3, 1, 4] [4, 0, 5]).length ≤ 4 := by
  have hrun : [Edit.insert 0 1, .delete 0 0, .delete 1 1, .insert 1 0].foldlM
      (perform ([0, 7].map inserted)) (unedited 0 3) = some [kept 0, inserted 0, kept 2] := by
    decide
  have hfits : List.Forall₂ (Fits (fun x y : Nat => x < y) [3, 1, 4])
      [kept 0, inserted 0, kept 2] [4, 0, 5] :=
    .cons (.kept (x := 3) rfl (by decide)) (.cons (.inserted 0)
      (.cons (.kept (x := 4) rfl (by decide)) .nil))
  obtain ⟨-, -, -, hshortest⟩ :=
    script_fits_and_shortest (fun x y : Nat => x < y) [3, 1, 4] [4, 0, 5]
  exact ⟨by decide, _, hrun, hfits, hshortest [0, 7] _ _ hrun hfits⟩

end Outline.Edit
