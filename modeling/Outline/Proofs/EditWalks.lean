import Outline.EditScript
import Outline.Proofs.LongestAlignments

/-!
# Walks of edit scripts

A script walks through the list before and the list after, side by side.  At
places `i` and `j` of them, the list being edited holds what the first `j` items
after stand for, followed by the items before from place `i` on.  So each edit
is made at position `j`.
-/

namespace Outline.Edit

/-- The edits on a walk from places `i` and `j` to the ends of two lists of `n`
and `m` items, which keeps the given pairs of places. -/
inductive Walk (n m : Nat) : Nat → Nat → List (Nat × Nat) → List Edit → Prop
  | done : Walk n m n m [] []
  | delete {i j : Nat} {pairs : List (Nat × Nat)} {edits : List Edit} :
      i < n → Walk n m (i + 1) j pairs edits → Walk n m i j pairs (.delete j i :: edits)
  | insert {i j : Nat} {pairs : List (Nat × Nat)} {edits : List Edit} :
      j < m → Walk n m i (j + 1) pairs edits → Walk n m i j pairs (.insert j j :: edits)
  | keep {i j : Nat} {pairs : List (Nat × Nat)} {edits : List Edit} :
      i < n → j < m → Walk n m (i + 1) (j + 1) pairs edits → Walk n m i j ((i, j) :: pairs) edits

namespace Walk

variable {n m i j : Nat} {pairs : List (Nat × Nat)} {edits : List Edit}

/-- A walk passes over some items by deleting them. -/
theorem deletes (count : Nat) (hend : i + count ≤ n) (h : Walk n m (i + count) j pairs edits) :
    Walk n m i j pairs ((List.range' i count).map (.delete j) ++ edits) := by
  induction count generalizing i with
  | zero => exact h
  | succ count ih =>
      rw [List.range'_succ, List.map_cons, List.cons_append]
      refine Walk.delete (by omega) (ih (by omega) ?_)
      rwa [show i + 1 + count = i + (count + 1) by omega]

/-- A walk passes over some items by inserting them. -/
theorem inserts (count : Nat) (hend : j + count ≤ m) (h : Walk n m i (j + count) pairs edits) :
    Walk n m i j pairs
      ((List.range count).map (fun offset => .insert (j + offset) (j + offset)) ++ edits) := by
  induction count generalizing j with
  | zero => exact h
  | succ count ih =>
      rw [List.range_succ_eq_map, List.map_cons, List.map_map, List.cons_append]
      refine Walk.insert (by omega) ?_
      have hcount : j + 1 + count = j + (count + 1) := by omega
      have hrest := ih (j := j + 1) (by omega) (by rwa [hcount])
      have hshift : (List.range count).map ((fun offset => Edit.insert (j + offset) (j + offset)) ∘
          Nat.succ) = (List.range count).map fun offset =>
            .insert (j + 1 + offset) (j + 1 + offset) := by
        apply List.map_congr_left
        intro offset _
        simp only [Function.comp]
        congr 1 <;> omega
      rw [hshift]
      exact hrest

end Walk

/-- The edits for the gaps between kept pairs are a walk. -/
theorem walk_fillGaps {n m i j : Nat} {pairs : List (Nat × Nat)}
    (hincreasing : pairs.Pairwise fun p q => p.1 < q.1 ∧ p.2 < q.2)
    (hstart : ∀ p ∈ pairs, i ≤ p.1 ∧ j ≤ p.2) (hend : ∀ p ∈ pairs, p.1 < n ∧ p.2 < m)
    (hi : i ≤ n) (hj : j ≤ m) :
    Walk n m i j pairs (fillGaps i j j (pairs ++ [(n, m)])) := by
  induction pairs generalizing i j with
  | nil =>
      rw [List.nil_append, fillGaps, List.append_assoc]
      refine Walk.deletes (n - i) (by omega) (Walk.inserts (m - j) (by omega) ?_)
      rw [Nat.add_sub_of_le hi, Nat.add_sub_of_le hj]
      exact Walk.done
  | cons pair pairs ih =>
      obtain ⟨i', j'⟩ := pair
      obtain ⟨hi', hj'⟩ := hstart _ List.mem_cons_self
      obtain ⟨hn, hm⟩ := hend _ List.mem_cons_self
      obtain ⟨hafter, hincreasing⟩ := List.pairwise_cons.mp hincreasing
      dsimp only at hi' hj' hn hm
      rw [List.cons_append, fillGaps, List.append_assoc]
      refine Walk.deletes (i' - i) (by omega) (Walk.inserts (j' - j) (by omega) ?_)
      rw [Nat.add_sub_of_le hi', Nat.add_sub_of_le hj']
      exact Walk.keep hn hm (ih hincreasing hafter
        (fun p hp => hend p (List.mem_cons_of_mem _ hp)) hn hm)

/-- A script is a walk that keeps the pairs of a longest alignment. -/
theorem walk_script {α : Type} (isMatch : α → α → Bool) (before after : List α) :
    Walk before.length after.length 0 0 (Alignment.longest isMatch before after).pairs
      (script isMatch before after) := by
  have haligns := Alignment.aligns_longest isMatch before after
  refine walk_fillGaps haligns.increasing haligns.fromStart ?_ (Nat.zero_le _) (Nat.zero_le _)
  intro p hp
  obtain ⟨x, y, hx, hy, -⟩ := haligns.matching p hp
  exact ⟨(List.getElem?_eq_some_iff.mp hx).1, (List.getElem?_eq_some_iff.mp hy).1⟩

/-- Between kept pairs that follow each other there is nothing to edit. -/
theorem fillGaps_range (i n : Nat) :
    fillGaps i i i ((List.range n).map (fun k => (i + k, i + k)) ++ [(i + n, i + n)]) = [] := by
  induction n generalizing i with
  | zero => simp [fillGaps]
  | succ n ih =>
      have hshift : ((fun k => (i + k, i + k)) ∘ Nat.succ) = fun k => (i + 1 + k, i + 1 + k) := by
        funext k
        simp only [Function.comp]
        congr 1 <;> omega
      have hend : i + (n + 1) = i + 1 + n := by omega
      rw [List.range_succ_eq_map, List.map_cons, List.map_map, hshift, hend, List.cons_append,
        fillGaps]
      simpa using ih (i + 1)

/-- Two lists that match item by item need no edits. -/
theorem script_eq_nil {α : Type} {isMatch : α → α → Bool} {before after : List α}
    (h : List.Forall₂ (fun x y => isMatch x y) before after) :
    script isMatch before after = [] := by
  have hrange := fillGaps_range 0 before.length
  simp only [Nat.zero_add] at hrange
  rw [script, Alignment.pairs_longest_of_forall₂ h, ← h.length_eq]
  exact hrange

end Outline.Edit
