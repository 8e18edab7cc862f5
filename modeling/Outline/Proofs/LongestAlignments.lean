import Mathlib.Data.List.Forall2
import Mathlib.Data.List.Nodup
import Outline.Alignment

/-!
# Longest alignments

The table of alignments agrees with the plain recursion on both lists.  The
result pairs matching places in increasing order, and no pairing of that kind is
larger: where the first items match, an alignment that leaves one of them out
can be exchanged for one that pairs them.
-/

namespace Outline.Alignment

variable {α β : Type} {isMatch : α → α → Bool}

@[simp] theorem push_size (pair : Nat × Nat) (below : Alignment) :
    (below.push pair).size = below.size + 1 := rfl

/-! ## The plain recursion -/

/-- A longest alignment of two lists whose first items are at places `i` and
`j`. -/
def align (isMatch : α → α → Bool) (i j : Nat) : List α → List α → Alignment
  | [], _ => {}
  | _ :: _, [] => {}
  | x :: xs, y :: ys =>
    if isMatch x y then (align isMatch (i + 1) (j + 1) xs ys).push (i, j)
    else larger (align isMatch (i + 1) j xs (y :: ys)) (align isMatch i (j + 1) (x :: xs) ys)
termination_by xs ys => xs.length + ys.length

@[simp] theorem align_nil_left (i j : Nat) (ys : List α) : align isMatch i j [] ys = {} := by
  rw [align]

@[simp] theorem align_nil_right (i j : Nat) (xs : List α) : align isMatch i j xs [] = {} := by
  cases xs <;> rw [align]

/-- The alignments with each ending of the second list. -/
def alignEndings (isMatch : α → α → Bool) (i j : Nat) (xs : List α) : List α → List Alignment
  | [] => [align isMatch i j xs []]
  | y :: ys => align isMatch i j xs (y :: ys) :: alignEndings isMatch i (j + 1) xs ys

theorem headD_alignEndings (i j : Nat) (xs ys : List α) :
    (alignEndings isMatch i j xs ys).headD {} = align isMatch i j xs ys := by
  cases ys <;> rfl

theorem alignEndings_nil (i j : Nat) (ys : List α) :
    alignEndings isMatch i j [] ys = List.replicate (ys.length + 1) {} := by
  induction ys generalizing j with
  | nil => simp [alignEndings]
  | cons y ys ih => simp [alignEndings, ih, List.replicate_succ]

theorem extend_alignEndings (i j : Nat) (x : α) (xs ys : List α) :
    extend isMatch i x j ys (alignEndings isMatch (i + 1) j xs ys) =
      alignEndings isMatch i j (x :: xs) ys := by
  induction ys generalizing j with
  | nil => simp [alignEndings, extend]
  | cons y ys ih =>
      rw [alignEndings, extend, alignEndings, List.tail_cons, ih]
      rw [headD_alignEndings, headD_alignEndings, align]
      rfl

theorem withEndings_eq (i : Nat) (xs ys : List α) :
    withEndings isMatch i xs ys = alignEndings isMatch i 0 xs ys := by
  induction xs generalizing i with
  | nil => rw [withEndings, alignEndings_nil]
  | cons x xs ih => rw [withEndings, ih, extend_alignEndings]

theorem longest_eq_align (xs ys : List α) : longest isMatch xs ys = align isMatch 0 0 xs ys := by
  rw [longest, withEndings_eq, headD_alignEndings]

theorem align_map (f : β → α) (i j : Nat) (xs ys : List β) :
    align isMatch i j (xs.map f) (ys.map f) =
      align (fun x y => isMatch (f x) (f y)) i j xs ys := by
  induction i, j, xs, ys using align.induct (fun x y => isMatch (f x) (f y)) with
  | case1 i j ys => simp
  | case2 i j x xs => simp
  | case3 i j x xs y ys hmatch ih =>
      rw [List.map_cons, List.map_cons, align, align, if_pos hmatch, if_pos hmatch, ih]
  | case4 i j x xs y ys hmatch ihLeft ihRight =>
      rw [List.map_cons] at ihLeft ihRight
      rw [List.map_cons, List.map_cons, align, align, if_neg hmatch, if_neg hmatch, ihLeft, ihRight]

/-- Which places are paired depends only on what matches. -/
theorem longest_map (f : β → α) (xs ys : List β) :
    longest isMatch (xs.map f) (ys.map f) = longest (fun x y => isMatch (f x) (f y)) xs ys := by
  rw [longest_eq_align, longest_eq_align, align_map]

/-- Two lists that match item by item are paired item by item. -/
theorem pairs_align_of_forall₂ {xs ys : List α} (h : List.Forall₂ (fun x y => isMatch x y) xs ys)
    (i j : Nat) :
    (align isMatch i j xs ys).pairs = (List.range xs.length).map fun k => (i + k, j + k) := by
  induction h generalizing i j with
  | nil => simp
  | @cons x y xs ys hmatch _ ih =>
      rw [align, if_pos hmatch, List.length_cons, List.range_succ_eq_map, List.map_cons,
        List.map_map]
      change (i, j) :: (align isMatch (i + 1) (j + 1) xs ys).pairs = _
      rw [ih]
      congr 1
      apply List.map_congr_left
      intro k _
      simp only [Function.comp]
      congr 1 <;> omega

theorem pairs_longest_of_forall₂ {xs ys : List α}
    (h : List.Forall₂ (fun x y => isMatch x y) xs ys) :
    (longest isMatch xs ys).pairs = (List.range xs.length).map fun k => (k, k) := by
  rw [longest_eq_align, pairs_align_of_forall₂ h]
  simp

/-! ## Pairs of matching places -/

/-- Pairs of matching places, increasing on both sides, of two lists whose first
items are at places `i` and `j`. -/
structure Aligns (isMatch : α → α → Bool) (i j : Nat) (xs ys : List α)
    (pairs : List (Nat × Nat)) : Prop where
  increasing : pairs.Pairwise fun p q => p.1 < q.1 ∧ p.2 < q.2
  fromStart : ∀ p ∈ pairs, i ≤ p.1 ∧ j ≤ p.2
  matching : ∀ p ∈ pairs, ∃ x y, xs[p.1 - i]? = some x ∧ ys[p.2 - j]? = some y ∧ isMatch x y

namespace Aligns

variable {i j : Nat} {x y : α} {xs ys : List α} {pair : Nat × Nat} {pairs : List (Nat × Nat)}

theorem nil : Aligns isMatch i j xs ys [] :=
  ⟨List.Pairwise.nil, by simp, by simp⟩

theorem tail (h : Aligns isMatch i j xs ys (pair :: pairs)) : Aligns isMatch i j xs ys pairs :=
  ⟨h.increasing.tail, fun p hp => h.fromStart p (List.mem_cons_of_mem _ hp),
    fun p hp => h.matching p (List.mem_cons_of_mem _ hp)⟩

/-- Pairs that leave out the first item of the first list. -/
theorem cons_left_iff (hstart : ∀ p ∈ pairs, i < p.1) :
    Aligns isMatch i j (x :: xs) ys pairs ↔ Aligns isMatch (i + 1) j xs ys pairs := by
  have hindex : ∀ p ∈ pairs, (x :: xs)[p.1 - i]? = xs[p.1 - (i + 1)]? := by
    intro p hp
    have hlt := hstart p hp
    rw [show p.1 - i = p.1 - (i + 1) + 1 by omega, List.getElem?_cons_succ]
  constructor
  · intro h
    refine ⟨h.increasing, fun p hp => ⟨hstart p hp, (h.fromStart p hp).2⟩, ?_⟩
    intro p hp
    rw [← hindex p hp]
    exact h.matching p hp
  · intro h
    refine ⟨h.increasing, fun p hp => ⟨Nat.le_of_lt (hstart p hp), (h.fromStart p hp).2⟩, ?_⟩
    intro p hp
    rw [hindex p hp]
    exact h.matching p hp

/-- Pairs that leave out the first item of the second list. -/
theorem cons_right_iff (hstart : ∀ p ∈ pairs, j < p.2) :
    Aligns isMatch i j xs (y :: ys) pairs ↔ Aligns isMatch i (j + 1) xs ys pairs := by
  have hindex : ∀ p ∈ pairs, (y :: ys)[p.2 - j]? = ys[p.2 - (j + 1)]? := by
    intro p hp
    have hlt := hstart p hp
    rw [show p.2 - j = p.2 - (j + 1) + 1 by omega, List.getElem?_cons_succ]
  constructor
  · intro h
    refine ⟨h.increasing, fun p hp => ⟨(h.fromStart p hp).1, hstart p hp⟩, ?_⟩
    intro p hp
    rw [← hindex p hp]
    exact h.matching p hp
  · intro h
    refine ⟨h.increasing, fun p hp => ⟨(h.fromStart p hp).1, Nat.le_of_lt (hstart p hp)⟩, ?_⟩
    intro p hp
    rw [hindex p hp]
    exact h.matching p hp

/-- What comes after the first pair lies behind it on both sides. -/
theorem lt_of_mem_tail (h : Aligns isMatch i j xs ys (pair :: pairs)) :
    ∀ p ∈ pairs, pair.1 < p.1 ∧ pair.2 < p.2 :=
  (List.pairwise_cons.mp h.increasing).1

theorem push (h : Aligns isMatch (i + 1) (j + 1) xs ys pairs) (hmatch : isMatch x y) :
    Aligns isMatch i j (x :: xs) (y :: ys) ((i, j) :: pairs) := by
  have hbelow : Aligns isMatch i j (x :: xs) (y :: ys) pairs :=
    (cons_left_iff fun p hp => (h.fromStart p hp).1).mpr
      ((cons_right_iff fun p hp => (h.fromStart p hp).2).mpr h)
  constructor
  · exact List.pairwise_cons.mpr ⟨fun p hp => h.fromStart p hp, h.increasing⟩
  · intro p hp
    rcases List.mem_cons.mp hp with rfl | hp
    · exact ⟨Nat.le_refl i, Nat.le_refl j⟩
    · exact hbelow.fromStart p hp
  · intro p hp
    rcases List.mem_cons.mp hp with rfl | hp
    · exact ⟨x, y, by simp, by simp, hmatch⟩
    · exact hbelow.matching p hp

end Aligns

/-- The recursion pairs matching places. -/
theorem aligns_align (i j : Nat) (xs ys : List α) :
    Aligns isMatch i j xs ys (align isMatch i j xs ys).pairs := by
  induction i, j, xs, ys using align.induct isMatch with
  | case1 i j ys =>
      rw [align_nil_left]
      exact Aligns.nil
  | case2 i j x xs =>
      rw [align_nil_right]
      exact Aligns.nil
  | case3 i j x xs y ys hmatch ih =>
      rw [align, if_pos hmatch]
      exact ih.push hmatch
  | case4 i j x xs y ys hmatch ihLeft ihRight =>
      rw [align, if_neg hmatch, larger]
      split
      · exact (Aligns.cons_left_iff fun p hp => (ihLeft.fromStart p hp).1).mpr ihLeft
      · exact (Aligns.cons_right_iff fun p hp => (ihRight.fromStart p hp).2).mpr ihRight

theorem size_larger (a b : Alignment) : (larger a b).size = max a.size b.size := by
  rw [larger]
  split <;> omega

/-- No pairs of matching places are more than those of the recursion. -/
theorem Aligns.length_le {i j : Nat} {xs ys : List α} {pairs : List (Nat × Nat)}
    (h : Aligns isMatch i j xs ys pairs) : pairs.length ≤ (align isMatch i j xs ys).size := by
  induction i, j, xs, ys using align.induct isMatch generalizing pairs with
  | case1 i j ys =>
      cases pairs with
      | nil => simp
      | cons pair pairs =>
          obtain ⟨x, y, hx, -⟩ := h.matching pair List.mem_cons_self
          simp at hx
  | case2 i j x xs =>
      cases pairs with
      | nil => simp
      | cons pair pairs =>
          obtain ⟨x, y, -, hy, -⟩ := h.matching pair List.mem_cons_self
          simp at hy
  | case3 i j x xs y ys hmatch ih =>
      rw [align, if_pos hmatch, push_size]
      cases pairs with
      | nil => simp
      | cons pair pairs =>
          have hpair := h.fromStart pair List.mem_cons_self
          have hlt := h.lt_of_mem_tail
          have hleft := (Aligns.cons_left_iff
            fun p hp => Nat.lt_of_le_of_lt hpair.1 (hlt p hp).1).mp h.tail
          have hboth := (Aligns.cons_right_iff
            fun p hp => Nat.lt_of_le_of_lt hpair.2 (hlt p hp).2).mp hleft
          exact Nat.succ_le_succ (ih hboth)
  | case4 i j x xs y ys hmatch ihLeft ihRight =>
      rw [align, if_neg hmatch, size_larger]
      cases pairs with
      | nil => simp
      | cons pair pairs =>
          have hpair := h.fromStart pair List.mem_cons_self
          have hlt := h.lt_of_mem_tail
          -- The first pair cannot pair the first items, so it leaves one of them out.
          by_cases hfirst : pair.1 = i
          · have hsecond : j < pair.2 := by
              refine Nat.lt_of_le_of_ne hpair.2 fun heq => hmatch ?_
              obtain ⟨x', y', hx, hy, hxy⟩ := h.matching pair List.mem_cons_self
              simp only [hfirst, ← heq, Nat.sub_self, List.getElem?_cons_zero,
                Option.some.injEq] at hx hy
              rwa [hx, hy]
            have hright := ihRight ((Aligns.cons_right_iff (by
              intro p hp
              rcases List.mem_cons.mp hp with rfl | hp
              · exact hsecond
              · exact Nat.lt_trans hsecond (hlt p hp).2)).mp h)
            exact Nat.le_trans hright (Nat.le_max_right _ _)
          · have hstart : i < pair.1 := by omega
            have hleft := ihLeft ((Aligns.cons_left_iff (by
              intro p hp
              rcases List.mem_cons.mp hp with rfl | hp
              · exact hstart
              · exact Nat.lt_trans hstart (hlt p hp).1)).mp h)
            exact Nat.le_trans hleft (Nat.le_max_left _ _)

/-- The pairs of a longest alignment are pairs of matching places. -/
theorem aligns_longest (isMatch : α → α → Bool) (xs ys : List α) :
    Aligns isMatch 0 0 xs ys (longest isMatch xs ys).pairs := by
  rw [longest_eq_align]
  exact aligns_align 0 0 xs ys

/-- No pairs of matching places are more than those of a longest alignment. -/
theorem length_le_longest {xs ys : List α} {pairs : List (Nat × Nat)}
    (h : Aligns isMatch 0 0 xs ys pairs) :
    pairs.length ≤ (longest isMatch xs ys).pairs.length := by
  rw [longest_eq_align, ← Alignment.size_eq]
  exact h.length_le

/-- A common subsequence pairs places that match, if its items match themselves. -/
theorem exists_aligns_of_sublist {common xs ys : List α} (hxs : common.Sublist xs)
    (hys : common.Sublist ys) (hself : ∀ c ∈ common, isMatch c c) (i j : Nat) :
    ∃ pairs, Aligns isMatch i j xs ys pairs ∧ pairs.length = common.length := by
  induction hxs generalizing i j ys with
  | slnil => exact ⟨[], Aligns.nil, rfl⟩
  | cons x _ ih =>
      obtain ⟨pairs, hpairs, hlength⟩ := ih hys hself (i + 1) j
      have hstart : ∀ p ∈ pairs, _ := fun p hp => (hpairs.fromStart p hp).1
      exact ⟨pairs, (Aligns.cons_left_iff hstart).mpr hpairs, hlength⟩
  | @cons_cons common xs c hxs ih =>
      obtain ⟨hmatch, hself⟩ := List.forall_mem_cons.mp hself
      induction ys generalizing j with
      | nil => cases hys
      | cons y ys ihYs =>
          rcases List.sublist_cons_iff.mp hys with hys | ⟨rest, heq, hys⟩
          · obtain ⟨pairs, hpairs, hlength⟩ := ihYs hys (j + 1)
            exact ⟨pairs, (Aligns.cons_right_iff fun p hp => (hpairs.fromStart p hp).2).mpr hpairs,
              hlength⟩
          · obtain ⟨rfl, rfl⟩ := List.cons.inj heq
            obtain ⟨pairs, hpairs, hlength⟩ := ih hys hself (i + 1) (j + 1)
            exact ⟨_, hpairs.push hmatch, by simp [hlength]⟩

/-! ## Among all pairings -/

/-- Pairs of places in two lists, increasing on both sides, whose items match. -/
structure IsPairing (isMatch : α → α → Bool) (before after : List α) (pairs : List (Nat × Nat)) :
    Prop where
  inRange : ∀ p ∈ pairs, p.1 < before.length ∧ p.2 < after.length
  increasing : pairs.Pairwise fun p q => p.1 < q.1 ∧ p.2 < q.2
  matching : ∀ p ∈ pairs, ∀ x y, before[p.1]? = some x → after[p.2]? = some y → isMatch x y

/-- Seen from the first places, pairings are the pairs of matching places. -/
theorem isPairing_iff_aligns {before after : List α} {pairs : List (Nat × Nat)} :
    IsPairing isMatch before after pairs ↔ Aligns isMatch 0 0 before after pairs := by
  constructor
  · intro h
    refine ⟨h.increasing, fun p _ => ⟨Nat.zero_le p.1, Nat.zero_le p.2⟩, fun p hp => ?_⟩
    obtain ⟨hbefore, hafter⟩ := h.inRange p hp
    have hx := List.getElem?_eq_getElem hbefore
    have hy := List.getElem?_eq_getElem hafter
    exact ⟨_, _, hx, hy, h.matching p hp _ _ hx hy⟩
  · intro h
    constructor
    case inRange =>
      intro p hp
      obtain ⟨x, y, hx, hy, -⟩ := h.matching p hp
      exact ⟨(List.getElem?_eq_some_iff.mp hx).1, (List.getElem?_eq_some_iff.mp hy).1⟩
    case increasing => exact h.increasing
    case matching =>
      intro p hp x y hx hy
      obtain ⟨x', y', hx', hy', hmatch⟩ := h.matching p hp
      obtain rfl : x' = x := Option.some.inj (hx'.symm.trans hx)
      obtain rfl : y' = y := Option.some.inj (hy'.symm.trans hy)
      exact hmatch

/-- A longest alignment is a pairing, and no other pairing has more pairs, whatever
relation says what matches. -/
theorem longest_pairs_most (isMatch : α → α → Bool) (before after : List α) :
    IsPairing isMatch before after (longest isMatch before after).pairs ∧
      ∀ pairs, IsPairing isMatch before after pairs →
        pairs.length ≤ (longest isMatch before after).pairs.length := by
  constructor
  · exact isPairing_iff_aligns.mpr (aligns_longest isMatch before after)
  · intro pairs hpairs
    exact length_le_longest (isPairing_iff_aligns.mp hpairs)

/-- The relation need not be reflexive, nor symmetric. -/
example : (longest (fun x y : Nat => x < y) [3, 1, 4] [4, 0, 5]).pairs = [(0, 0), (2, 2)] := by
  decide

end Outline.Alignment
