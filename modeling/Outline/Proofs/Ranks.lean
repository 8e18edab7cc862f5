import Mathlib.Data.Int.ConditionallyCompleteOrder
import Mathlib.Data.Prod.Lex
import Outline.Proofs.TotalOrder
import Outline.Ranking

/-!
# Ranks of notes

Notes are ranked by weight and then by age: the heavier and the newer ones stand first, and
unset weights and times last.  This is a total preorder, in which two notes are of equal
rank exactly if they have the same weight and the same creation time.  Ranking some notes
puts them in this order and leaves notes of equal rank in the order they had.
-/

namespace Outline

/-- A stable sort leaves elements of equal rank as they were, among each other. -/
theorem filter_mergeSort {α : Type} {le : α → α → Bool} {p : α → Bool}
    (trans : ∀ a b c, le a b → le b c → le a c) (total : ∀ a b, (le a b || le b a) = true)
    (hp : ∀ a b, p a → p b → le a b) (xs : List α) : (xs.mergeSort le).filter p = xs.filter p := by
  have hequal : (xs.filter p).Pairwise fun a b => le a b := by
    refine List.pairwise_of_forall_mem_list fun a ha b hb => ?_
    exact hp a b (List.mem_filter.mp ha).2 (List.mem_filter.mp hb).2
  have hsublist := (List.sublist_mergeSort trans total hequal List.filter_sublist).filter p
  rw [List.filter_filter] at hsublist
  simp only [Bool.and_self] at hsublist
  exact (hsublist.eq_of_length ((List.mergeSort_perm xs le).filter p).length_eq.symm).symm

/-- In descending order one value stands before another; an unset one stands last. -/
inductive Leads {α : Type} (below : α → α → Prop) : Option α → Option α → Prop
  | above {x y : α} (h : below y x) : Leads below (some x) (some y)
  | unset (x : α) : Leads below (some x) none

theorem leads_below_iff {x y : Option Single} :
    Leads Single.Below x y ↔ Leads (· < ·) (x.map Single.rank) (y.map Single.rank) := by
  constructor
  · rintro (h | x)
    · exact .above (Single.rank_lt_rank_iff.mpr h)
    · exact .unset _
  · intro h
    cases x <;> cases y <;> cases h
    case some.some.above h => exact .above (Single.rank_lt_rank_iff.mp h)
    case some.none.unset => exact .unset _

theorem compare_eq_gt_iff {x y : Option Int} : compare x y = .gt ↔ Leads (· < ·) x y := by
  constructor
  · intro h
    cases x <;> cases y
    case some.some x y => exact .above (Int.compare_eq_gt.mp h)
    case some.none => exact .unset _
    all_goals cases h
  · rintro (h | x)
    · exact Int.compare_eq_gt.mpr h
    · rfl

namespace Note

variable {a b c : Note} {notes : List Note}

/-- A note is ranked before another one. -/
inductive RanksBefore (a b : Note) : Prop
  | heavier (h : Leads Single.Below a.weight b.weight)
  | newer (hweight : a.weight = b.weight) (h : Leads (· < ·) a.created b.created)

/-- Nothing ranks either of two notes before the other. -/
def SameRank (a b : Note) : Prop :=
  a.weight = b.weight ∧ a.created = b.created

theorem map_rank_injective : Function.Injective (Option.map Single.rank) :=
  Option.map_injective Single.rank_injective

theorem compareRanked_eq_gt : a.compareRanked b = .gt ↔ b.RanksBefore a := by
  rw [compareRanked, Ordering.then_eq_gt, compare_eq_gt_iff, compare_eq_gt_iff,
    Std.compare_eq_iff_eq, map_rank_injective.eq_iff, ← leads_below_iff]
  constructor
  · rintro (h | ⟨hweight, h⟩)
    · exact .heavier h
    · exact .newer hweight h
  · rintro (h | ⟨hweight, h⟩)
    · exact .inl h
    · exact .inr ⟨hweight, h⟩

/-- The place that an optional number has when numbers descend, counted from the last. -/
def place : Option Int → WithBot ℤ
  | none => ⊥
  | some n => n

theorem place_lt_place {x y : Option Int} : place y < place x ↔ Leads (· < ·) x y := by
  constructor
  · intro h
    cases x <;> cases y
    case some.some x y => exact .above (WithBot.coe_lt_coe.mp h)
    case some.none => exact .unset _
    case none.some => exact absurd h not_lt_bot
    case none.none => exact absurd h (lt_irrefl _)
  · rintro (h | x)
    · exact WithBot.coe_lt_coe.mpr h
    · exact WithBot.bot_lt_coe x

theorem place_injective : Function.Injective place := by
  intro x y h
  cases x <;> cases y
  case some.some x y => rw [WithBot.coe_injective h]
  case some.none => exact absurd h (WithBot.coe_ne_bot)
  case none.some => exact absurd h.symm (WithBot.coe_ne_bot)
  case none.none => rfl

/-- The place of a note in the ranking, counted from the last. -/
def standing (note : Note) : WithBot ℤ ×ₗ WithBot ℤ :=
  toLex (place (note.weight.map Single.rank), place note.created)

theorem ranksBefore_iff : a.RanksBefore b ↔ b.standing < a.standing := by
  rw [standing, standing, Prod.Lex.toLex_lt_toLex, place_lt_place, place_lt_place,
    place_injective.eq_iff, map_rank_injective.eq_iff, ← leads_below_iff]
  constructor
  · rintro (h | ⟨hweight, h⟩)
    · exact .inl h
    · exact .inr ⟨hweight.symm, h⟩
  · rintro (h | ⟨hweight, h⟩)
    · exact .heavier h
    · exact .newer hweight.symm h

theorem sameRank_iff : a.SameRank b ↔ a.standing = b.standing := by
  rw [SameRank, standing, standing, toLex_inj, Prod.mk.injEq, place_injective.eq_iff,
    place_injective.eq_iff, map_rank_injective.eq_iff]

theorem sameRank_iff_not_ranksBefore : a.SameRank b ↔ ¬a.RanksBefore b ∧ ¬b.RanksBefore a := by
  rw [sameRank_iff, ranksBefore_iff, ranksBefore_iff, not_lt, not_lt, le_antisymm_iff]

/-- Standing no later than another note is a preorder, in which any two notes compare. -/
theorem isPreorder_ranks :
    IsPreorder Note (fun a b => ¬b.RanksBefore a) ∧
      Std.Total fun a b : Note => ¬b.RanksBefore a := by
  simp only [ranksBefore_iff, not_lt]
  exact ⟨{ refl := fun a => le_rfl, trans := fun a b c hab hbc => hbc.trans hab },
    ⟨fun a b => le_total b.standing a.standing⟩⟩

/-! ## Ranked notes -/

theorem standsBy_iff : a.compareRanked b != .gt ↔ b.standing ≤ a.standing := by
  rw [bne_iff_ne, ne_eq, compareRanked_eq_gt, ranksBefore_iff, not_lt]

theorem standsBy_trans (a b c : Note) (hab : a.compareRanked b != .gt)
    (hbc : b.compareRanked c != .gt) : a.compareRanked c != .gt :=
  standsBy_iff.mpr ((standsBy_iff.mp hbc).trans (standsBy_iff.mp hab))

theorem standsBy_total (a b : Note) :
    (a.compareRanked b != .gt || b.compareRanked a != .gt) = true := by
  rw [Bool.or_eq_true, standsBy_iff, standsBy_iff]
  exact le_total b.standing a.standing

theorem ranked_perm (notes : List Note) : (ranked notes).Perm notes :=
  List.mergeSort_perm _ _

theorem pairwise_ranked (notes : List Note) :
    (ranked notes).Pairwise fun a b => ¬b.RanksBefore a := by
  refine (List.pairwise_mergeSort standsBy_trans standsBy_total notes).imp fun hle => ?_
  rw [ranksBefore_iff, not_lt]
  exact standsBy_iff.mp hle

/-- Notes of equal rank keep the order they had. -/
theorem pairwise_ranked_of_sameRank {R : Note → Note → Prop} (h : notes.Pairwise R) :
    (ranked notes).Pairwise fun a b => a.SameRank b → R a b := by
  rw [List.pairwise_iff_forall_sublist] at h ⊢
  intro a b hsublist hsame
  have hequal : ∀ c d : Note, decide (c.standing = a.standing) → decide (d.standing = a.standing) →
      c.compareRanked d != .gt := by
    intro c d hc hd
    exact standsBy_iff.mpr ((of_decide_eq_true hd).trans (of_decide_eq_true hc).symm).le
  have hfilter := filter_mergeSort standsBy_trans standsBy_total hequal notes
  have hkept : [a, b].filter (fun c => c.standing = a.standing) = [a, b] := by
    simp [sameRank_iff.mp hsame]
  have hpair := hsublist.filter fun c => c.standing = a.standing
  rw [hkept, ranked, hfilter] at hpair
  exact h (hpair.trans List.filter_sublist)

/-- Two rankings of the same notes show equal ranks in equal places. -/
theorem forall₂_sameRank {notes' : List Note} (hperm : notes.Perm notes')
    (h : notes.Pairwise fun a b => ¬b.RanksBefore a)
    (h' : notes'.Pairwise fun a b => ¬b.RanksBefore a) :
    List.Forall₂ SameRank notes notes' := by
  have hmap : notes.map standing = notes'.map standing := by
    simp only [ranksBefore_iff, not_lt] at h h'
    have hfall : (notes.map standing).Pairwise (· ≥ ·) := List.pairwise_map.mpr h
    have hfall' : (notes'.map standing).Pairwise (· ≥ ·) := List.pairwise_map.mpr h'
    exact (hperm.map standing).eq_of_pairwise (fun _ _ _ _ => ge_antisymm) hfall hfall'
  rw [← List.forall₂_eq_eq_eq, List.forall₂_map_left_iff, List.forall₂_map_right_iff] at hmap
  exact hmap.imp fun _ _ => sameRank_iff.mpr

end Note

end Outline
