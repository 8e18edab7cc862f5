import Outline.Proofs.MatchingRows
import Outline.Proofs.Running

/-!
# Walks through the rows

The walk of an expression counts phrases at the rows that match.  It finds these rows by itself,
with parts that each stand at a row and move on when the others have passed them.  No part passes
a row that matches it, and a part that stands at a row knows whether it matches there.  Both are
kept by every move, so the walk stops at all rows that the expression accepts and at no others.
-/

namespace Outline.Search

open Text (Token)

variable {rows : List (List Token)} {words : List Token} {expression left right : Expression}
  {place base stand height limit : Nat}

namespace Walk

variable {walk : Walk} {parts : List Walk} {expressions : List Expression}
  {move : Nat → Walk → Walk}

/-! ## Where a walk stands -/

/-- No row from a place on that matches has been passed, and a walk that stands at a row tells
whether it matches. -/
structure Faces (rows : List (List Token)) (expression : Expression) (base : Nat)
    (walk : Walk) : Prop where
  ahead : ∀ place, base ≤ place → MatchesAt rows expression place →
    ∃ stand ≤ place, walk.place? = some stand
  here : ∀ stand, walk.place? = some stand →
    stand < rows.length ∧ (walk.fits ↔ MatchesAt rows expression stand)

/-- A walk is made as its expression is, and its parts follow theirs from where it stands. -/
def PartsFollow (rows : List (List Token)) (follows : Expression → Nat → Walk → Prop)
    (expression : Expression) (stand : Nat) : Walk → Prop
  | group g ahead _ _ => expression = .group g ∧ ahead = rows.zipIdx.drop stand
  | all parts _ _ => ∃ left right, expression = .joined .and left right ∧
    List.Forall₂ (follows · stand ·) (left.parts .and ++ right.parts .and) parts
  | any parts _ _ => ∃ left right, expression = .joined .or left right ∧
    List.Forall₂ (follows · stand ·) (left.parts .or ++ right.parts .or) parts
  | except kept dropped => ∃ left right, expression = .joined .not left right ∧
    follows left stand kept ∧ follows right stand dropped

/-- A walk follows an expression from a place on.  The parts matter as long as it has not
ended. -/
def Follows (rows : List (List Token)) : (height : Nat) → Expression → Nat → Walk → Prop
  | 0, _, _, _ => False
  | height + 1, expression, base, walk =>
    Faces rows expression base walk ∧ ∀ stand, walk.place? = some stand →
      PartsFollow rows (Follows rows height) expression stand walk

/-- A walk has been brought to its first row from a place on. -/
structure Arrives (rows : List (List Token)) (height : Nat) (expression : Expression) (place : Nat)
    (walk : Walk) : Prop where
  follows : Follows rows height expression place walk
  le : ∀ stand, walk.place? = some stand → place ≤ stand

theorem Follows.faces (h : Follows rows height expression base walk) :
    Faces rows expression base walk := by
  cases height with
  | zero => cases h
  | succ height => exact h.1

/-- The same walk from another place on. -/
theorem Follows.of_faces {base' : Nat} (h : Follows rows height expression base walk)
    (hfaces : Faces rows expression base' walk) : Follows rows height expression base' walk := by
  cases height with
  | zero => cases h
  | succ height => exact ⟨hfaces, h.2⟩

theorem Follows.mono {base' : Nat} (h : Follows rows height expression base walk)
    (hbase : base ≤ base') : Follows rows height expression base' walk :=
  h.of_faces
    { ahead := fun place hplace => h.faces.ahead place (hbase.trans hplace)
      here := h.faces.here }

/-- A walk that stands at a row has passed nothing from there on. -/
theorem Follows.at_stand (h : Follows rows height expression base walk)
    (hstand : walk.place? = some stand) : Follows rows height expression stand walk :=
  h.of_faces { ahead := fun _ hplace _ => ⟨stand, hplace, hstand⟩, here := h.faces.here }

/-- A walk has arrived from an earlier place on if no row between matches. -/
theorem Arrives.back {base' : Nat} (h : Arrives rows height expression base' walk)
    (hbase : base ≤ base')
    (hnone : ∀ place, base ≤ place → place < base' → ¬MatchesAt rows expression place) :
    Arrives rows height expression base walk where
  follows := h.follows.of_faces
    { ahead := fun place hplace hmatch => h.follows.faces.ahead place
        (Nat.le_of_not_lt fun hlt => hnone place hplace hlt hmatch) hmatch
      here := h.follows.faces.here }
  le := fun stand hstand => hbase.trans (h.le stand hstand)

/-- A walk that has ended has left no row behind that matches. -/
theorem Follows.not_matchesAt_of_ended (h : Follows rows height expression base walk)
    (hended : walk.place? = none) (hplace : base ≤ place) : ¬MatchesAt rows expression place := by
  intro hmatch
  obtain ⟨stand, -, hstand⟩ := h.faces.ahead place hplace hmatch
  rw [hended] at hstand
  cases hstand

theorem Follows.not_matchesAt_of_lt (h : Follows rows height expression base walk)
    (hstand : walk.place? = some stand) (hplace : base ≤ place) (hlt : place < stand) :
    ¬MatchesAt rows expression place := by
  intro hmatch
  obtain ⟨stand', hle, hstand'⟩ := h.faces.ahead place hplace hmatch
  obtain rfl := Option.some.inj (hstand.symm.trans hstand')
  omega

/-- A walk ends where no row from a place on matches. -/
theorem arrives_of_ended (hended : walk.place? = none)
    (hnone : ∀ place, base ≤ place → ¬MatchesAt rows expression place) :
    Arrives rows (height + 1) expression base walk := by
  have hnowhere : ∀ stand, walk.place? ≠ some stand := by simp [hended]
  exact {
    follows := ⟨{
      ahead := fun place hplace hmatch => absurd hmatch (hnone place hplace)
      here := fun stand hstand => absurd hstand (hnowhere stand) },
      fun stand hstand => absurd hstand (hnowhere stand)⟩
    le := fun stand hstand => absurd hstand (hnowhere stand) }

theorem arrives_of_stand (hstand : walk.place? = some stand) (hbase : base ≤ stand)
    (hlt : stand < rows.length) (hfits : walk.fits ↔ MatchesAt rows expression stand)
    (hahead : ∀ place, base ≤ place → MatchesAt rows expression place → stand ≤ place)
    (hparts : PartsFollow rows (Follows rows height) expression stand walk) :
    Arrives rows (height + 1) expression base walk := by
  have hsame : ∀ other, walk.place? = some other → other = stand :=
    fun other hother => (Option.some.inj (hstand.symm.trans hother)).symm
  refine { follows := ⟨{ ahead := ?_, here := ?_ }, ?_⟩, le := ?_ }
  · exact fun place hplace hmatch => ⟨stand, hahead place hplace hmatch, hstand⟩
  · intro other hother
    rw [hsame other hother]
    exact ⟨hlt, hfits⟩
  · intro other hother
    rw [hsame other hother]
    exact hparts
  · intro other hother
    rw [hsame other hother]
    exact hbase

/-! ## Cleared walks -/

theorem place?_cleared : (walk : Walk) → walk.cleared.place? = walk.place?
  | group .. | all .. | any .. => rfl
  | except kept _ => place?_cleared kept

theorem fits_cleared : (walk : Walk) → walk.cleared.fits = walk.fits
  | group .. | all .. | any .. => rfl
  | except kept _ => fits_cleared kept

theorem clearedParts_eq_map : (parts : List Walk) → clearedParts parts = parts.map cleared
  | [] => rfl
  | part :: parts => congrArg (part.cleared :: ·) (clearedParts_eq_map parts)

/-- The counts are of no account for where a walk goes. -/
theorem Follows.cleared (h : Follows rows height expression base walk) :
    Follows rows height expression base walk.cleared := by
  induction height generalizing expression base walk with
  | zero => cases h
  | succ height ih =>
      obtain ⟨hfaces, hparts⟩ := h
      refine ⟨⟨?_, ?_⟩, ?_⟩
      · simpa only [place?_cleared] using hfaces.ahead
      · simpa only [place?_cleared, fits_cleared] using hfaces.here
      · intro stand hstand
        rw [place?_cleared] at hstand
        have hparts := hparts stand hstand
        cases walk with
        | group => exact hparts
        | all parts place fits | any parts place fits =>
            obtain ⟨left, right, heq, hparts⟩ := hparts
            refine ⟨left, right, heq, ?_⟩
            rw [clearedParts_eq_map, List.forall₂_map_right_iff]
            exact hparts.imp fun _ _ => ih
        | except kept dropped =>
            obtain ⟨left, right, heq, hkept, hdropped⟩ := hparts
            exact ⟨left, right, heq, ih hkept, ih hdropped⟩

theorem asPart_cases (walk : Walk) : walk.asPart = walk.cleared ∨ walk.asPart = walk := by
  unfold asPart
  split
  · exact .inl rfl
  · exact .inr rfl

theorem Follows.asPart (h : Follows rows height expression base walk) :
    Follows rows height expression base walk.asPart := by
  rcases asPart_cases walk with heq | heq <;> rw [heq]
  · exact h.cleared
  · exact h

theorem Arrives.asPart (h : Arrives rows height expression place walk) :
    Arrives rows height expression place walk.asPart where
  follows := h.follows.asPart
  le := by
    rcases asPart_cases walk with heq | heq <;> rw [heq]
    · simpa only [place?_cleared] using h.le
    · exact h.le

/-! ## Groups on their way -/

theorem mem_drop_zipIdx {start : Nat} :
    (words, place) ∈ rows.zipIdx.drop start ↔ start ≤ place ∧ rows[place]? = some words := by
  rw [List.mem_iff_getElem?]
  simp only [List.getElem?_drop, List.getElem?_zipIdx, Option.map_eq_some_iff, Prod.mk.injEq]
  constructor
  · rintro ⟨index, found, hfound, rfl, rfl⟩
    exact ⟨by omega, by simpa using hfound⟩
  · rintro ⟨hle, hwords⟩
    exact ⟨place - start, words, by rw [Nat.add_sub_cancel' hle, hwords], rfl, by omega⟩

/-- A group moves on to the first row that has all its words, and passes none that it matches. -/
theorem arrives_seek (g : Group) (counts : List Nat) (hle : stand ≤ place) :
    Arrives rows (height + 1) (.group g) place
      (seek g (rows.zipIdx.drop stand) counts place) := by
  let isPassed (entry : List Token × Nat) : Bool := entry.2 < place || !g.reaches entry.1
  obtain ⟨start, hstart⟩ : ∃ start,
      (rows.zipIdx.drop stand).dropWhile isPassed = rows.zipIdx.drop start := by
    rw [List.dropWhile_eq_drop_findIdx_not, List.drop_drop]
    exact ⟨_, rfl⟩
  -- What matches from the place on is still ahead.
  have hahead : ∀ later, place ≤ later → MatchesAt rows (.group g) later → start ≤ later := by
    rintro later hlater ⟨words, hwords, hmatch⟩
    have hmem : (words, later) ∈ rows.zipIdx.drop stand :=
      mem_drop_zipIdx.mpr ⟨hle.trans hlater, hwords⟩
    have hsplit := List.takeWhile_append_dropWhile (p := isPassed) (l := rows.zipIdx.drop stand)
    rw [← hsplit, List.mem_append] at hmem
    rcases hmem with hmem | hmem
    · have hpassed := List.mem_takeWhile_imp hmem
      simp [isPassed, Nat.not_lt.mpr hlater, Group.reaches_of_matches hmatch] at hpassed
    · rw [hstart] at hmem
      exact (mem_drop_zipIdx.mp hmem).1
  rw [seek]
  split
  · next hnone =>
      have hlength : rows.length ≤ start := by
        simpa using List.drop_eq_nil_iff.mp (hstart.symm.trans hnone)
      refine arrives_of_ended rfl fun later hlater hmatch => ?_
      have hle := hahead later hlater hmatch
      have hlt := hmatch.lt_length
      omega
  · next words found rest hfound =>
      have hhead : rows.zipIdx.drop start = (words, found) :: rest := hstart.symm.trans hfound
      have hzip : (rows.zipIdx.drop start)[0]? = some (words, found) := by rw [hhead]; rfl
      obtain ⟨hwords, rfl⟩ : rows[start]? = some words ∧ start = found := by simpa using hzip
      have hplace : place ≤ start := by
        have hnot := List.head?_dropWhile_not isPassed (rows.zipIdx.drop stand)
        rw [hstart, hhead] at hnot
        simpa [isPassed] using (Bool.or_eq_false_iff.mp hnot).1
      have hfits : (g.recount counts words).2 ↔ MatchesAt rows (.group g) start := by
        simp [Group.recount_snd, MatchesAt, hwords]
      exact arrives_of_stand rfl hplace (List.getElem?_eq_some_iff.mp hwords).1 hfits hahead
        ⟨rfl, hhead.symm⟩

/-! ## Parts of which all must match -/

/-- A move brings each walk that stands before a place to its first row from there on. -/
def Advances (rows : List (List Token)) (height : Nat) (move : Nat → Walk → Walk) : Prop :=
  ∀ expression base stand place walk, Follows rows height expression base walk →
    walk.place? = some stand → stand < place →
      Arrives rows height expression place (move place walk)

theorem Advances.asPart (hmove : Advances rows height move) :
    Advances rows height fun place part => (move place part).asPart :=
  fun expression base stand place walk h hstand hlt =>
    (hmove expression base stand place walk h hstand hlt).asPart

/-- A part is moved if it stands before a place, and is there or further on already if not. -/
theorem Advances.arrives (hmove : Advances rows height move)
    (h : Follows rows height expression base walk) (hbase : base ≤ place) :
    Arrives rows height expression place
      (if walk.isBehind place then move place walk else walk) := by
  by_cases hbehind : walk.isBehind place
  · rw [if_pos hbehind]
    obtain ⟨stand, hstand, hlt⟩ := (Option.any_eq_true _ _).mp hbehind
    exact hmove _ _ _ _ _ h hstand (decide_eq_true_iff.mp hlt)
  · rw [if_neg hbehind]
    refine { follows := h.mono hbase, le := fun stand hstand => ?_ }
    simpa [isBehind, hstand] using hbehind

/-- Parts have caught up with each other: on the way no row was skipped that all match. -/
structure CaughtUp (rows : List (List Token)) (height : Nat) (expressions : List Expression)
    (place reached : Nat) (parts : List Walk) : Prop where
  le : place ≤ reached
  lt_length : expressions ≠ [] ∨ place < rows.length → reached < rows.length
  skipped : ∀ skipped, place ≤ skipped → skipped < reached →
    ¬∀ part ∈ expressions, MatchesAt rows part skipped
  follows : List.Forall₂ (Follows rows height · reached ·) expressions parts
  stands : ∀ part ∈ parts, ∃ stand, part.place? = some stand ∧ place ≤ stand ∧ stand ≤ reached

/-- One more part has caught up before the others. -/
theorem CaughtUp.cons {reached : Nat} (h : Arrives rows height expression place walk)
    (hstand : walk.place? = some stand)
    (hcaught : CaughtUp rows height expressions stand reached parts) :
    CaughtUp rows height (expression :: expressions) place reached (walk :: parts) where
  le := (h.le stand hstand).trans hcaught.le
  lt_length := fun _ => hcaught.lt_length (.inr (h.follows.faces.here stand hstand).1)
  skipped := by
    intro skipped hskipped hreached hall
    obtain ⟨hfirst, hrest⟩ := List.forall_mem_cons.mp hall
    by_cases hlt : skipped < stand
    · exact h.follows.not_matchesAt_of_lt hstand hskipped hlt hfirst
    · exact hcaught.skipped skipped (Nat.le_of_not_lt hlt) hreached hrest
  follows := .cons ((h.follows.at_stand hstand).mono hcaught.le) hcaught.follows
  stands := by
    have hle := h.le stand hstand
    refine List.forall_mem_cons.mpr ⟨⟨stand, hstand, hle, hcaught.le⟩, fun part hpart => ?_⟩
    obtain ⟨stand', hstand', hge, hle'⟩ := hcaught.stands part hpart
    exact ⟨stand', hstand', hle.trans hge, hle'⟩

theorem catchUp_cases (hmove : Advances rows height move)
    (h : List.Forall₂ (Follows rows height · place ·) expressions parts) :
    (∃ parts', catchUp move place parts = (none, parts') ∧
      ∀ skipped, place ≤ skipped → ¬∀ part ∈ expressions, MatchesAt rows part skipped) ∨
    ∃ reached parts', catchUp move place parts = (some reached, parts') ∧
      CaughtUp rows height expressions place reached parts' := by
  induction expressions generalizing place parts with
  | nil =>
      cases h
      refine .inr ⟨place, [], rfl, ?_⟩
      exact {
        le := Nat.le_refl place
        lt_length := fun h => h.resolve_left fun hne => hne rfl
        skipped := fun skipped hle hlt => absurd hlt (Nat.not_lt.mpr hle)
        follows := .nil
        stands := List.forall_mem_nil _ }
  | cons expression expressions ih =>
      obtain ⟨walk, walks, hfirst, hrest, rfl⟩ := List.forall₂_cons_left_iff.mp h
      have harrives := hmove.arrives hfirst (Nat.le_refl place)
      rw [catchUp]
      generalize (if walk.isBehind place then move place walk else walk) = moved at harrives
      cases hstand : moved.place? with
      | none =>
          exact .inl ⟨moved :: walks, rfl, fun skipped hskipped hall =>
            harrives.follows.not_matchesAt_of_ended hstand hskipped
              (hall expression List.mem_cons_self)⟩
      | some stand =>
          have hle := harrives.le stand hstand
          obtain ⟨parts', heq, hnone⟩ | ⟨reached, parts', heq, hcaught⟩ :=
            ih (hrest.imp fun _ _ h => h.mono hle)
          · refine .inl ⟨moved :: parts', by simp only [heq], fun skipped hskipped hall => ?_⟩
            obtain ⟨hfirst, hrest⟩ := List.forall_mem_cons.mp hall
            by_cases hlt : skipped < stand
            · exact harrives.follows.not_matchesAt_of_lt hstand hskipped hlt hfirst
            · exact hnone skipped (Nat.le_of_not_lt hlt) hrest
          · exact .inr ⟨reached, moved :: parts', by simp only [heq],
              .cons harrives hstand hcaught⟩

/-- Parts that all stand at one row match there if their expressions do. -/
theorem all_fits_iff (h : List.Forall₂ (Follows rows height · place ·) expressions parts)
    (hstands : ∀ part ∈ parts, part.place? = some place) :
    parts.all fits ↔ ∀ part ∈ expressions, MatchesAt rows part place := by
  induction h with
  | nil => simp
  | cons hfirst hrest ih =>
      obtain ⟨hstand, hstands⟩ := List.forall_mem_cons.mp hstands
      rw [List.all_cons, Bool.and_eq_true, List.forall_mem_cons, ih hstands,
        (hfirst.faces.here place hstand).2]

theorem arrives_meet (hmove : Advances rows height move) (hlimit : rows.length < place + limit)
    (h : List.Forall₂ (Follows rows height · place ·)
      (left.parts .and ++ right.parts .and) parts) :
    Arrives rows (height + 1) (.joined .and left right) place (meet move limit place parts) := by
  have hall (place : Nat) : MatchesAt rows (.joined .and left right) place ↔
      ∀ part ∈ left.parts .and ++ right.parts .and, MatchesAt rows part place := by
    rw [List.forall_mem_append, forall_parts_matchesAt_iff, forall_parts_matchesAt_iff,
      matchesAt_and]
  induction limit generalizing place parts with
  | zero =>
      refine arrives_of_ended rfl fun skipped hle hmatch => ?_
      have hlt := hmatch.lt_length
      omega
  | succ limit ih =>
      rw [meet]
      obtain ⟨parts', heq, hnone⟩ | ⟨reached, parts', heq, hcaught⟩ := catchUp_cases hmove h
      · rw [heq]
        exact arrives_of_ended rfl fun skipped hle hmatch =>
          hnone skipped hle ((hall skipped).mp hmatch)
      · rw [heq]
        dsimp only
        split
        · next hreached =>
            subst hreached
            have hstands : ∀ part ∈ parts', part.place? = some reached := by
              intro part hpart
              obtain ⟨stand, hstand, hge, hle⟩ := hcaught.stands part hpart
              rw [hstand, Nat.le_antisymm hle hge]
            have hlt := hcaught.lt_length
              (.inl (List.append_ne_nil_of_left_ne_nil (parts_ne_nil .and) _))
            have hfits := (all_fits_iff hcaught.follows hstands).trans (hall reached).symm
            exact arrives_of_stand rfl (Nat.le_refl reached) hlt hfits (fun _ hle _ => hle)
              ⟨left, right, rfl, hcaught.follows⟩
        · next hreached =>
            have hlt := Nat.lt_of_le_of_ne hcaught.le (Ne.symm hreached)
            refine (ih (by omega) hcaught.follows).back hcaught.le fun skipped hle hlt hmatch => ?_
            exact hcaught.skipped skipped hle hlt ((hall skipped).mp hmatch)

/-! ## Parts of which one must match -/

theorem matchesAt_or_iff_exists_part :
    MatchesAt rows (.joined .or left right) place ↔
      ∃ part ∈ left.parts .or ++ right.parts .or, MatchesAt rows part place := by
  simp only [List.mem_append, or_and_right, exists_or]
  rw [exists_parts_matchesAt_iff, exists_parts_matchesAt_iff, matchesAt_or]

/-- A part that matches at a row has not passed it, and tells so if it stands there. -/
theorem exists_part_of_matchesAt
    (h : List.Forall₂ (Follows rows height · base ·) (left.parts .or ++ right.parts .or) parts)
    (hplace : base ≤ place) (hmatch : MatchesAt rows (.joined .or left right) place) :
    ∃ part ∈ parts, ∃ stand ≤ place, part.place? = some stand ∧ (stand = place → part.fits) := by
  obtain ⟨expression, hexpression, hmatch⟩ := matchesAt_or_iff_exists_part.mp hmatch
  obtain ⟨walk, hwalk, hfollows⟩ :=
    exists_mem_of_forall₂ (List.Forall₂.flip (R := flip (Follows rows height · base ·)) h)
      hexpression
  obtain ⟨stand, hle, hstand⟩ := hfollows.faces.ahead place hplace hmatch
  refine ⟨walk, hwalk, stand, hle, hstand, ?_⟩
  rintro rfl
  exact (hfollows.faces.here stand hstand).2.mpr hmatch

/-- The whole stands where the hindmost part does. -/
theorem arrives_ofAny
    (h : List.Forall₂ (Arrives rows height · base ·) (left.parts .or ++ right.parts .or) parts) :
    Arrives rows (height + 1) (.joined .or left right) base (ofAny parts) := by
  have hfollows := h.imp fun _ _ h => h.follows
  cases hmin : (parts.filterMap place?).min? with
  | none =>
      have hended := List.filterMap_eq_nil_iff.mp (List.min?_eq_none_iff.mp hmin)
      refine arrives_of_ended hmin fun place hplace hmatch => ?_
      obtain ⟨part, hpart, stand, -, hstand, -⟩ := exists_part_of_matchesAt hfollows hplace hmatch
      rw [hended part hpart] at hstand
      cases hstand
  | some stand =>
      obtain ⟨hmem, hleast⟩ := List.min?_eq_some_iff.mp hmin
      have hle : ∀ part ∈ parts, ∀ other, part.place? = some other → stand ≤ other :=
        fun part hpart other hother => hleast other (List.mem_filterMap.mpr ⟨part, hpart, hother⟩)
      obtain ⟨first, hfirst, hstand⟩ := List.mem_filterMap.mp hmem
      obtain ⟨expression, -, harrives⟩ := exists_mem_of_forall₂ h hfirst
      have hbase := harrives.le stand hstand
      have hfits : (parts.any fun part => part.place? = some stand && part.fits) ↔
          MatchesAt rows (.joined .or left right) stand := by
        simp only [List.any_eq_true, Bool.and_eq_true, decide_eq_true_eq]
        constructor
        · rintro ⟨part, hpart, hhere, hfits⟩
          obtain ⟨expression, hexpression, hfollows⟩ := exists_mem_of_forall₂ hfollows hpart
          exact matchesAt_or_iff_exists_part.mpr
            ⟨expression, hexpression, (hfollows.faces.here stand hhere).2.mp hfits⟩
        · intro hmatch
          obtain ⟨part, hpart, other, hother, hhere, hfits⟩ :=
            exists_part_of_matchesAt hfollows hbase hmatch
          obtain rfl := Nat.le_antisymm hother (hle part hpart other hhere)
          exact ⟨part, hpart, hhere, hfits rfl⟩
      have hahead : ∀ place, base ≤ place → MatchesAt rows (.joined .or left right) place →
          stand ≤ place := by
        intro place hplace hmatch
        obtain ⟨part, hpart, other, hother, hhere, -⟩ :=
          exists_part_of_matchesAt hfollows hplace hmatch
        exact (hle part hpart other hhere).trans hother
      rw [ofAny, hmin]
      exact arrives_of_stand rfl hbase (harrives.follows.faces.here stand hstand).1 hfits hahead
        ⟨left, right, rfl, hfollows.imp fun _ _ h => h.mono hbase⟩

/-! ## A part that must not match -/

section Except

variable {kept dropped : Walk}

/-- Once the part that is kept has ended, the part to be dropped is of no account. -/
theorem arrives_except_of_ended (hkept : Follows rows height left base kept)
    (hended : kept.place? = none) :
    Arrives rows (height + 1) (.joined .not left right) base (except kept dropped) := by
  refine arrives_of_ended hended fun place hplace hmatch => ?_
  exact hkept.not_matchesAt_of_ended hended hplace (matchesAt_not.mp hmatch).1

/-- A part that is kept stands at a row that the part to be dropped does not match. -/
theorem arrives_except (hkept : Arrives rows height left base kept)
    (hstand : kept.place? = some stand) (hdropped : Arrives rows height right stand dropped)
    (hfree : ¬(dropped.place? = some stand ∧ dropped.fits)) :
    Arrives rows (height + 1) (.joined .not left right) base (except kept dropped) := by
  have hnot : ¬MatchesAt rows right stand := by
    intro hmatch
    obtain ⟨other, hle, hother⟩ := hdropped.follows.faces.ahead stand (Nat.le_refl stand) hmatch
    obtain rfl := Nat.le_antisymm hle (hdropped.le other hother)
    exact hfree ⟨hother, (hdropped.follows.faces.here other hother).2.mpr hmatch⟩
  obtain ⟨hlt, hfits⟩ := hkept.follows.faces.here stand hstand
  refine arrives_of_stand hstand (hkept.le stand hstand) hlt ?_ ?_
    ⟨left, right, rfl, hkept.follows.at_stand hstand, hdropped.follows⟩
  · rw [matchesAt_not, and_iff_left hnot]
    exact hfits
  · intro place hplace hmatch
    refine Nat.le_of_not_lt fun hlt => ?_
    exact hkept.follows.not_matchesAt_of_lt hstand hplace hlt (matchesAt_not.mp hmatch).1

theorem arrives_avoid (hmove : Advances rows height move)
    (hlimit : ∀ stand, kept.place? = some stand → rows.length < stand + limit)
    (hkept : Arrives rows height left base kept)
    (hdropped : Follows rows height right base dropped) :
    Arrives rows (height + 1) (.joined .not left right) base (avoid move limit kept dropped) := by
  induction limit generalizing base kept dropped with
  | zero =>
      refine arrives_except_of_ended hkept.follows
        (Option.eq_none_iff_forall_ne_some.mpr fun stand hstand => ?_)
      have hlt := (hkept.follows.faces.here stand hstand).1
      have hle := hlimit stand hstand
      omega
  | succ limit ih =>
      rw [avoid]
      cases hstand : kept.place? with
      | none => exact arrives_except_of_ended hkept.follows hstand
      | some stand =>
          have hbase := hkept.le stand hstand
          have harrives := hmove.arrives hdropped hbase
          dsimp only
          generalize (if dropped.isBehind stand then move stand dropped else dropped) = moved
            at harrives
          split
          · next hmeets =>
              rw [Bool.and_eq_true, decide_eq_true_eq] at hmeets
              have hnext := hmove _ _ _ _ _ hkept.follows hstand (Nat.lt_succ_self stand)
              have hlimit' : ∀ stand', (move (stand + 1) kept).place? = some stand' →
                  rows.length < stand' + limit := by
                intro stand' hstand'
                have hle := hnext.le stand' hstand'
                have hlt := hlimit stand hstand
                omega
              have hlater := ih hlimit' hnext (harrives.follows.mono (Nat.le_succ stand))
              refine hlater.back (Nat.le_succ_of_le hbase) fun place hplace hlt hmatch => ?_
              obtain ⟨hleft, hright⟩ := matchesAt_not.mp hmatch
              rcases Nat.lt_succ_iff_lt_or_eq.mp hlt with hlt | rfl
              · exact hkept.follows.not_matchesAt_of_lt hstand hplace hlt hleft
              · exact hright ((harrives.follows.faces.here place hmeets.1).2.mp hmeets.2)
          · next hfree =>
              rw [Bool.and_eq_true, decide_eq_true_eq] at hfree
              exact arrives_except hkept hstand harrives hfree

end Except

/-! ## Whole walks -/

/-- No walk passes a row that matches when it is moved on. -/
theorem advances_advance (hlimit : rows.length < limit) (height : Nat) :
    Advances rows height (advance limit height) := by
  induction height with
  | zero =>
      intro expression base stand place walk h
      cases h
  | succ height ih =>
      have hmove := ih.asPart
      intro expression base stand place walk h hstand hlt
      have hparts := h.2 stand hstand
      have hle := Nat.le_of_lt hlt
      cases walk with
      | group g ahead counts fits =>
          obtain ⟨rfl, rfl⟩ := hparts
          exact arrives_seek g counts hle
      | all parts _ fits =>
          obtain ⟨left, right, rfl, hparts⟩ := hparts
          exact arrives_meet hmove (by omega) (hparts.imp fun _ _ h => h.mono hle)
      | any parts _ fits =>
          obtain ⟨left, right, rfl, hparts⟩ := hparts
          refine arrives_ofAny (List.forall₂_map_right_iff.mpr ?_)
          exact hparts.imp fun _ _ h => hmove.arrives h hle
      | except kept dropped =>
          obtain ⟨left, right, rfl, hkept, hdropped⟩ := hparts
          exact arrives_avoid hmove (fun _ _ => by omega) (hmove _ _ _ _ _ hkept hstand hlt)
            (hdropped.mono hle)

/-- The walk of an expression arrives at its first row when it starts. -/
theorem arrives_start (hlimit : rows.length < limit) (hheight : expression.height < height) :
    Arrives rows height expression 0 (start limit rows.zipIdx height expression) := by
  induction height generalizing expression with
  | zero => omega
  | succ height ih =>
      have hmove := (advances_advance hlimit height).asPart
      cases expression with
      | nothing => exact arrives_of_ended rfl fun _ _ => not_matchesAt_nothing
      | group g => exact arrives_seek g _ (Nat.le_refl 0)
      | joined joiner left right =>
          have hfirst (part : Expression)
              (hpart : part.height < (Expression.joined joiner left right).height) :
              Arrives rows height part 0 (start limit rows.zipIdx height part).asPart :=
            (ih (by omega)).asPart
          have hparts : List.Forall₂ (Arrives rows height · 0 ·)
              (left.parts joiner ++ right.parts joiner)
              ((left.parts joiner ++ right.parts joiner).map fun part =>
                (start limit rows.zipIdx height part).asPart) := by
            rw [List.forall₂_map_right_iff, List.forall₂_same]
            intro part hpart
            rcases List.mem_append.mp hpart with hpart | hpart
            · exact hfirst part (height_lt_of_mem_parts hpart).1
            · exact hfirst part (height_lt_of_mem_parts hpart).2
          cases joiner with
          | and => exact arrives_meet hmove (by omega) (hparts.imp fun _ _ h => h.follows)
          | or =>
              have hwhole := arrives_ofAny hparts
              rw [start]
              split
              · exact { follows := hwhole.follows.cleared, le := fun stand _ => Nat.zero_le stand }
              · exact hwhole
          | not =>
              have hkept := hfirst left height_lt_of_not.1
              have hdropped := hfirst right height_lt_of_not.2
              rw [start]
              dsimp only
              split
              · next hended => exact arrives_except_of_ended hkept.follows hended
              · exact arrives_avoid hmove (fun _ _ => by omega) hkept hdropped.follows

theorem drop_zipIdx_eq_cons (hlt : place < rows.length) :
    rows.zipIdx.drop place = (rows[place], place) :: rows.zipIdx.drop (place + 1) := by
  rw [List.drop_eq_getElem_cons (by simpa using hlt)]
  simp

theorem accepts_iff (hlt : place < rows.length) :
    expression.accepts rows[place] ↔ MatchesAt rows expression place := by
  simp [MatchesAt, Expression.Matches, hlt]

/-- Nothing is lost by skipping rows that do not match. -/
theorem filter_drop_zipIdx (hle : base ≤ stand)
    (hnone : ∀ place, base ≤ place → place < stand → ¬MatchesAt rows expression place) :
    (rows.zipIdx.drop base).filter (fun entry => expression.accepts entry.1) =
      (rows.zipIdx.drop stand).filter fun entry => expression.accepts entry.1 := by
  induction hle with
  | refl => rfl
  | @step stand hle ih =>
      rw [ih fun place hplace hlt => hnone place hplace (Nat.lt_succ_of_lt hlt)]
      by_cases hlt : stand < rows.length
      · have hskipped := (accepts_iff hlt).not.mpr (hnone stand hle (Nat.lt_succ_self stand))
        rw [drop_zipIdx_eq_cons hlt, List.filter_cons, if_neg hskipped]
      · have hended : rows.zipIdx.length ≤ stand := by simpa using hlt
        rw [List.drop_eq_nil_of_le hended, List.drop_eq_nil_of_le (Nat.le_succ_of_le hended)]

/-- A walk stops at all rows from a place on that match, in order, and at no others. -/
theorem follow_places (hlimit : rows.length < limit) (count : Nat)
    (hcount : rows.length ≤ base + count) {walk : Walk}
    (h : Arrives rows height expression base walk) :
    (follow limit height count walk).map Prod.fst =
      ((rows.zipIdx.drop base).filter fun entry => expression.accepts entry.1).map Prod.snd := by
  induction count generalizing base walk with
  | zero =>
      have hempty : rows.zipIdx.drop base = [] := by simpa using hcount
      rw [hempty]
      rfl
  | succ count ih =>
      rw [follow]
      cases hstand : walk.place? with
      | none =>
          have hnone : ((rows.zipIdx.drop base).filter fun entry => expression.accepts entry.1) =
              [] := by
            rw [List.filter_eq_nil_iff]
            rintro ⟨words, place⟩ hmem haccepts
            obtain ⟨hplace, hwords⟩ := mem_drop_zipIdx.mp hmem
            exact h.follows.not_matchesAt_of_ended hstand hplace ⟨words, hwords, haccepts⟩
          rw [hnone]
          rfl
      | some stand =>
          have hle := h.le stand hstand
          obtain ⟨hlt, hfits⟩ := h.follows.faces.here stand hstand
          have hlater :=
            advances_advance hlimit height _ _ _ _ _ h.follows hstand (Nat.lt_succ_self stand)
          have hrest := ih (by omega) hlater
          rw [filter_drop_zipIdx hle fun place => h.follows.not_matchesAt_of_lt hstand,
            drop_zipIdx_eq_cons hlt, List.filter_cons]
          rw [← accepts_iff hlt] at hfits
          dsimp only
          split
          · next hmatch =>
              rw [if_pos (hfits.mp hmatch), List.map_cons, List.map_cons, hrest]
          · next hmiss => rw [if_neg (hfits.not.mp hmiss), hrest]

end Walk

/-- The walk of an expression finds the rows that match, in order. -/
theorem Expression.walk_places (rows : List (List Token)) (expression : Expression) :
    (expression.walk rows).map Prod.fst =
      (rows.zipIdx.filter fun entry => expression.accepts entry.1).map Prod.snd :=
  Walk.follow_places (Nat.lt_succ_self _) (rows.length + 1) (by omega)
    (Walk.arrives_start (Nat.lt_succ_self _) (Nat.lt_succ_self _))

-- No row has a `z`, so `NOT` has nothing to keep, and the `b` counts where it stands first.
example :
    let d := Phrase.ofWord ['d']
    let z := Phrase.ofWord ['z']
    let b := Phrase.ofWord ['b']
    (Expression.joined .or (.ofWord ['d']) (.joined .not (.ofWord ['z']) (.ofWord ['b']))).walk
        [[['d']], [['d'], ['b']], [['b'], ['d']]] =
      [(0, [⟨d, 1⟩, ⟨z, 0⟩, ⟨b, 0⟩]), (1, [⟨d, 1⟩, ⟨z, 0⟩, ⟨b, 1⟩]),
        (2, [⟨d, 1⟩, ⟨z, 0⟩, ⟨b, 0⟩])] := by
  decide +kernel

/-! ## Scores -/

theorem exists_lookup_of_mem {α β : Type} [BEq α] [LawfulBEq α] {key : α}
    {entries : List (α × β)} (h : key ∈ entries.map Prod.fst) :
    ∃ value, (key, value) ∈ entries ∧ entries.lookup key = some value := by
  induction entries with
  | nil => cases h
  | cons entry entries ih =>
      obtain ⟨first, value⟩ := entry
      by_cases hfirst : key = first
      · subst hfirst
        exact ⟨value, List.mem_cons_self, by simp⟩
      · obtain ⟨value', hmem, hlookup⟩ := ih ((List.mem_cons.mp h).resolve_left hfirst)
        refine ⟨value', List.mem_cons_of_mem _ hmem, ?_⟩
        rw [List.lookup_cons, beq_false_of_ne hfirst]
        exact hlookup

/-- A row that matches is scored by the phrases that the walk counts for it. -/
theorem byRarity_of_matchesAt {index : List IndexRow}
    (hrows : index.map (fun row => Text.tokens row.text.toList) = rows)
    (h : MatchesAt rows expression place) :
    ∃ hits, (place, hits) ∈ expression.walk rows ∧
      byRarity index expression place = score rows (rows.getD place []) hits := by
  let scores := (expression.walk rows).map fun entry =>
    (entry.1, score rows (rows.getD entry.1 []) entry.2)
  have hplace : place ∈ scores.map Prod.fst := by
    obtain ⟨words, hwords, hmatch⟩ := h
    have hkeys : scores.map Prod.fst = (expression.walk rows).map Prod.fst := by
      rw [List.map_map]
      rfl
    rw [hkeys, expression.walk_places, List.mem_map]
    exact ⟨(words, place), List.mem_filter.mpr
      ⟨List.mk_mem_zipIdx_iff_getElem?.mpr hwords, hmatch⟩, rfl⟩
  obtain ⟨found, hfound, hlookup⟩ := exists_lookup_of_mem hplace
  obtain ⟨⟨_, hits⟩, hhits, hscore⟩ := List.mem_map.mp hfound
  obtain ⟨rfl, rfl⟩ := Prod.mk.inj hscore
  refine ⟨hits, hhits, ?_⟩
  simp only [byRarity, hrows]
  exact congrArg (Option.getD · ⟨0⟩) hlookup

end Outline.Search
