import Outline.Proofs.OrderOfCandidates

/-!
# Depths of 32 bits

Depths are counted down in numbers of 32 bits.  A view and an update go down one level only
from a depth above zero, so one less is always a number again.  A search or a query counts
down first, and the least of all depths has nothing below it: there the hits are shown to the
greatest height that there is, and everywhere else to one less than the depth.
-/

namespace Outline

namespace Depth

variable {depth lower : Depth} {goesOn : Bool}

/-- One less than a depth, if that is a number of 32 bits. -/
def below? (depth : Depth) : Option Depth :=
  if Int32.minValue.toInt ≤ depth.toInt - 1 then some (depth - 1) else none

/-- The depth for what is under an atom: one less if the way goes on there, else no level. -/
def under? (goesOn : Bool) (depth : Depth) : Option Depth :=
  if goesOn then depth.below? else some 0

/-- How many levels the hits of a search or a query have. -/
def hitLevels (depth : Depth) : Nat :=
  if depth = Int32.minValue then 2 ^ 31 - 1 else (depth.toInt - 1).toNat

theorem toInt_bounds (depth : Depth) : -2147483648 ≤ depth.toInt ∧ depth.toInt < 2147483648 :=
  ⟨Int32.le_toInt depth, Int32.toInt_lt depth⟩

theorem minValue_le_iff : Int32.minValue.toInt ≤ depth.toInt - 1 ↔ depth ≠ Int32.minValue := by
  have hbounds := depth.toInt_bounds
  rw [ne_eq, ← Int32.toInt_inj, Int32.toInt_minValue]
  omega

theorem toInt_sub_one (h : depth ≠ Int32.minValue) : (depth - 1).toInt = depth.toInt - 1 := by
  have hleast : -2147483648 ≤ depth.toInt - 1 := minValue_le_iff.mpr h
  have hbounds := depth.toInt_bounds
  have hsub : (depth - 1).toInt = (depth.toInt - 1).bmod 4294967296 := Int32.toInt_sub depth 1
  rw [hsub, Int.bmod_eq_of_le] <;> omega

theorem below?_eq_none : depth.below? = none ↔ depth = Int32.minValue := by
  rw [below?, ite_eq_right_iff, ← not_ne_iff (a := depth), ← minValue_le_iff]
  simp

theorem below?_of_ne (h : depth ≠ Int32.minValue) : depth.below? = some (depth - 1) := by
  rw [below?, if_pos (minValue_le_iff.mpr h)]

/-- One less is a number that is less by one. -/
theorem toInt_of_below? (h : depth.below? = some lower) : lower.toInt = depth.toInt - 1 := by
  have hne : depth ≠ Int32.minValue := fun hleast => by simp [below?_eq_none.mpr hleast] at h
  rw [below?_of_ne hne] at h
  obtain rfl := Option.some.inj h
  exact toInt_sub_one hne

theorem levels_sub_one : (depth - 1).levels = depth.hitLevels := by
  rw [hitLevels]
  split
  next hleast => rw [hleast]; decide
  next hne => exact congrArg Int.toNat (toInt_sub_one hne)

theorem hitLevels_eq_zero (h : depth ≤ 1) (hne : depth ≠ Int32.minValue) :
    depth.hitLevels = 0 := by
  rw [hitLevels, if_neg hne]
  have hle : depth.toInt ≤ 1 := Int32.le_iff_toInt_le.mp h
  omega

/-- Above zero, one less is a depth of one level less. -/
theorem exists_below? {levels : Nat} (h : depth.levels = levels + 1) :
    ∃ lower, depth.below? = some lower ∧ lower.levels = levels := by
  have hlevels : depth.toInt.toNat = levels + 1 := h
  have hne : depth ≠ Int32.minValue := by
    rintro rfl
    simp at hlevels
  refine ⟨depth - 1, below?_of_ne hne, ?_⟩
  change (depth - 1).toInt.toNat = levels
  rw [toInt_sub_one hne]
  omega

theorem levels_eq_zero_iff : depth.levels = 0 ↔ depth ≤ 0 := by
  change depth.toInt.toNat = 0 ↔ _
  rw [Int32.le_iff_toInt_le, Int32.toInt_zero, Int.toNat_eq_zero]

/-- Under an atom that is not the last level, the depth is in range. -/
theorem exists_under? {levels : Nat} (h : depth.levels = levels + 1) (goesOn : Bool) :
    ∃ lower, depth.under? goesOn = some lower ∧ lower.levels = if goesOn then levels else 0 := by
  cases goesOn with
  | true => exact exists_below? h
  | false => exact ⟨0, rfl, rfl⟩

theorem levels_of_under? (h : ¬depth ≤ 0) (hlower : depth.under? goesOn = some lower) :
    lower.levels < depth.levels := by
  obtain ⟨levels, hlevels⟩ := Nat.exists_eq_succ_of_ne_zero (levels_eq_zero_iff.not.mpr h)
  obtain ⟨lower', hlower', hlast⟩ := exists_under? hlevels goesOn
  obtain rfl := Option.some.inj (hlower.symm.trans hlower')
  split at hlast <;> omega

end Depth

/-! ## Results with all numbers in range -/

section

variable {ε α β : Type}

/-- A result in which no number was out of range. -/
def inRange (x : Except ε α) : ExceptT ε Option α :=
  ExceptT.mk (some x)

/-- No result, since a number was out of range. -/
def outOfRange : ExceptT ε Option α :=
  ExceptT.mk none

theorem inRange_bind (x : Except ε α) (f : α → Except ε β) :
    (inRange x >>= fun a => inRange (f a)) = inRange (x >>= f) := by
  cases x <;> rfl

theorem mapM_inRange (f : α → Except ε β) (xs : List α) :
    (xs.mapM fun x => inRange (f x)) = inRange (xs.mapM f) := by
  induction xs with
  | nil => rfl
  | cons x xs ih =>
      rw [List.mapM_cons, List.mapM_cons, ih, ← inRange_bind]
      congr 1
      funext y
      rw [← inRange_bind]
      rfl

end

namespace Store

variable {store : Store} {visibility : Visibility} {adjacency : Adjacency} {height depth : Depth}
  {parent : Option Atom} {atom : Atom}

/-- The view of an atom down to a height of 32 bits, if no neighbour is shown to a height
that is out of range. -/
def boundedView (store : Store) (visibility : Visibility) (adjacency : Adjacency)
    (height : Depth) (parent : Option Atom) (atom : Atom) : ExceptT StoreError Option Note :=
  if _ : height ≤ 0 then inRange (.ok (.ofAtom atom))
  else do
    let neighbours ← inRange (adjacency.linked store atom parent)
    let children ← neighbours.mapM fun neighbour =>
      match _ : height.under? (visibility.shows neighbour) with
      | none => outOfRange
      | some lower => store.boundedView visibility adjacency lower (some atom) neighbour
    return { Note.ofAtom atom with children }
termination_by height.levels
decreasing_by exact Depth.levels_of_under? ‹_› ‹_›

theorem boundedView_of_levels_eq_zero (h : height.levels = 0) :
    store.boundedView visibility adjacency height parent atom = inRange (.ok (.ofAtom atom)) := by
  rw [boundedView, dif_pos (Depth.levels_eq_zero_iff.mp h)]

/-- The heights of a view are in range. -/
theorem boundedView_eq : store.boundedView visibility adjacency height parent atom =
    inRange (store.view visibility adjacency height.levels parent atom) := by
  induction hlevels : height.levels generalizing height parent atom with
  | zero => exact boundedView_of_levels_eq_zero hlevels
  | succ levels ih =>
      have hpos : ¬height ≤ 0 := fun hle => by simp [Depth.levels_eq_zero_iff.mpr hle] at hlevels
      rw [boundedView, dif_neg hpos, view, ← inRange_bind]
      congr 1
      funext neighbours
      -- What is left are the views of the neighbours, one by one.
      rw [← inRange_bind, ← mapM_inRange]
      congr 2
      funext neighbour
      obtain ⟨lower, hlower, hlast⟩ := Depth.exists_under? hlevels (visibility.shows neighbour)
      split
      next hnone => cases hnone.symm.trans hlower
      next lower' hlower' =>
        obtain rfl := Option.some.inj (hlower.symm.trans hlower')
        split at hlast
        next hshown =>
          rw [if_pos hshown]
          exact ih hlast
        next hhidden =>
          rw [if_neg hhidden]
          exact boundedView_of_levels_eq_zero hlast

/-- A view of one level shows the list of an atom, whether or not anything is hidden. -/
theorem view_one : store.view visibility .forward 1 parent atom =
    (store.sequence atom).map fun atoms =>
      { Note.ofAtom atom with children := atoms.map .ofAtom } := by
  have hleaf (neighbour : Atom) :
      (if visibility.shows neighbour then store.view visibility .forward 0 (some atom) neighbour
        else .ok (.ofAtom neighbour)) = pure (.ofAtom neighbour) := by
    split <;> rfl
  rw [view]
  simp only [hleaf, List.mapM_pure, Adjacency.linked]
  cases store.sequence atom <;> rfl

/-- The note for a candidate as `candidate?` has it, with a height of 32 bits. -/
def boundedCandidate? (store : Store) (visibility : Visibility) (adjacency : Adjacency)
    (height : Depth) (id : AtomId) : ExceptT StoreError Option (Option Note) := do
  match ← inRange (store.atom? id) with
  | none => return none
  | some atom =>
    if visibility.shows atom then
      return some (← store.boundedView visibility adjacency height none atom)
    else return none

/-- The listing of the hits of a search or a query, if one less than the depth is in range. -/
def boundedHits (store : Store) (visibility : Visibility) (adjacency : Adjacency)
    (depth : Depth) (ids : List AtomId) : ExceptT StoreError Option Note :=
  match depth.below? with
  | none => outOfRange
  | some height => do
    let notes ← ids.eraseDups.mapM (store.boundedCandidate? visibility adjacency height)
    return { children := Note.ranked (notes.filterMap id) }

theorem boundedCandidate?_eq (id : AtomId) :
    store.boundedCandidate? visibility adjacency height id =
      inRange (store.candidate? visibility adjacency height.levels id) := by
  rw [boundedCandidate?, candidate?, ← inRange_bind]
  congr 1
  funext atom?
  cases atom? with
  | none => rfl
  | some atom =>
      dsimp only
      split
      next =>
        rw [boundedView_eq, ← inRange_bind]
        rfl
      next => rfl

theorem boundedHits_eq (ids : List AtomId) :
    store.boundedHits visibility adjacency depth ids =
      if depth = Int32.minValue then outOfRange
      else inRange (store.listing visibility adjacency (depth.toInt - 1).toNat ids) := by
  rw [boundedHits]
  split
  next hnone => rw [if_pos (Depth.below?_eq_none.mp hnone)]
  next lower hlower =>
    have hne : depth ≠ Int32.minValue := fun hleast => by
      cases (Depth.below?_eq_none.mpr hleast).symm.trans hlower
    have hlevels : lower.levels = (depth.toInt - 1).toNat :=
      congrArg Int.toNat (Depth.toInt_of_below? hlower)
    rw [if_neg hne, listing, ← hlevels, ← inRange_bind, ← mapM_inRange]
    simp only [← boundedCandidate?_eq]
    rfl

end Store

namespace Update

variable {visibility : Visibility}

/-- Edits the list of an atom as `editList` does, after a view of it with a height of 32 bits. -/
def boundedEditList (visibility : Visibility) (parent : Atom) (children : List Note)
    (progress : Progress) : Option (Option NoteError × List Slot × Progress) :=
  let slots := children.map fun child => { id := child.id }
  match (progress.store.boundedView visibility .forward 1 none parent).run with
  | none => none
  | some (.error cause) => some (some (.store cause), slots, progress)
  | some (.ok view) =>
    let script := Edit.script Note.samePosition view.children children
    some (applyScript visibility parent.id script slots progress)

mutual

/-- Brings an atom in line with a note as `applyNote` does, with a depth of 32 bits, if no
atom below it is updated down to a depth that is out of range. -/
def boundedNote (visibility : Visibility) (id : AtomId) (depth : Depth) (progress : Progress) :
    Note → Option (Outcome Note)
  | { id := own, value, byname, weight, sharability, created, children } =>
    let note : Note := { id := own, value, byname, weight, sharability, created, children }
    match storeProperties id note progress with
    | .error cause progress => some { notes := note, progress, failure := some cause }
    | .ok atom progress =>
      if depth ≤ 0 then some { notes := note, progress }
      else if visibility.shows atom then do
        match ← boundedEditList visibility atom children progress with
        | (some cause, slots, progress) =>
          let children := fill children slots
          return { notes := { note with children }, progress, failure := some cause }
        | (none, slots, progress) =>
          let below ← boundedChildren visibility depth progress slots children
          return {
            notes := { note with children := below.notes }
            progress := below.progress
            failure := below.failure }
      else if children.isEmpty then some { notes := note, progress }
      else some { notes := note, progress, failure := some (.invalidUpdate (.hidden atom.id)) }

/-- Brings the atoms in a list of an atom that is updated down to `depth` in line with their
notes. -/
def boundedChildren (visibility : Visibility) (depth : Depth) (progress : Progress)
    (slots : List Slot) : List Note → Option (Outcome (List Note))
  | [] => some { notes := [], progress }
  | child :: children =>
    match slots with
    | [] => some { notes := child :: children, progress }
    | slot :: slots =>
      match slot.id with
      | none =>
        let notes := fill (child :: children) (slot :: slots)
        some { notes, progress, failure := some (.invalidUpdate .unnamed) }
      | some id => do
        let lower ← depth.under? !slot.isInserted
        let first ← boundedNote visibility id lower progress child
        let note := { first.notes with id := slot.id }
        match first.failure with
        | some cause =>
          let notes := note :: fill children slots
          return { notes, progress := first.progress, failure := some cause }
        | none =>
          let rest ← boundedChildren visibility depth first.progress slots children
          return { rest with notes := note :: rest.notes }

end

theorem boundedEditList_eq (parent : Atom) (children : List Note) (progress : Progress) :
    boundedEditList visibility parent children progress =
      some (editList visibility parent children progress) := by
  rw [boundedEditList, editList, Store.boundedView_eq,
    show Depth.levels 1 = 1 by decide, Store.view_one]
  cases progress.store.sequence parent <;> rfl

mutual

theorem boundedNote_eq (id : AtomId) (depth : Depth) (progress : Progress) (note : Note) :
    boundedNote visibility id depth progress note =
      some (applyNote visibility id depth.levels progress note) := by
  cases note with
  | mk own value byname weight sharability created children =>
      rw [boundedNote, applyNote]
      cases storeProperties id
        { id := own, value, byname, weight, sharability, created, children } progress with
      | error cause progress' => rfl
      | ok atom progress' =>
          dsimp only
          cases hlevels : depth.levels with
          | zero => rw [if_pos (Depth.levels_eq_zero_iff.mp hlevels)]
          | succ levels =>
              have hpos : ¬depth ≤ 0 :=
                fun hle => by simp [Depth.levels_eq_zero_iff.mpr hle] at hlevels
              rw [if_neg hpos, boundedEditList_eq]
              by_cases hshows : visibility.shows atom
              · rw [if_pos hshows]
                simp only [hshows, if_true, Option.bind_eq_bind, Option.bind_some]
                rcases editList visibility atom children progress' with ⟨failure, slots, progress₂⟩
                cases failure with
                | some cause => rfl
                | none =>
                    dsimp only
                    rw [boundedChildren_eq hlevels]
                    rfl
              · simp only [hshows]
                cases children <;> rfl

theorem boundedChildren_eq {depth : Depth} {levels : Nat} (hlevels : depth.levels = levels + 1)
    (progress : Progress) (slots : List Slot) (children : List Note) :
    boundedChildren visibility depth progress slots children =
      some (applyChildren visibility levels progress slots children) := by
  cases children with
  | nil => rfl
  | cons child children =>
      cases slots with
      | nil => rfl
      | cons slot slots =>
          rw [boundedChildren, applyChildren]
          cases slot.id with
          | none => rfl
          | some id =>
              obtain ⟨lower, hlower, hlast⟩ := Depth.exists_under? hlevels (!slot.isInserted)
              have hsame : lower.levels = if slot.isInserted then 0 else levels := by
                rw [hlast]
                cases slot.isInserted <;> rfl
              simp only [hlower, Option.bind_eq_bind, Option.bind_some]
              rw [boundedNote_eq, hsame]
              generalize applyNote visibility id (if slot.isInserted then 0 else levels) progress
                child = first
              obtain ⟨notes, progress', failure⟩ := first
              cases failure with
              | some cause => rfl
              | none =>
                  dsimp only [Option.bind_some]
                  rw [boundedChildren_eq hlevels]
                  rfl

end

end Update

/-! ## Depths of searches and queries -/

namespace Store

variable {store : Store} {visibility : Visibility} {adjacency : Adjacency} {depth : Depth}
  {names : List AtomId} {note : Note} {notes : List Note}

/-- The note shows some hits, each to one level less than `depth` says. -/
def ShowsHits (store : Store) (visibility : Visibility) (adjacency : Adjacency) (depth : Depth)
    (names : List AtomId) (note : Note) : Prop :=
  store.IsListing visibility adjacency depth.hitLevels names note.children ∧
    (depth ≤ 1 → depth ≠ Int32.minValue → ∀ hit ∈ note.children, hit.children = [])

/-- The notes in a listing of no levels have no children. -/
theorem IsListing.childless (h : store.IsListing visibility adjacency 0 names notes) :
    ∀ hit ∈ notes, hit.children = [] := by
  intro hit hhit
  obtain ⟨name, -, atom, -, -, hview⟩ := h.sound hit hhit
  obtain rfl := Except.ok.inj hview
  rfl

theorem showsHits_of_listing
    (h : store.listing visibility adjacency (depth - 1).levels names =
      .ok { children := note.children }) :
    store.ShowsHits visibility adjacency depth names note := by
  rw [Depth.levels_sub_one] at h
  have hlisting := isListing_of_listing h
  refine ⟨hlisting, fun hle hne => ?_⟩
  rw [Depth.hitLevels_eq_zero hle hne] at hlisting
  exact hlisting.childless

theorem showsHits_of_search {request : SearchRequest}
    (h : store.search visibility adjacency depth request = .ok note) :
    ∃ names, request.hits store = .ok names ∧
      store.ShowsHits visibility adjacency depth names note := by
  simp only [search, except_bind_eq_ok, except_mapError_eq_ok] at h
  obtain ⟨names, hnames, listed, hlisted, h⟩ := h
  obtain rfl := Except.ok.inj h
  obtain ⟨found, -, rfl⟩ := listing_eq_ok.mp hlisted
  exact ⟨names, hnames, showsHits_of_listing hlisted⟩

theorem showsHits_of_answers {engine : String → Store → Except QueryError (List AtomId)}
    {query : String} (h : store.answers visibility adjacency depth engine query = .ok note) :
    ∃ names, engine query store = .ok names ∧
      store.ShowsHits visibility adjacency depth names note := by
  obtain ⟨names, hnames, -⟩ := except_bind_eq_ok.mp h
  obtain ⟨notes, hlisted, rfl⟩ := (answers_eq_ok (except_mapError_eq_ok.mp hnames)).mp h
  exact ⟨names, except_mapError_eq_ok.mp hnames, showsHits_of_listing hlisted⟩

/-- A view and an update of any depth count down in range.  So do a search and a query, which
show every hit to the height below their depth, unless the depth is the least one: there the
number is out of range, and hits are shown to the greatest height. -/
theorem depths_in_range (store : Store) (visibility : Visibility) (adjacency : Adjacency)
    (depth : Depth) :
    (∀ parent atom, (store.boundedView visibility adjacency depth parent atom).run =
      some (store.view visibility adjacency depth.levels parent atom)) ∧
    (∀ id progress note, Update.boundedNote visibility id depth progress note =
      some (Update.applyNote visibility id depth.levels progress note)) ∧
    (∀ names, (store.boundedHits visibility adjacency depth names).run =
      if depth = Int32.minValue then none
      else some (store.listing visibility adjacency (depth.toInt - 1).toNat names)) ∧
    (∀ request note, store.search visibility adjacency depth request = .ok note →
      ∃ names, request.hits store = .ok names ∧
        store.ShowsHits visibility adjacency depth names note) ∧
    ∀ engine query note, store.answers visibility adjacency depth engine query = .ok note →
      ∃ names, engine query store = .ok names ∧
        store.ShowsHits visibility adjacency depth names note := by
  refine ⟨fun parent atom => ?_,
    fun id progress note => Update.boundedNote_eq id depth progress note, fun names => ?_,
    fun _ _ => showsHits_of_search, fun _ _ _ => showsHits_of_answers⟩
  · rw [boundedView_eq]
    rfl
  · rw [boundedHits_eq]
    split <;> rfl

/-- An atom with a list of one atom. -/
def sampleParent : Store where
  atoms := [.ofAtom { id := "a", notes := some "1" }, .ofAtom { id := "b" }]
  cells := [.ofCell { id := "1", first := "b" }]

/-- The atom with its list, as a note. -/
def sampleParentNote : Note where
  id := some "a"
  created := some 0
  children := [{ id := some "b", created := some 0 }]

/-- At the least depth a hit is shown with its list, though a view has none at any height
below zero. -/
theorem least_depth_expands_hits :
    sampleParent.answers .everything .forward Int32.minValue (fun _ _ => .ok ["a"]) "q" =
        .ok { value := some "query results for \"q\"", children := [sampleParentNote] } ∧
      sampleParent.view .everything .forward (Int32.minValue.toInt - 1).toNat none
          { id := "a", notes := some "1" } =
        .ok { id := some "a", created := some 0 } := by
  have hlevels : Depth.levels (Int32.minValue - 1) = 2147483645 + 1 + 1 := by decide
  have hlisted : sampleParent.listing .everything .forward (Depth.levels (Int32.minValue - 1))
      ["a"] = .ok { children := [sampleParentNote] } := by
    refine listing_eq_ok.mpr ⟨[some sampleParentNote], .cons ?_ .nil, by simp [Note.ranked]⟩
    rw [hlevels]
    with_unfolding_all rfl
  exact ⟨(answers_eq_ok rfl).mpr ⟨_, hlisted, rfl⟩, rfl⟩

end Store

end Outline
