import Outline.Proofs.Agreement
import Outline.Proofs.Determination
import Outline.Proofs.Refusals
import Outline.Proofs.WrittenNotes

/-!
# Updates that are repeated

An update goes on below the children that were in their places before it, and no
further below those that it put there: so each call of it brings one more level of
a tree of notes into place.  What is in place stays there, since the notes name
different atoms.  After as many calls as there are levels the store agrees with
the notes, and one more call changes nothing.
-/

namespace Outline

namespace Note

/-- The second note shows what the first one sets. -/
structure Shows (wanted shown : Note) : Prop where
  value : ∀ text, wanted.value = some text → shown.value = some text
  byname : ∀ text, wanted.byname = some text → shown.byname = some text
  number : ∀ property x, wanted.number property = some x →
    SameNumber (shown.number property) (some x)

/-- Down to some levels, the second note shows what the first one sets and has the
same children; below those levels it has none. -/
def Mirrors : Nat → Note → Note → Prop
  | 0, wanted, shown => wanted.Shows shown ∧ shown.children = []
  | levels + 1, wanted, shown =>
    wanted.Shows shown ∧ List.Forall₂ (fun child below => child.id = below.id ∧
      Mirrors levels child below) wanted.children shown.children

variable {note written part : Note}

theorem Filled.number (h : note.Filled written) (property : NumberProperty) :
    written.number property = note.number property := by
  obtain ⟨-, hfields, -⟩ := h
  rw [hfields]
  cases property <;> rfl

theorem Filled.children (h : note.Filled written) :
    List.Forall₂ Filled note.children written.children := by
  obtain ⟨-, -, hchildren⟩ := h
  exact hchildren

/-- Every part of a note that was filled in was a part of it before. -/
theorem Filled.exists_within (h : note.Filled written) (hpart : part.Within written) :
    ∃ origin : Note, origin.Within note ∧ origin.Filled part :=
  exists_within_of_forall₂ (fun _ _ hab => hab.children) h hpart

end Note

namespace Update

open Store Position

variable {store before after : Store} {root pos : Position} {levels : Nat} {id : AtomId}
  {atom : Atom} {note : Note}

/-! ## Levels that are in place -/

theorem changes_of_filled {written : Note} (h : note.Filled written) (atom : Atom) :
    changes written atom = changes note atom := by
  obtain ⟨-, hfields, -⟩ := h
  rw [hfields]
  rfl

/-- Down to some levels, the lists below an atom hold the children of its note. -/
def Listed (store : Store) : (levels : Nat) → AtomId → Note → Prop
  | 0, _, _ => True
  | levels + 1, id, note =>
    List.Forall₂ (fun place child => child.id = some place.atom ∧
      Listed store levels place.atom child) (store.places id) note.children

theorem sequence_of_atom (hwf : store.WellFormed) (hatom : store.atom id = .ok atom) :
    ∃ neighbours, store.sequence atom = .ok neighbours ∧
      neighbours.map Atom.id = (store.places id).map Place.atom := by
  obtain ⟨hstores, rfl⟩ := hwf.atom_eq_iff.mp hatom
  exact sequence_eq_ok hwf (hwf.notes_eq hstores)

theorem Agrees.listed (hwf : store.WellFormed) (h : Agrees .everything store levels id note) :
    Listed store levels id note := by
  induction levels generalizing id note with
  | zero => trivial
  | succ levels ih =>
      obtain ⟨atom, neighbours, hatom, -, hneighbours, hchildren⟩ := agrees_everything_succ.mp h
      obtain ⟨others, hothers, hids⟩ := sequence_of_atom hwf hatom
      obtain rfl : neighbours = others := Except.ok.inj (hneighbours.symm.trans hothers)
      let InPlace := fun (name : AtomId) (child : Note) =>
        child.id = some name ∧ Listed store levels name child
      have hlisted : List.Forall₂ InPlace (neighbours.map Atom.id) note.children :=
        List.forall₂_map_left_iff.mpr (hchildren.imp fun _ _ hchild => hchild.imp_right ih)
      rw [hids] at hlisted
      exact List.forall₂_map_left_iff.mp hlisted

/-- Children that are in their places all have one level less to go. -/
theorem childBudget_of_forall₂
    (h : List.Forall₂ (fun place child => child.id = some place.atom) (before.places pos.atom)
      pos.wanted.children) {index : Nat} (hindex : index < pos.wanted.children.length) :
    pos.childBudget before index = pos.budget - 1 := by
  have hsame : List.Forall₂ (fun x y => sameId x y)
      ((before.places pos.atom).map fun place => some place.atom)
      (pos.wanted.children.map Note.id) := by
    refine List.forall₂_map_left_iff.mpr (List.forall₂_map_right_iff.mpr (h.imp ?_))
    exact fun place child hid => sameId_iff.mpr ⟨place.atom, rfl, hid⟩
  rw [childBudget, keptPairs, Alignment.pairs_longest_of_forall₂ hsame, if_pos]
  rw [List.map_map, List.length_map, h.length_eq]
  exact List.mem_map.mpr ⟨index, List.mem_range.mpr hindex, rfl⟩

/-- What is known of a child if its parent may go further than its lists are in place. -/
theorem Listed.child (hwf : before.WellFormed) (h : Listed before levels pos.atom pos.wanted)
    (hlevels : levels < pos.budget) {index : Nat} {child : Note}
    (hchild : pos.wanted.children[index]? = some child) :
    levels ≤ pos.childBudget before index ∧ (0 < levels → ∃ name, child.id = some name ∧
      before.HasAtom name ∧ Listed before (levels - 1) name child) := by
  cases levels with
  | zero => exact ⟨Nat.zero_le _, fun hlt => absurd hlt (Nat.lt_irrefl 0)⟩
  | succ levels =>
      obtain ⟨hindex, rfl⟩ := List.getElem?_eq_some_iff.mp hchild
      constructor
      · rw [childBudget_of_forall₂ (h.imp fun _ _ => And.left) hindex]
        exact Nat.le_sub_one_of_lt hlevels
      · intro _
        have hplace : index < (before.places pos.atom).length := h.length_eq ▸ hindex
        obtain ⟨hname, hlisted⟩ := h.get hplace hindex
        exact ⟨_, hname, hwf.hasAtom_of_mem_places _ (List.getElem_mem hplace), hlisted⟩

/-- A list that is in line is read as the atoms that the children name. -/
theorem exists_neighbours_of_inLine (hwf : after.WellFormed) (h : pos.InLine after)
    (hatom : after.atom pos.atom = .ok atom) :
    ∃ neighbours, after.sequence atom = .ok neighbours ∧
      pos.written.children.map Note.id = neighbours.map fun neighbour => some neighbour.id := by
  obtain ⟨neighbours, hneighbours, hids⟩ := sequence_of_atom hwf hatom
  have hsome := congrArg (List.map some) hids
  rw [List.map_map, List.map_map] at hsome
  exact ⟨neighbours, hneighbours, h.ids.trans hsome.symm⟩

/-- An update brings one level more into place than there were before it. -/
theorem agrees_of_settled (hwf : before.WellFormed)
    (h : Settled .everything before after [root]) (hpos : Reached .everything before root pos)
    (hfilled : pos.wanted.Filled pos.written) (hlevels : levels ≤ pos.budget)
    (hatom : 0 < levels → before.HasAtom pos.atom)
    (hlisted : Listed before (levels - 1) pos.atom pos.wanted) :
    Agrees .everything after levels pos.atom pos.written := by
  have hroot : root ∈ [root] := List.mem_singleton_self root
  -- Going down the tree: the list of each position is in line after the update, and the
  -- update has levels left for a child because it was in its place before.
  induction levels generalizing pos with
  | zero =>
      obtain ⟨old, new, -, hnew, hcarries⟩ := h.carries root hroot pos hpos
      exact ⟨new, hnew, (changes_of_filled hfilled new).trans (changes_of_carries hcarries)⟩
  | succ levels ih =>
      obtain ⟨old, new, -, hnew, hcarries⟩ := h.carries root hroot pos hpos
      obtain ⟨stored, hstored, -⟩ := hwf.arranged.exists_atom (hatom (Nat.succ_pos levels))
      have hspreads : pos.Spreads .everything before :=
        ⟨Nat.lt_of_lt_of_le (Nat.succ_pos levels) hlevels, stored, hstored, rfl⟩
      have hinLine := h.inLine root hroot pos hpos hspreads
      obtain ⟨neighbours, hneighbours, hnames⟩ :=
        exists_neighbours_of_inLine h.wellFormed hinLine hnew
      refine agrees_everything_succ.mpr ⟨new, neighbours, hnew,
        (changes_of_filled hfilled new).trans (changes_of_carries hcarries), hneighbours,
        List.forall₂_iff_get.mpr ⟨?_, ?_⟩⟩
      · simpa using (congrArg List.length hnames).symm
      intro index hneighbour hwritten
      have hwanted : index < pos.wanted.children.length := hinLine.sameLength ▸ hwritten
      have hwanted? := List.getElem?_eq_getElem hwanted
      have hwritten? := List.getElem?_eq_getElem hwritten
      have hname : pos.written.children[index].id = some neighbours[index].id := by
        have hboth := congrArg (·[index]?) hnames
        simpa [hwritten?, List.getElem?_eq_getElem hneighbour] using hboth
      obtain ⟨hbudget, hbelow⟩ := Listed.child hwf hlisted hlevels hwanted?
      have hreached := hpos.tail (Child.mk hspreads hwanted? hwritten? hname)
      -- A child whose own list is in place names the atom that its place holds.
      have hatomBelow : 0 < levels → before.HasAtom neighbours[index].id ∧
          Listed before (levels - 1) neighbours[index].id pos.wanted.children[index] := by
        intro hlt
        obtain ⟨name, hid, hhas, hlist⟩ := hbelow hlt
        have hsame := hinLine.named index _ _ name hwanted? hwritten? hid
        obtain rfl : neighbours[index].id = name := Option.some.inj (hname.symm.trans hsame)
        exact ⟨hhas, hlist⟩
      refine ⟨hname, ih hreached (hfilled.children.get hwanted hwritten) hbudget
        (fun hlt => (hatomBelow hlt).1) ?_⟩
      cases levels with
      | zero => trivial
      | succ levels => exact (hatomBelow (Nat.succ_pos levels)).2

/-! ## Views of what is in place -/

theorem shows_ofAtom (h : changes note atom = false) (children : List Note) :
    note.Shows { Note.ofAtom atom with children } := by
  simp only [changes, changesProperties, Bool.or_eq_false_iff] at h
  obtain ⟨hvalue, ⟨hbyname, hweight⟩, hsharability⟩ := h
  have hnumber : ∀ wanted stored x, changesNumber wanted stored = false → wanted = some x →
      SameNumber stored (some x) := by
    rintro wanted stored x hno rfl
    cases stored with
    | none => simp [changesNumber] at hno
    | some y => exact Single.sameValue_symm (by simpa [changesNumber] using hno)
  constructor
  case value =>
    intro text htext
    have hstored := eq_of_not_changesText hvalue
    rwa [htext] at hstored
  case byname =>
    intro text htext
    have hstored := eq_of_not_changesText hbyname
    rwa [htext] at hstored
  case number =>
    intro property x hx
    cases property with
    | priority => cases hx
    | sharability => exact hnumber _ _ x hsharability hx
    | weight => exact hnumber _ _ x hweight hx

/-- A view shows the notes that agree with the store. -/
theorem view_of_agrees (h : Agrees .everything store levels id note)
    (hatom : store.atom id = .ok atom) (parent : Option Atom) :
    ∃ shown, store.view .everything .forward levels parent atom = .ok shown ∧
      note.Mirrors levels shown := by
  induction levels generalizing id note atom parent with
  | zero =>
      obtain ⟨stored, hstored, hsame⟩ := h
      obtain rfl : atom = stored := Except.ok.inj (hatom.symm.trans hstored)
      exact ⟨.ofAtom atom, rfl, shows_ofAtom hsame [], rfl⟩
  | succ levels ih =>
      obtain ⟨stored, neighbours, hstored, hsame, hneighbours, hchildren⟩ :=
        agrees_everything_succ.mp h
      obtain rfl : atom = stored := Except.ok.inj (hatom.symm.trans hstored)
      have hviews : List.Forall₂ (fun neighbour child => ∃ shown,
          store.view .everything .forward levels (some atom) neighbour = .ok shown ∧
            child.id = shown.id ∧ child.Mirrors levels shown) neighbours note.children := by
        refine List.Forall₂.imp ?_ ((List.forall₂_and_left _ _).mpr
          ⟨atom_of_mem_sequence hneighbours, hchildren⟩)
        rintro neighbour child ⟨⟨hatom, -⟩, hid, hagrees⟩
        obtain ⟨shown, hview, hmirrors⟩ := ih hagrees hatom (some atom)
        exact ⟨shown, hview, hid.trans (id_of_view hview).symm, hmirrors⟩
      obtain ⟨children, hrun, hmirrors⟩ := mapM_of_forall₂ hviews
      refine ⟨{ Note.ofAtom atom with children }, ?_, shows_ofAtom hsame children, hmirrors⟩
      rw [view, except_bind_eq_ok]
      exact ⟨neighbours, hneighbours, except_bind_eq_ok.mpr ⟨children, hrun, rfl⟩⟩

/-! ## One call -/

/-- A tree of notes that names different atoms, none of them the root, asks only for
what can be stored, and what is drawn for it is new. -/
structure Fits (root : AtomId) (note : Note) (store : Store) : Prop where
  wellFormed : store.WellFormed
  hasAtom : store.HasAtom root
  finite : ∀ part : Note, part.Within note → ∀ property, isUnsetOrFinite (part.number property)
  notBlank : ∀ id ∈ note.idsBelow, ¬Text.isBlankText id
  nodup : note.idsBelow.Nodup
  notRoot : root ∉ note.idsBelow
  drawsNew : store.DrawsNew note.idsBelow

variable {depth : Nat} {outcome : Outcome Note} {target : AtomId}

theorem Fits.not_refusal (h : Fits target note store) {cause : NoteError} :
    ¬Refusal .everything after note cause := by
  intro hrefusal
  cases hrefusal with
  | hidden _ _ _ _ hhidden => exact Bool.noConfusion hhidden
  | blankId hpart hchild hid hblank =>
      exact h.notBlank _ (Note.mem_idsBelow_of_within hpart hchild hid) hblank
  | notFinite hpart hno =>
      rw [h.finite _ hpart] at hno
      cases hno

/-- What fits still does once identifiers are filled in. -/
theorem Fits.of_filled {written : Note} (h : Fits target note store)
    (hadvances : Advances note.idsBelow store after) (hfilled : note.Filled written)
    (hrefilled : Refilled store after note.idsBelow written.idsBelow) :
    Fits target written after := by
  obtain ⟨drawn, hperm, hdrawnNodup, hdrawn⟩ := hrefilled
  have hmem : ∀ id, id ∈ written.idsBelow ↔ id ∈ note.idsBelow ∨ id ∈ drawn := by
    intro id
    rw [hperm.mem_iff, List.mem_append]
  constructor
  case wellFormed => exact hadvances.wellFormed
  case hasAtom => exact hadvances.hasAtom target h.hasAtom
  case finite =>
    intro part hpart property
    obtain ⟨origin, horigin, hfilled⟩ := hfilled.exists_within hpart
    rw [hfilled.number]
    exact h.finite origin horigin property
  case notBlank =>
    intro id hid
    rcases (hmem id).mp hid with hid | hid
    · exact h.notBlank id hid
    · exact h.drawsNew.notBlank id (hdrawn id hid).1.1
  case nodup =>
    refine hperm.nodup_iff.mpr (h.nodup.append hdrawnNodup fun id hid hnew => ?_)
    exact h.drawsNew.notNamed id (hdrawn id hnew).1.1 hid
  case notRoot =>
    intro hid
    rcases (hmem target).mp hid with hid | hid
    · exact h.notRoot hid
    · exact (hdrawn target hid).1.2 h.hasAtom
  case drawsNew =>
    refine hadvances.drawsNew.of_named fun id hid => ?_
    exact ((hmem id).mp hid).imp_right fun hnew => (hdrawn id hnew).2

/-- A call brings one more level into place and leaves what the next one needs. -/
theorem Fits.atRoot_agrees (h : Fits target note store) (hlisted : Listed store levels target note)
    (hlevels : levels < depth) (hrun : atRoot .everything target depth note store = outcome) :
    outcome.failure = none ∧ note.Filled outcome.notes ∧
      Fits target outcome.notes outcome.progress.store ∧
      Agrees .everything outcome.progress.store (levels + 1) target outcome.notes := by
  subst hrun
  obtain ⟨atom, hatom, -, rfl⟩ := h.wellFormed.arranged.exists_atom h.hasAtom
  have hcall : atRoot .everything atom.id depth note store =
      applyNote .everything atom.id depth { store } note := by
    rw [atRoot, atRootWith, atom_eq_ok.mp hatom]
    rfl
  rw [hcall]
  have hfinite : Visibility.everything.defaults.AreFinite := ⟨rfl, rfl⟩
  have hends := applyNote_ends hfinite atom.id depth { store } note h.wellFormed h.drawsNew
    h.hasAtom fun _ hid => hid
  have hok : (applyNote .everything atom.id depth { store } note).failure = none := by
    by_contra hfails
    obtain ⟨cause, hcause⟩ := Option.ne_none_iff_exists'.mp hfails
    exact h.not_refusal (hends.refused cause hcause)
  have hadvances := hends.advances hok
  obtain ⟨hfilled, -, hrefilled⟩ :=
    applyNote_written .everything atom.id depth { store } note h.wellFormed hok
  have hnew : ∀ id ∈ note.idsBelow, ¬store.IsNew id := fun id hid hisNew =>
    h.drawsNew.notNamed id hisNew.1 hid
  have hsettled := applyNote_settled .everything atom.id depth { store } note _ h.wellFormed
    (List.nodup_cons.mpr ⟨h.notRoot, h.nodup⟩) hnew hok rfl
  refine ⟨hok, hfilled, h.of_filled hadvances hfilled hrefilled, ?_⟩
  exact agrees_of_settled h.wellFormed hsettled Relation.ReflTransGen.refl hfilled hlevels
    (fun _ => h.hasAtom) hlisted

/-! ## Repeated calls -/

/-- Updates an atom as often as is said, each time with the notes that the call before
gave back, up to the first failure. -/
def repeated (visibility : Visibility) (root : AtomId) (depth : Nat) :
    (times : Nat) → Note → Store → Outcome Note
  | 0, note, store => { notes := note, progress := { store } }
  | times + 1, note, store =>
    let first := atRoot visibility root depth note store
    match first.failure with
    | some _ => first
    | none => repeated visibility root depth times first.notes first.progress.store

/-- Every call brings one more level into place. -/
theorem Fits.repeated_agrees {times : Nat} (h : Fits target note store)
    (hagrees : levels = 0 ∨ Agrees .everything store levels target note)
    (hlevels : levels + times ≤ depth) (hpos : 0 < levels + times)
    (hrun : repeated .everything target depth times note store = outcome) :
    outcome.failure = none ∧ note.Filled outcome.notes ∧
      Fits target outcome.notes outcome.progress.store ∧
      Agrees .everything outcome.progress.store (levels + times) target outcome.notes := by
  induction times generalizing levels note store with
  | zero =>
      subst hrun
      refine ⟨rfl, .refl note, h, hagrees.resolve_left ?_⟩
      exact Nat.pos_iff_ne_zero.mp hpos
  | succ times ih =>
      -- Before the first call nothing is in place; later it is what the last one brought.
      have hlisted : Listed store levels target note := by
        rcases hagrees with rfl | hagrees
        · trivial
        · exact hagrees.listed h.wellFormed
      have hlt : levels < depth := by omega
      obtain ⟨hok, hfilled, hnext, hagrees⟩ := h.atRoot_agrees hlisted hlt rfl
      rw [repeated] at hrun
      simp only [hok] at hrun
      obtain ⟨hok', hfilled', hnext', hagrees'⟩ :=
        ih hnext (Or.inr hagrees) (by omega) (by omega) hrun
      refine ⟨hok', hfilled.trans hfilled', hnext', ?_⟩
      rwa [Nat.add_right_comm] at hagrees'

/-- Updates of a tree of notes converge.  As many calls as there are levels succeed and
leave a view of the root that shows the tree down to these levels, with the identifiers
that were filled in; one more call changes nothing, whether there is a log or not. -/
theorem repeated_converges (h : Fits target note store) (hdepth : 0 < depth)
    (hrun : repeated .everything target depth depth note store = outcome) :
    outcome.failure = none ∧ note.Filled outcome.notes ∧
      (∃ shown, outcome.progress.store.viewAt .everything .forward depth target = .ok shown ∧
        shown.id = some target ∧ outcome.notes.Mirrors depth shown) ∧
      ∀ log, atRootWith log .everything target depth outcome.notes outcome.progress.store =
        { notes := outcome.notes, progress := { store := outcome.progress.store, log } } := by
  obtain ⟨hok, hfilled, hfits, hagrees⟩ := h.repeated_agrees (Or.inl rfl)
    (Nat.le_of_eq (Nat.zero_add depth)) (by omega) hrun
  rw [Nat.zero_add] at hagrees
  obtain ⟨atom, hatom, -, rfl⟩ := hfits.wellFormed.arranged.exists_atom hfits.hasAtom
  refine ⟨hok, hfilled, ?_, fun log => ?_⟩
  · obtain ⟨shown, hview, hmirrors⟩ := view_of_agrees hagrees hatom none
    refine ⟨shown, ?_, id_of_view hview, hmirrors⟩
    rw [viewAt, atom_eq_ok.mp hatom]
    simp only [hview]
    rfl
  · rw [atRootWith, atom_eq_ok.mp hatom]
    exact applyNote_of_agrees hagrees

/-- Two children for the sample: a new one, under which one of its atoms is moved, and
the other atom. -/
def sampleMove : Note where
  children := [
    { weight := some .one, children := [{ id := some "b" }] },
    { id := some "c", value := some "last" }]

theorem sampleMove_fits : Fits "a" sampleMove sample where
  wellFormed := sample_wellFormed
  hasAtom := ⟨_, List.mem_cons_self, rfl⟩
  finite := by
    have hfinite : ∀ part : Note, part.Within sampleMove →
        (part.weight = none ∨ part.weight = some .one) ∧ part.sharability = none := by
      refine Note.forall_within (by decide)
        (List.forall_mem_cons.mpr ⟨?_, List.forall_mem_singleton.mpr ?_⟩)
      · refine Note.forall_within (by decide) (List.forall_mem_singleton.mpr ?_)
        exact Note.forall_within (by decide) (List.forall_mem_nil _)
      · exact Note.forall_within (by decide) (List.forall_mem_nil _)
    intro part hpart property
    obtain ⟨hweight, hsharability⟩ := hfinite part hpart
    cases property with
    | priority => rfl
    | sharability =>
        rw [Note.number, hsharability]
        rfl
    | weight => rcases hweight with hweight | hweight <;> rw [Note.number, hweight] <;> rfl
  notBlank := by decide
  nodup := by decide
  notRoot := by decide
  drawsNew := sample_drawsNew (by decide)

/-- The sample after two calls, each of which is needed: the new atom exists only after
the first one. -/
theorem sample_converges :
    Fits "a" sampleMove sample ∧ 0 < 2 ∧
    ∃ outcome, repeated .everything "a" 2 2 sampleMove sample = outcome ∧
      outcome.failure = none ∧ sampleMove.Filled outcome.notes ∧
      (∃ shown, outcome.progress.store.viewAt .everything .forward 2 "a" = .ok shown ∧
        shown.id = some "a" ∧ outcome.notes.Mirrors 2 shown) ∧
      ∀ log, atRootWith log .everything "a" 2 outcome.notes outcome.progress.store =
        { notes := outcome.notes, progress := { store := outcome.progress.store, log } } :=
  ⟨sampleMove_fits, by decide, _, rfl, repeated_converges sampleMove_fits (by decide) rfl⟩

end Update

end Outline
