import Mathlib.Data.List.Induction
import Outline.Listing
import Outline.Proofs.Agreement
import Outline.Proofs.Ranks

/-!
# Ranked listings

A listing shows each candidate once, unless there is no such atom or it is not shown.  The
notes are views of the atoms, in the order of their ranks, and notes of equal rank are in the
order in which their candidates first occur.  This leaves one list of notes only.
-/

namespace Outline

/-- Where each element is listed once, elements stand in the order of their first places. -/
theorem pairwise_idxOf_eraseDups {α : Type} [DecidableEq α] (xs : List α) :
    xs.eraseDups.Pairwise fun x y => xs.idxOf x < xs.idxOf y := by
  induction xs using List.reverseRecOn with
  | nil => exact .nil
  | append_singleton xs z ih =>
      have hearlier : xs.eraseDups.Pairwise fun x y =>
          (xs ++ [z]).idxOf x < (xs ++ [z]).idxOf y := by
        refine ih.imp_of_mem fun {x y} hx hy hlt => ?_
        rw [List.mem_eraseDups] at hx hy
        rwa [List.idxOf_append_of_mem hx, List.idxOf_append_of_mem hy]
      rw [List.eraseDups_append]
      by_cases hz : z ∈ xs
      · simpa [List.removeAll, hz] using hearlier
      · have hlast : ([z].removeAll xs).eraseDups = [z] := by
          simp [List.removeAll, hz, List.eraseDups_cons]
        rw [hlast, List.pairwise_append]
        refine ⟨hearlier, List.pairwise_singleton _ _, fun x hx y hy => ?_⟩
        rw [List.mem_eraseDups] at hx
        obtain rfl := List.mem_singleton.mp hy
        rw [List.idxOf_append_of_mem hx, List.idxOf_append_of_notMem hz, List.idxOf_cons_self]
        exact List.idxOf_lt_length_of_mem hx

/-- Where the identifier of a note stands for the first time. -/
def Note.firstPlace (names : List AtomId) (note : Note) : Nat :=
  note.id.elim 0 names.idxOf

namespace Store

variable {store : Store} {visibility : Visibility} {adjacency : Adjacency} {height : Nat}
  {name : AtomId} {names names' : List AtomId} {note note' : Note} {notes notes' : List Note}
  {found : List (Option Note)}

/-- The note that a listing has for an identifier: the view of the atom, if it is shown. -/
def ShowsAs (store : Store) (visibility : Visibility) (adjacency : Adjacency) (height : Nat)
    (name : AtomId) (note : Note) : Prop :=
  ∃ atom, store.atom? name = .ok (some atom) ∧ visibility.shows atom ∧
    store.view visibility adjacency height none atom = .ok note

theorem ShowsAs.id_eq (h : store.ShowsAs visibility adjacency height name note) :
    note.id = some name := by
  obtain ⟨atom, hatom, -, hview⟩ := h
  rw [Update.id_of_view hview, id_of_atom (atom_eq_ok.mpr hatom)]

theorem ShowsAs.unique (h : store.ShowsAs visibility adjacency height name note)
    (h' : store.ShowsAs visibility adjacency height name note') : note = note' := by
  obtain ⟨atom, hatom, -, hview⟩ := h
  obtain ⟨atom', hatom', -, hview'⟩ := h'
  obtain rfl := Option.some.inj (Except.ok.inj (hatom.symm.trans hatom'))
  exact Except.ok.inj (hview.symm.trans hview')

/-- What becomes of a candidate. -/
theorem candidate?_eq_ok {answer : Option Note} :
    store.candidate? visibility adjacency height name = .ok answer ↔
      (∃ note, answer = some note ∧ store.ShowsAs visibility adjacency height name note) ∨
        answer = none ∧ ∃ atom?, store.atom? name = .ok atom? ∧
          ∀ atom, atom? = some atom → ¬visibility.shows atom := by
  rw [candidate?, except_bind_eq_ok]
  constructor
  · rintro ⟨atom?, hatom?, h⟩
    cases atom? with
    | none =>
        cases h
        exact .inr ⟨rfl, none, hatom?, by simp⟩
    | some atom =>
        dsimp only at h
        split at h
        next hshown =>
          obtain ⟨note, hview, h⟩ := except_bind_eq_ok.mp h
          cases h
          exact .inl ⟨note, rfl, atom, hatom?, hshown, hview⟩
        next hhidden =>
          cases h
          exact .inr ⟨rfl, some atom, hatom?, fun _ hsame => Option.some.inj hsame ▸ hhidden⟩
  · rintro (⟨note, rfl, atom, hatom, hshown, hview⟩ | ⟨rfl, atom?, hatom?, hhidden⟩)
    · refine ⟨some atom, hatom, ?_⟩
      simp only [hshown, if_true, hview]
      rfl
    · refine ⟨atom?, hatom?, ?_⟩
      cases atom? with
      | none => rfl
      | some atom =>
          simp only [hhidden atom rfl]
          rfl

theorem candidate?_eq_some : store.candidate? visibility adjacency height name = .ok (some note) ↔
    store.ShowsAs visibility adjacency height name note := by
  simp [candidate?_eq_ok]

/-- What the notes of a listing of some candidates are. -/
structure IsListing (store : Store) (visibility : Visibility) (adjacency : Adjacency)
    (height : Nat) (names : List AtomId) (notes : List Note) : Prop where
  /-- Every note is the view of a candidate. -/
  sound : ∀ note ∈ notes, ∃ name ∈ names, store.ShowsAs visibility adjacency height name note
  /-- Every candidate that exists and is shown has a note. -/
  complete : ∀ name ∈ names, ∀ atom, store.atom? name = .ok (some atom) → visibility.shows atom →
    ∃ note ∈ notes, store.ShowsAs visibility adjacency height name note
  once : (notes.map Note.id).Nodup
  ranked : notes.Pairwise fun a b => ¬b.RanksBefore a
  ties : notes.Pairwise fun a b =>
    a.SameRank b → a.firstPlace names < b.firstPlace names

/-- The notes of a listing are among those of a listing of further candidates. -/
theorem IsListing.subset (hnames : names ⊆ names')
    (h : store.IsListing visibility adjacency height names notes)
    (h' : store.IsListing visibility adjacency height names' notes') : notes ⊆ notes' := by
  intro note hnote
  obtain ⟨name, hname, hshown⟩ := h.sound note hnote
  obtain ⟨atom, hatom, hvisible, -⟩ := id hshown
  obtain ⟨note', hnote', hshown'⟩ := h'.complete name (hnames hname) atom hatom hvisible
  rwa [hshown.unique hshown']

/-- Listings of the same candidates have the same notes. -/
theorem IsListing.perm (hnames : ∀ name, name ∈ names ↔ name ∈ names')
    (h : store.IsListing visibility adjacency height names notes)
    (h' : store.IsListing visibility adjacency height names' notes') : notes.Perm notes' :=
  (List.perm_ext_iff_of_nodup h.once.of_map h'.once.of_map).mpr fun _ =>
    ⟨fun hnote => h.subset (fun name => (hnames name).mp) h' hnote,
      fun hnote => h'.subset (fun name => (hnames name).mpr) h hnote⟩

/-- The notes of a listing stand in one order only: the one of their ranks, and of their
candidates where ranks are equal. -/
theorem IsListing.unique (h : store.IsListing visibility adjacency height names notes)
    (h' : store.IsListing visibility adjacency height names notes') : notes = notes' := by
  have hperm := h.perm (fun _ => Iff.rfl) h'
  refine List.Perm.eq_of_pairwise ?_ (h.ranked.and h.ties) (h'.ranked.and h'.ties) hperm
  rintro a b - - ⟨hab, hties⟩ ⟨hba, hties'⟩
  have hsame := Note.sameRank_iff_not_ranksBefore.mpr ⟨hba, hab⟩
  have hlt := hties hsame
  have hgt := hties' ⟨hsame.1.symm, hsame.2.symm⟩
  omega

theorem listing_eq_ok : store.listing visibility adjacency height names = .ok note ↔
    ∃ found, List.Forall₂ (fun name found =>
      store.candidate? visibility adjacency height name = .ok found) names.eraseDups found ∧
      note = { children := Note.ranked (found.filterMap id) } := by
  simp only [listing, except_bind_eq_ok, mapM_eq_ok_iff_forall₂]
  exact exists_congr fun found => and_congr_right fun _ =>
    ⟨fun h => (Except.ok.inj h).symm, fun h => congrArg Except.ok h.symm⟩

/-- The notes of some candidates have the identifiers of some of them, in their order. -/
theorem map_id_sublist (h : List.Forall₂ (fun name found =>
      store.candidate? visibility adjacency height name = .ok found) names found) :
    ((found.filterMap id).map Note.id).Sublist (names.map some) := by
  induction h with
  | nil => exact .slnil
  | @cons name answer names found hname _ ih =>
      cases answer with
      | none => exact ih.cons _
      | some note =>
          have hid := (candidate?_eq_some.mp hname).id_eq
          simpa [hid] using ih.cons_cons (some name)

/-- A listing has the notes of its candidates, in the order that is theirs. -/
theorem isListing_of_listing
    (h : store.listing visibility adjacency height names = .ok note) :
    store.IsListing visibility adjacency height names note.children := by
  obtain ⟨found, hfound, rfl⟩ := listing_eq_ok.mp h
  have hmem {note : Note} : note ∈ Note.ranked (found.filterMap id) ↔
      ∃ name ∈ names, store.ShowsAs visibility adjacency height name note := by
    rw [(Note.ranked_perm _).mem_iff, List.mem_filterMap]
    simp only [id, exists_eq_right, mem_of_mapM_eq_ok (mapM_eq_ok_iff_forall₂.mpr hfound),
      List.mem_eraseDups, candidate?_eq_some]
  have hsublist := map_id_sublist hfound
  have hnames : (names.eraseDups.map some).Pairwise fun x y =>
      x.elim 0 names.idxOf < y.elim 0 names.idxOf :=
    List.pairwise_map.mpr (pairwise_idxOf_eraseDups names)
  have hplaces := hnames.sublist hsublist
  rw [List.pairwise_map] at hplaces
  constructor
  case sound => exact fun note hnote => hmem.mp hnote
  case complete =>
    intro name hname atom hatom hshown
    obtain ⟨answer, hanswer⟩ := exists_ok_of_mapM_eq_ok (mapM_eq_ok_iff_forall₂.mpr hfound)
      (List.mem_eraseDups.mpr hname)
    obtain ⟨note, rfl, hnote⟩ | ⟨-, atom?, hatom?, hhidden⟩ := candidate?_eq_ok.mp hanswer
    · exact ⟨note, hmem.mpr ⟨name, hname, hnote⟩, hnote⟩
    · cases hatom?.symm.trans hatom
      exact absurd hshown (hhidden atom rfl)
  case once =>
    refine ((Note.ranked_perm _).map Note.id).nodup_iff.mpr (List.pairwise_map.mpr ?_)
    refine hplaces.imp fun hlt hsame => ?_
    rw [hsame] at hlt
    exact lt_irrefl _ hlt
  case ranked => exact Note.pairwise_ranked _
  case ties => exact Note.pairwise_ranked_of_sameRank hplaces

/-- There is a listing of some candidates unless one of them cannot be read or viewed. -/
theorem exists_listing_iff :
    (∃ note, store.listing visibility adjacency height names = .ok note) ↔
      ∀ name ∈ names, ∃ answer, store.candidate? visibility adjacency height name = .ok answer := by
  constructor
  · rintro ⟨note, h⟩ name hname
    obtain ⟨found, hfound, -⟩ := listing_eq_ok.mp h
    exact exists_ok_of_mapM_eq_ok (mapM_eq_ok_iff_forall₂.mpr hfound)
      (List.mem_eraseDups.mpr hname)
  · intro h
    obtain ⟨found, hfound⟩ :=
      exists_mapM_eq_ok fun name hname => h name (List.mem_eraseDups.mp hname)
    exact ⟨_, listing_eq_ok.mpr ⟨found, mapM_eq_ok_iff_forall₂.mp hfound, rfl⟩⟩

/-- A listing shows every candidate that exists and is shown, once and as the view of it, if all
of them can be read and viewed.  The notes are ranked, and notes of equal rank stand in the order
in which their candidates first occur; no other list of notes is like that, since the ranking is
a total preorder. -/
theorem listing_complete_ranked :
    (store.listing visibility adjacency height names = .ok note ↔
      (∀ name ∈ names, ∃ answer, store.candidate? visibility adjacency height name = .ok answer) ∧
        note = { children := note.children } ∧
        store.IsListing visibility adjacency height names note.children) ∧
      (∀ notes notes', store.IsListing visibility adjacency height names notes →
        store.IsListing visibility adjacency height names notes' → notes = notes') ∧
      (∀ a b : Note, a.compareRanked b = .gt ↔ b.RanksBefore a) ∧
      (∀ a b : Note, a.SameRank b ↔ ¬a.RanksBefore b ∧ ¬b.RanksBefore a) ∧
      IsPreorder Note (fun a b => ¬b.RanksBefore a) ∧
      Std.Total fun a b : Note => ¬b.RanksBefore a := by
  refine ⟨⟨fun h => ⟨exists_listing_iff.mp ⟨note, h⟩, ?_, isListing_of_listing h⟩, ?_⟩,
    fun _ _ hnotes hnotes' => hnotes.unique hnotes', fun _ _ => Note.compareRanked_eq_gt,
    fun _ _ => Note.sameRank_iff_not_ranksBefore, Note.isPreorder_ranks⟩
  · obtain ⟨found, -, rfl⟩ := listing_eq_ok.mp h
    rfl
  · rintro ⟨hfound, hnote, hlisting⟩
    obtain ⟨listed, hlisted⟩ := exists_listing_iff.mpr hfound
    have hsame := hlisting.unique (isListing_of_listing hlisted)
    obtain ⟨found, -, rfl⟩ := listing_eq_ok.mp hlisted
    rw [hlisted, hnote, hsame]

/-- An atom with a list of its own, a heavier one, and three without a weight, one of which is
hidden and two of which are of one age. -/
def sampleHits : Store where
  atoms := [
    .ofAtom { id := "a", created := 3, weight := some .zero, notes := some "1" },
    .ofAtom { id := "b", created := 1, weight := some .one },
    .ofAtom { id := "c", created := 2 }, .ofAtom { id := "d", created := 2 },
    .ofAtom { id := "hidden", created := 9 }]
  cells := [.ofCell { id := "1", first := "c" }]

def sampleVisibility : Visibility where
  shows atom := atom.id != "hidden"

def sampleCandidates : List AtomId :=
  ["d", "a", "none", "c", "hidden", "d", "b", "a"]

/-- The notes of the sample by rank. -/
def sampleRanked : List Note := [
  { id := some "b", created := some 1, weight := some .one },
  { id := some "a", created := some 3, weight := some .zero,
    children := [{ id := some "c", created := some 2 }] },
  { id := some "d", created := some 2 }, { id := some "c", created := some 2 }]

theorem sample_listing :
    sampleHits.listing sampleVisibility .forward 1 sampleCandidates =
        .ok { children := sampleRanked } ∧
      sampleHits.IsListing sampleVisibility .forward 1 sampleCandidates sampleRanked := by
  have hlisting : sampleHits.listing sampleVisibility .forward 1 sampleCandidates =
      .ok { children := sampleRanked } := by
    refine listing_eq_ok.mpr ⟨[
      some { id := some "d", created := some 2 },
      some { id := some "a", created := some 3, weight := some .zero,
             children := [{ id := some "c", created := some 2 }] },
      none,
      some { id := some "c", created := some 2 },
      none,
      some { id := some "b", created := some 1, weight := some .one }], ?_, ?_⟩
    · exact mapM_eq_ok_iff_forall₂.mp (by with_unfolding_all rfl)
    · simp +decide [sampleRanked, Note.ranked, List.mergeSort, List.MergeSort.Internal.splitInTwo]
  exact ⟨hlisting, (listing_complete_ranked.1.mp hlisting).2.2⟩

end Store

end Outline
