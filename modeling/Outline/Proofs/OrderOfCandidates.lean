import Outline.Proofs.RankedListings

/-!
# The order of candidates

Two engines that find the same candidates for a query, in any order and any number of times,
get the same notes by rank.  Where notes are of equal rank, their order is that of the
candidates, so the answers are the same exactly if both engines have the candidates of such
notes in the same order.
-/

namespace Outline.Store

variable {store : Store} {visibility : Visibility} {adjacency : Adjacency} {height : Nat}
  {depth : Depth} {engine engine' : String → Store → Except QueryError (List AtomId)}
  {query : String} {names names' : List AtomId} {note : Note} {notes notes' : List Note}

/-- Listings of the same candidates are the same exactly if the candidates of notes of equal
rank first occur in the same order. -/
theorem IsListing.eq_iff (hnames : ∀ name, name ∈ names ↔ name ∈ names')
    (h : store.IsListing visibility adjacency height names notes)
    (h' : store.IsListing visibility adjacency height names' notes') :
    notes' = notes ↔ ∀ a ∈ notes, ∀ b ∈ notes, a.SameRank b →
      (a.firstPlace names < b.firstPlace names ↔
        a.firstPlace names' < b.firstPlace names') := by
  constructor
  · rintro rfl
    have hties := h.ties.and h'.ties
    refine List.Pairwise.forall_of_forall_of_flip (fun _ _ _ => by simp) ?_ ?_
    · refine hties.imp fun hlt hsame => ?_
      exact ⟨fun _ => hlt.2 hsame, fun _ => hlt.1 hsame⟩
    · refine hties.imp fun {a b} hlt hsame => ?_
      have hsame' : a.SameRank b := ⟨hsame.1.symm, hsame.2.symm⟩
      exact ⟨fun hgt => absurd (hlt.1 hsame') hgt.asymm,
        fun hgt => absurd (hlt.2 hsame') hgt.asymm⟩
  · intro halike
    refine h'.unique ⟨?_, ?_, h.once, h.ranked, ?_⟩
    · intro note hnote
      obtain ⟨name, hname, hshown⟩ := h.sound note hnote
      exact ⟨name, (hnames name).mp hname, hshown⟩
    · exact fun name hname => h.complete name ((hnames name).mpr hname)
    · refine h.ties.imp_of_mem fun {a b} ha hb hlt hsame => ?_
      exact (halike a ha b hb hsame).mp (hlt hsame)

/-- The answer to a query is the listing of its candidates. -/
theorem answers_eq_ok (hengine : engine query store = .ok names) :
    store.answers visibility adjacency depth engine query = .ok note ↔ ∃ notes,
      store.listing visibility adjacency (depth - 1).levels names = .ok { children := notes } ∧
        note = { value := some ("query results for \"" ++ query ++ "\""),
                 children := notes } := by
  simp only [answers, except_bind_eq_ok, except_mapError_eq_ok, hengine]
  constructor
  · rintro ⟨names, hnames, listed, hlisted, h⟩
    obtain rfl := Except.ok.inj hnames
    obtain rfl := Except.ok.inj h
    obtain ⟨found, -, rfl⟩ := listing_eq_ok.mp hlisted
    exact ⟨_, hlisted, rfl⟩
  · rintro ⟨notes, hlisted, rfl⟩
    exact ⟨names, rfl, _, hlisted, rfl⟩

/-- There is an answer unless a candidate cannot be read or viewed. -/
theorem exists_answers_iff (hengine : engine query store = .ok names) :
    (∃ note, store.answers visibility adjacency depth engine query = .ok note) ↔
      ∀ name ∈ names, ∃ answer,
        store.candidate? visibility adjacency (depth - 1).levels name = .ok answer := by
  simp only [← exists_listing_iff, answers_eq_ok hengine]
  constructor
  · rintro ⟨note, notes, hlisted, -⟩
    exact ⟨_, hlisted⟩
  · rintro ⟨listed, hlisted⟩
    obtain ⟨found, -, rfl⟩ := listing_eq_ok.mp hlisted
    exact ⟨_, _, hlisted, rfl⟩

/-- Engines that find the same candidates for a query get answers of the same notes in the same
ranks, and the same answer exactly if they have tied candidates in the same order. -/
theorem answers_of_same_candidates (hengine : engine query store = .ok names)
    (hengine' : engine' query store = .ok names')
    (hnames : ∀ name, name ∈ names ↔ name ∈ names') :
    ((∃ note, store.answers visibility adjacency depth engine query = .ok note) ↔
      ∃ note', store.answers visibility adjacency depth engine' query = .ok note') ∧
    ∀ note note', store.answers visibility adjacency depth engine query = .ok note →
      store.answers visibility adjacency depth engine' query = .ok note' →
      note' = { note with children := note'.children } ∧
      note.children.Perm note'.children ∧
      List.Forall₂ Note.SameRank note.children note'.children ∧
      (note' = note ↔ ∀ a ∈ note.children, ∀ b ∈ note.children, a.SameRank b →
        (a.firstPlace names < b.firstPlace names ↔
          a.firstPlace names' < b.firstPlace names')) := by
  refine ⟨?_, fun note note' h h' => ?_⟩
  · rw [exists_answers_iff hengine, exists_answers_iff hengine']
    exact forall_congr' fun name => by rw [hnames name]
  · obtain ⟨notes, hlisted, rfl⟩ := (answers_eq_ok hengine).mp h
    obtain ⟨notes', hlisted', rfl⟩ := (answers_eq_ok hengine').mp h'
    have hlisting := isListing_of_listing hlisted
    have hlisting' := isListing_of_listing hlisted'
    have hperm := hlisting.perm hnames hlisting'
    refine ⟨rfl, hperm, Note.forall₂_sameRank hperm hlisting.ranked hlisting'.ranked, ?_⟩
    rw [← hlisting.eq_iff hnames hlisting']
    simp

/-- Two atoms of one age, neither of which has a weight. -/
def sampleTwins : Store where
  atoms := [.ofAtom { id := "a", created := 1000 }, .ofAtom { id := "b", created := 1000 }]

/-- The answer of an engine that finds the given candidates whatever it is asked. -/
def sampleAnswer (names : List AtomId) : Except NoteError Note :=
  sampleTwins.answers .everything .forward 1 (fun _ _ => .ok names) "q"

theorem sample_answers_of_same_candidates :
    (∀ name, name ∈ ["a", "b", "a"] ↔ name ∈ ["b", "a"]) ∧ ∃ note note',
      sampleAnswer ["a", "b", "a"] = .ok note ∧ sampleAnswer ["b", "a"] = .ok note' ∧
        note' = { note with children := note'.children } ∧
        note.children.Perm note'.children ∧
        List.Forall₂ Note.SameRank note.children note'.children ∧
        (note' = note ↔ ∀ a ∈ note.children, ∀ b ∈ note.children, a.SameRank b →
          (a.firstPlace ["a", "b", "a"] < b.firstPlace ["a", "b", "a"] ↔
            a.firstPlace ["b", "a"] < b.firstPlace ["b", "a"])) := by
  have hnames : ∀ name, name ∈ ["a", "b", "a"] ↔ name ∈ ["b", "a"] := by grind
  have hfound : ∀ name ∈ ["a", "b", "a"], ∃ answer,
      sampleTwins.candidate? .everything .forward ((1 : Depth) - 1).levels name = .ok answer := by
    simp only [List.forall_mem_cons, List.not_mem_nil, false_imp_iff, implies_true, and_true]
    exact ⟨⟨_, rfl⟩, ⟨_, rfl⟩, ⟨_, rfl⟩⟩
  obtain ⟨note, hnote⟩ : ∃ note, sampleAnswer ["a", "b", "a"] = .ok note :=
    (exists_answers_iff rfl).mpr hfound
  obtain ⟨note', hnote'⟩ : ∃ note', sampleAnswer ["b", "a"] = .ok note' :=
    (exists_answers_iff rfl).mpr fun name hname => hfound name ((hnames name).mpr hname)
  have hboth := (answers_of_same_candidates rfl rfl hnames).2 note note' hnote hnote'
  exact ⟨hnames, note, note', hnote, hnote', hboth⟩

/-- Two candidates of equal rank are answered in their own order. -/
theorem sampleAnswer_eq {names : List AtomId} (hnames : names = ["a", "b"] ∨ names = ["b", "a"]) :
    sampleAnswer names = .ok {
      value := some "query results for \"q\""
      children := names.map fun name => { id := some name, created := some 1000 } } := by
  let twin (name : AtomId) : Note := { id := some name, created := some 1000 }
  have hfound : List.Forall₂ (fun name found =>
      sampleTwins.candidate? .everything .forward ((1 : Depth) - 1).levels name = .ok found)
      names.eraseDups (names.map fun name => some (twin name)) := by
    rcases hnames with rfl | rfl <;> exact .cons rfl (.cons rfl .nil)
  have hequal : (names.map twin).Pairwise fun a b => a.compareRanked b != .gt := by
    rcases hnames with rfl | rfl <;> simp [twin, Note.compareRanked]
  have hranked : Note.ranked (names.map twin) = names.map twin := List.mergeSort_of_pairwise hequal
  have hnotes : (names.map fun name => some (twin name)).filterMap id = names.map twin := by simp
  refine (answers_eq_ok rfl).mpr ⟨_, listing_eq_ok.mpr ⟨_, hfound, ?_⟩, rfl⟩
  rw [hnotes, hranked]

/-- The order of the candidates is seen in the answer. -/
theorem tied_candidates_keep_order :
    (∀ name, name ∈ ["a", "b"] ↔ name ∈ ["b", "a"]) ∧
      sampleAnswer ["a", "b"] = .ok {
        value := some "query results for \"q\""
        children := [{ id := some "a", created := some 1000 },
          { id := some "b", created := some 1000 }] } ∧
      sampleAnswer ["b", "a"] = .ok {
        value := some "query results for \"q\""
        children := [{ id := some "b", created := some 1000 },
          { id := some "a", created := some 1000 }] } ∧
      sampleAnswer ["a", "b"] ≠ sampleAnswer ["b", "a"] := by
  have hforth := sampleAnswer_eq (.inl (Eq.refl ["a", "b"]))
  have hback := sampleAnswer_eq (.inr (Eq.refl ["b", "a"]))
  refine ⟨by grind, hforth, hback, fun hsame => ?_⟩
  rw [hforth, hback] at hsame
  simp at hsame

end Outline.Store
