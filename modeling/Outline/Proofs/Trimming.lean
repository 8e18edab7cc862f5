import Outline.Listing
import Outline.Proofs.Running

/-!
# Views of different heights

The atoms that a walk passes are a tree, whatever it is that the walk follows, and even
where atoms contain each other.  A view shows this tree: down to its height, and below
the atoms that are not shown nothing at all.  So a view is cut out of every higher one
in which everything is shown.
-/

namespace Outline

/-- The atoms of a walk: the one it starts from, and a tree for each neighbour. -/
inductive AtomTree where
  | node (atom : Atom) (below : List AtomTree)

namespace AtomTree

/-- The atom that the walk starts from. -/
def atom : AtomTree → Atom
  | node atom _ => atom

mutual

/-- The note that shows a tree. -/
def note : AtomTree → Note
  | node atom below => { Note.ofAtom atom with children := notes below }

/-- The notes that show some trees. -/
def notes : List AtomTree → List Note
  | [] => []
  | tree :: trees => tree.note :: notes trees

end

/-- The tree with no more than some levels of neighbours. -/
def cut : Nat → AtomTree → AtomTree
  | 0, node atom _ => node atom []
  | levels + 1, node atom below => node atom (below.map (cut levels))

mutual

/-- The tree without what is below neighbours that are not shown. -/
def prune (shows : Atom → Bool) : AtomTree → AtomTree
  | node atom below => node atom (pruneAll shows below)

/-- Some trees without what is below those of them, and below neighbours in them, that
are not shown. -/
def pruneAll (shows : Atom → Bool) : List AtomTree → List AtomTree
  | [] => []
  | tree :: trees =>
    (if shows tree.atom then tree.prune shows else node tree.atom []) :: pruneAll shows trees

end

variable {shows : Atom → Bool} {tree : AtomTree} {trees : List AtomTree} {atom : Atom}

theorem notes_eq_map (trees : List AtomTree) : notes trees = trees.map note := by
  induction trees with
  | nil => rfl
  | cons tree trees ih => rw [notes, ih, List.map_cons]

theorem pruneAll_eq_map (shows : Atom → Bool) (trees : List AtomTree) :
    pruneAll shows trees = trees.map fun tree =>
      if shows tree.atom then tree.prune shows else node tree.atom [] := by
  induction trees with
  | nil => rfl
  | cons tree trees ih => rw [pruneAll, ih, List.map_cons]

@[simp] theorem note_node_nil (atom : Atom) : (node atom []).note = .ofAtom atom := by
  rw [note, notes]
  rfl

@[simp] theorem atom_cut (levels : Nat) (tree : AtomTree) : (tree.cut levels).atom = tree.atom := by
  cases tree
  cases levels <;> rfl

theorem prune_cut_zero (shows : Atom → Bool) (tree : AtomTree) :
    (tree.cut 0).prune shows = node tree.atom [] := by
  cases tree
  rw [cut, prune, pruneAll]
  rfl

/-- Neighbours are cut and pruned one by one. -/
theorem note_prune_cut_succ (shows : Atom → Bool) (levels : Nat) (atom : Atom)
    (below : List AtomTree) :
    (((node atom below).cut (levels + 1)).prune shows).note =
      { Note.ofAtom atom with
        children := below.map fun tree =>
          if shows tree.atom then ((tree.cut levels).prune shows).note
          else .ofAtom tree.atom } := by
  rw [cut, prune, note, notes_eq_map, pruneAll_eq_map, List.map_map, List.map_map]
  congr 1
  apply List.map_congr_left
  intro tree _
  simp only [Function.comp, atom_cut]
  split
  · rfl
  · exact note_node_nil tree.atom

end AtomTree

/-- A note has no more than some levels of children. -/
def Note.WithinLevels : Nat → Note → Prop
  | 0, note => note.children = []
  | levels + 1, note => ∀ child ∈ note.children, child.WithinLevels levels

theorem Note.withinLevels_ofAtom (levels : Nat) (atom : Atom) :
    (Note.ofAtom atom).WithinLevels levels := by
  cases levels with
  | zero => rfl
  | succ levels => exact fun child hchild => absurd hchild List.not_mem_nil

namespace Store

/-- The atoms that a walk from an atom passes, down to a height. -/
def walk (store : Store) (adjacency : Adjacency) :
    (height : Nat) → (parent : Option Atom) → Atom → Except StoreError AtomTree
  | 0, _, atom => .ok (.node atom [])
  | height + 1, parent, atom => do
    let neighbours ← adjacency.linked store atom parent
    return .node atom (← neighbours.mapM (store.walk adjacency height (some atom)))

variable {store : Store} {visibility : Visibility} {adjacency : Adjacency} {height h H : Nat}
  {parent : Option Atom} {atom : Atom} {tree : AtomTree} {note : Note}

theorem walk_succ_eq_ok : store.walk adjacency (height + 1) parent atom = .ok tree ↔
    ∃ neighbours below, adjacency.linked store atom parent = .ok neighbours ∧
      List.Forall₂ (fun neighbour tree =>
        store.walk adjacency height (some atom) neighbour = .ok tree) neighbours below ∧
      tree = .node atom below := by
  simp only [walk, except_bind_eq_ok, mapM_eq_ok_iff_forall₂]
  constructor
  · rintro ⟨neighbours, hneighbours, below, hbelow, htree⟩
    exact ⟨neighbours, below, hneighbours, hbelow, (Except.ok.inj htree).symm⟩
  · rintro ⟨neighbours, below, hneighbours, hbelow, rfl⟩
    exact ⟨neighbours, hneighbours, below, hbelow, rfl⟩

theorem view_succ_eq_ok : store.view visibility adjacency (height + 1) parent atom = .ok note ↔
    ∃ neighbours children, adjacency.linked store atom parent = .ok neighbours ∧
      List.Forall₂ (fun neighbour child =>
        (if visibility.shows neighbour then
          store.view visibility adjacency height (some atom) neighbour
        else .ok (.ofAtom neighbour)) = .ok child) neighbours children ∧
      note = { Note.ofAtom atom with children } := by
  simp only [view, except_bind_eq_ok, mapM_eq_ok_iff_forall₂]
  constructor
  · rintro ⟨neighbours, hneighbours, children, hchildren, hnote⟩
    exact ⟨neighbours, children, hneighbours, hchildren, (Except.ok.inj hnote).symm⟩
  · rintro ⟨neighbours, children, hneighbours, hchildren, rfl⟩
    exact ⟨neighbours, hneighbours, children, hchildren, rfl⟩

theorem atom_of_walk (h : store.walk adjacency height parent atom = .ok tree) :
    tree.atom = atom := by
  cases height with
  | zero =>
      cases h
      rfl
  | succ height =>
      obtain ⟨_, _, -, -, rfl⟩ := walk_succ_eq_ok.mp h
      rfl

/-- A view in which everything is shown is the note of a walk. -/
theorem exists_walk_of_view
    (hview : store.view .everything adjacency height parent atom = .ok note) :
    ∃ tree, store.walk adjacency height parent atom = .ok tree ∧ tree.note = note := by
  induction height generalizing parent atom note with
  | zero =>
      cases hview
      exact ⟨.node atom [], rfl, AtomTree.note_node_nil atom⟩
  | succ height ih =>
      obtain ⟨neighbours, children, hneighbours, hchildren, rfl⟩ := view_succ_eq_ok.mp hview
      have hwalks : List.Forall₂ (fun neighbour child => ∃ tree,
          store.walk adjacency height (some atom) neighbour = .ok tree ∧ child = tree.note)
          neighbours children := by
        refine hchildren.imp fun neighbour child hchild => ?_
        obtain ⟨tree, htree, hnote⟩ := ih hchild
        exact ⟨tree, htree, hnote.symm⟩
      obtain ⟨below, hbelow, hnotes⟩ := mapM_of_forall₂ hwalks
      have hlist : children = below.map AtomTree.note := by
        rwa [← List.forall₂_map_right_iff, List.forall₂_eq_eq_eq] at hnotes
      refine ⟨.node atom below, ?_, ?_⟩
      · exact walk_succ_eq_ok.mpr
          ⟨neighbours, below, hneighbours, mapM_eq_ok_iff_forall₂.mp hbelow, rfl⟩
      · rw [AtomTree.note, AtomTree.notes_eq_map, hlist]

/-- A view shows a walk that goes at least as far, cut to its height and pruned. -/
theorem view_of_walk (hwalk : store.walk adjacency H parent atom = .ok tree) (hle : h ≤ H)
    (visibility : Visibility) :
    store.view visibility adjacency h parent atom =
      .ok ((tree.cut h).prune visibility.shows).note := by
  induction h generalizing H parent atom tree with
  | zero => rw [view, AtomTree.prune_cut_zero, AtomTree.note_node_nil, atom_of_walk hwalk]
  | succ h ih =>
      obtain ⟨H, rfl⟩ : ∃ H', H = H' + 1 := Nat.exists_eq_add_one_of_ne_zero (by omega)
      obtain ⟨neighbours, below, hneighbours, hbelow, rfl⟩ := walk_succ_eq_ok.mp hwalk
      rw [view_succ_eq_ok]
      refine ⟨neighbours, _, hneighbours, ?_, AtomTree.note_prune_cut_succ _ h atom below⟩
      rw [List.forall₂_map_right_iff]
      refine hbelow.imp fun neighbour tree htree => ?_
      rw [atom_of_walk htree]
      split
      next => exact ih htree (Nat.le_of_succ_le_succ hle)
      next => rfl

/-- A view ends at its height, also where atoms contain each other. -/
theorem withinLevels_of_view
    (hview : store.view visibility adjacency height parent atom = .ok note) :
    note.WithinLevels height := by
  induction height generalizing parent atom note with
  | zero =>
      cases hview
      rfl
  | succ height ih =>
      obtain ⟨neighbours, children, -, hchildren, rfl⟩ := view_succ_eq_ok.mp hview
      intro child hchild
      obtain ⟨neighbour, -, hneighbour⟩ :=
        (mem_of_mapM_eq_ok (mapM_eq_ok_iff_forall₂.mpr hchildren)).mp hchild
      split at hneighbour
      next => exact ih hneighbour
      next =>
        cases hneighbour
        exact Note.withinLevels_ofAtom height neighbour

theorem levels_mono {h H : Depth} (hle : h ≤ H) : h.levels ≤ H.levels :=
  Int.toNat_le_toNat (Int32.le_iff_toInt_le.mp hle)

/-- Where a view that shows everything succeeds, every other view of no greater height
succeeds.  It is the first one cut to its height, without what is below the neighbours
that are not shown. -/
theorem view_of_higher_view {h H : Depth} (hle : h ≤ H)
    (hview : store.view .everything adjacency H.levels parent atom = .ok note)
    (visibility : Visibility) :
    ∃ tree, store.walk adjacency H.levels parent atom = .ok tree ∧ tree.note = note ∧
      store.view visibility adjacency h.levels parent atom =
        .ok ((tree.cut h.levels).prune visibility.shows).note ∧
      ((tree.cut h.levels).prune visibility.shows).note.WithinLevels h.levels := by
  obtain ⟨tree, hwalk, hnote⟩ := exists_walk_of_view hview
  have htrimmed := view_of_walk hwalk (levels_mono hle) visibility
  exact ⟨tree, hwalk, hnote, htrimmed, withinLevels_of_view htrimmed⟩

/-- A store of two atoms, each in the list of the other. -/
def sampleLoop : Store where
  atoms := [.ofAtom { id := "a", notes := some "p" }, .ofAtom { id := "b", notes := some "q" }]
  cells := [.ofCell { id := "p", first := "b" }, .ofCell { id := "q", first := "a" }]

/-- The loop of the sample, as a view of three levels shows it. -/
def sampleLoopView : Note where
  id := some "a"
  created := some 0
  children := [{
    id := some "b"
    created := some 0
    children := [{
      id := some "a"
      created := some 0
      children := [{ id := some "b", created := some 0 }] }] }]

/-- A view of the loop that hides one of its atoms is a part of the higher view. -/
theorem sample_view_of_higher_view :
    (2 : Depth) ≤ 3 ∧
    sampleLoop.view .everything .forward (3 : Depth).levels none { id := "a", notes := some "p" } =
      .ok sampleLoopView ∧
    ∃ tree,
      sampleLoop.walk .forward (3 : Depth).levels none { id := "a", notes := some "p" } =
        .ok tree ∧
      tree.note = sampleLoopView ∧
      sampleLoop.view { shows := fun atom => atom.id != "b" } .forward (2 : Depth).levels none
        { id := "a", notes := some "p" } =
          .ok ((tree.cut (2 : Depth).levels).prune fun atom => atom.id != "b").note ∧
      ((tree.cut (2 : Depth).levels).prune fun atom => atom.id != "b").note.WithinLevels
        (2 : Depth).levels :=
  have hle : (2 : Depth) ≤ 3 := by decide
  have hview : sampleLoop.view .everything .forward (3 : Depth).levels none
      { id := "a", notes := some "p" } = .ok sampleLoopView := by with_unfolding_all rfl
  ⟨hle, hview, view_of_higher_view hle hview { shows := fun atom => atom.id != "b" }⟩

end Store

end Outline
