import Outline.Proofs.Owners
import Outline.Proofs.SharedTails

/-!
# Broken chains

The tables do not keep a pointer from leading back to a cell before it, to a cell that is
missing, or into a chain that no atom owns.  Both walks over such rows end, since neither
passes a cell twice.  The walk along a list fails exactly if its way meets a cell again or
a cell that is missing, and names the first one that it meets so.  The walk back from the
cells that hold an atom fails exactly if one of them stands on a cycle, or behind a first
cell that is no atom's.
-/

namespace Outline.Store

variable {store : Store} {owner child : AtomId} {cell : Cell} {cells xs ys : List Cell}
  {passed : List CellId} {rows : List CellRow} {next stop : Option CellId} {id : CellId}

/-- The rows can be read and are apart as the tables demand.  Where their pointers lead is
left open. -/
structure Admissible (store : Store) : Prop where
  atomsReadable : ∀ row ∈ store.atoms, ∃ atom, row.toAtom = .ok atom
  cellsReadable : ∀ row ∈ store.cells, ∃ cell, row.toCell = .ok cell
  distinct : store.Distinct

theorem Distinct.cellIdsNodup (h : store.Distinct) : (store.cells.map CellRow.id).Nodup := by
  have hnames := h.cells.names
  rwa [List.map_map] at hnames

/-! ## Rows that are still to be passed -/

/-- The rows of all cells but those that were passed. -/
structure Unpassed (store : Store) (passed : List CellId) (rows : List CellRow) : Prop where
  idsNodup : (rows.map CellRow.id).Nodup
  readable : ∀ row ∈ rows, ∃ cell, row.toCell = .ok cell
  mem_iff : ∀ cell, CellRow.ofCell cell ∈ rows ↔ store.StoresCell cell ∧ cell.id ∉ passed

theorem Admissible.unpassed (h : store.Admissible) : store.Unpassed [] store.cells where
  idsNodup := h.distinct.cellIdsNodup
  readable := h.cellsReadable
  mem_iff cell := by simp [storesCell_iff]

theorem Admissible.unpassed_filter (h : store.Admissible) (id : CellId) :
    store.Unpassed [id] (store.cells.filter fun row => row.id != .text id) where
  idsNodup := h.distinct.cellIdsNodup.sublist (List.filter_sublist.map _)
  readable row hrow := h.cellsReadable row (List.mem_of_mem_filter hrow)
  mem_iff cell := by simp [storesCell_iff, CellRow.ofCell]

theorem Unpassed.erase (h : store.Unpassed passed rows) (hcell : CellRow.ofCell cell ∈ rows) :
    store.Unpassed (cell.id :: passed) (rows.erase (.ofCell cell)) where
  idsNodup := h.idsNodup.sublist (List.erase_sublist.map _)
  readable row hrow := h.readable row (List.mem_of_mem_erase hrow)
  mem_iff other := by
    have hother : CellRow.ofCell other ∈ rows → (other.id = cell.id ↔ other = cell) := by
      intro hmem
      refine ⟨fun hid => ?_, fun heq => congrArg Cell.id heq⟩
      exact CellRow.ofCell_injective
        (List.inj_on_of_nodup_map h.idsNodup hmem hcell (congrArg Datum.text hid))
    rw [(h.idsNodup.of_map _).mem_erase_iff, CellRow.ofCell_injective.ne_iff, List.mem_cons,
      not_or, ← and_assoc, and_right_comm, ← h.mem_iff, and_comm]
    exact and_congr_right fun hmem => not_congr (hother hmem).symm

/-- A cell is found among the rows, or it was passed or is missing. -/
theorem Unpassed.find?_cases (h : store.Unpassed passed rows)
    (hread : ∀ row ∈ store.cells, ∃ cell, row.toCell = .ok cell) (id : CellId) :
    (rows.find? (fun row => row.id == .text id) = none ∧ (id ∈ passed ∨ ¬store.HasCell id)) ∨
    ∃ cell, rows.find? (fun row => row.id == .text id) = some (.ofCell cell) ∧
      CellRow.ofCell cell ∈ rows ∧ store.StoresCell cell ∧ cell.id = id ∧ id ∉ passed := by
  cases hfind : rows.find? (fun row => row.id == .text id) with
  | none =>
      refine Or.inl ⟨rfl, ?_⟩
      by_contra hneither
      rw [not_or, not_not] at hneither
      obtain ⟨hfresh, row, hrow, hid⟩ := hneither
      obtain ⟨cell, hcell⟩ := hread row hrow
      obtain rfl := CellRow.toCell_eq_ok.mp hcell
      obtain rfl : cell.id = id := Datum.text.inj hid
      have hmem := (h.mem_iff cell).mpr ⟨⟨_, hrow, hcell⟩, hfresh⟩
      exact List.find?_eq_none.mp hfind _ hmem (by simp [CellRow.ofCell])
  | some row =>
      have hmem := List.mem_of_find?_eq_some hfind
      obtain ⟨cell, hcell⟩ := h.readable row hmem
      obtain rfl := CellRow.toCell_eq_ok.mp hcell
      have hid : cell.id = id := by simpa [CellRow.ofCell] using List.find?_some hfind
      obtain ⟨hstored, hfresh⟩ := (h.mem_iff cell).mp hmem
      exact Or.inr ⟨cell, rfl, hmem, hstored, hid, hid ▸ hfresh⟩

/-! ## Along a list -/

/-- The cells that are passed on the way from one pointer to another. -/
inductive Stretch (store : Store) : Option CellId → List Cell → Option CellId → Prop
  | nil (next : Option CellId) : Stretch store next [] next
  | cons {cell : Cell} {cells : List Cell} {stop : Option CellId} :
      store.StoresCell cell → Stretch store cell.rest cells stop →
      Stretch store (some cell.id) (cell :: cells) stop

/-- A stretch to the end of a chain is a path. -/
theorem stretch_none_iff : store.Stretch next cells none ↔ store.Path next cells := by
  constructor
  · intro h
    generalize hstop : none = stop at h
    induction h with
    | nil next =>
        rw [← hstop]
        exact .nil
    | cons hcell _ ih => exact .cons hcell (ih hstop)
  · intro h
    induction h with
    | nil => exact .nil none
    | cons hcell _ ih => exact .cons hcell ih

theorem Stretch.of_none (h : store.Stretch none cells stop) : cells = [] ∧ stop = none := by
  cases h with
  | nil => exact ⟨rfl, rfl⟩

/-- Of two stretches from the same pointer, one goes on where the other one stops. -/
theorem Stretch.linear (hids : (store.cells.map CellRow.id).Nodup)
    {stop' : Option CellId} (h : store.Stretch next xs stop) (h' : store.Stretch next ys stop') :
    (∃ zs, ys = xs ++ zs ∧ store.Stretch stop zs stop') ∨
      ∃ zs, xs = ys ++ zs ∧ store.Stretch stop' zs stop := by
  induction h generalizing ys with
  | nil next => exact Or.inl ⟨ys, rfl, h'⟩
  | @cons cell xs stop hcell hrest ih =>
      generalize hnext : some cell.id = next at h'
      cases h' with
      | nil next => exact Or.inr ⟨cell :: xs, rfl, hnext ▸ .cons hcell hrest⟩
      | @cons cell' ys stop' hcell' hrest' =>
          have hrow : CellRow.ofCell cell = CellRow.ofCell cell' :=
            List.inj_on_of_nodup_map hids (storesCell_iff.mp hcell) (storesCell_iff.mp hcell')
              (congrArg Datum.text (Option.some.inj hnext))
          obtain rfl := CellRow.ofCell_injective hrow
          rcases ih hrest' with ⟨zs, rfl, hzs⟩ | ⟨zs, rfl, hzs⟩
          · exact Or.inl ⟨zs, rfl, hzs⟩
          · exact Or.inr ⟨zs, rfl, hzs⟩

/-- A pointer at which a walk has to break off: the cell was passed already or is missing. -/
def Breaks (store : Store) (passed : List CellId) (id : CellId) : Prop :=
  id ∈ passed ∨ ¬store.HasCell id

/-- No stretch that meets each cell once goes on where a walk has to break off. -/
theorem Breaks.eq_nil (h : store.Breaks (xs.map Cell.id) id)
    (hstretch : store.Stretch (some id) ys stop) (hapart : ((xs ++ ys).map Cell.id).Nodup) :
    ys = [] ∧ stop = some id := by
  generalize hnext : some id = next at hstretch
  cases hstretch with
  | nil next => exact ⟨rfl, rfl⟩
  | @cons cell ys stop hcell _ =>
      obtain rfl := Option.some.inj hnext
      rcases h with hpassed | hmissing
      · rw [List.map_append, List.nodup_append'] at hapart
        exact absurd List.mem_cons_self (hapart.2.2 hpassed)
      · obtain ⟨row, hrow, hread⟩ := hcell
        obtain rfl := CellRow.toCell_eq_ok.mp hread
        exact absurd ⟨_, hrow, rfl⟩ hmissing

/-- How a walk along a chain ends that goes on from a pointer after some cells were
passed. -/
inductive Followed (store : Store) (owner : AtomId) (passed : List CellId)
    (next : Option CellId) : Except StoreError (List Cell) → Prop
  | ended {cells : List Cell} (hway : store.Stretch next cells none)
      (hapart : (cells.map Cell.id).Nodup) (hfresh : ∀ id ∈ cells.map Cell.id, id ∉ passed) :
      Followed store owner passed next (.ok cells)
  | broken {cells : List Cell} {id : CellId} (hway : store.Stretch next cells (some id))
      (hapart : (cells.map Cell.id).Nodup) (hfresh : ∀ id ∈ cells.map Cell.id, id ∉ passed)
      (hbreaks : store.Breaks (passed ++ cells.map Cell.id) id) :
      Followed store owner passed next (.error (.corrupt owner id))

/-- A walk passes one more cell before it ends. -/
theorem Followed.cons {outcome : Except StoreError (List Cell)} (hcell : store.StoresCell cell)
    (hfresh : cell.id ∉ passed)
    (h : store.Followed owner (cell.id :: passed) cell.rest outcome) :
    store.Followed owner passed (some cell.id) (outcome.map (cell :: ·)) := by
  have hahead {cells : List Cell} (hapart : (cells.map Cell.id).Nodup)
      (hrest : ∀ id ∈ cells.map Cell.id, id ∉ cell.id :: passed) :
      ((cell :: cells).map Cell.id).Nodup ∧
        ∀ id ∈ (cell :: cells).map Cell.id, id ∉ passed := by
    rw [List.map_cons, List.nodup_cons, List.forall_mem_cons]
    exact ⟨⟨fun hmem => hrest _ hmem List.mem_cons_self, hapart⟩, hfresh,
      fun id hid hpassed => hrest id hid (List.mem_cons_of_mem _ hpassed)⟩
  cases h with
  | ended hway hapart hrest =>
      obtain ⟨hapart, hrest⟩ := hahead hapart hrest
      exact .ended (.cons hcell hway) hapart hrest
  | broken hway hapart hrest hbreaks =>
      obtain ⟨hapart, hrest⟩ := hahead hapart hrest
      refine .broken (.cons hcell hway) hapart hrest ?_
      rcases hbreaks with hpassed | hmissing
      · refine Or.inl ?_
        simp only [List.map_cons, List.mem_append, List.mem_cons] at hpassed ⊢
        tauto
      · exact Or.inr hmissing

/-- Every walk along a chain ends in one of these ways. -/
theorem Admissible.followed (h : store.Admissible) (owner : AtomId)
    (hrows : store.Unpassed passed rows) (next : Option CellId) :
    store.Followed owner passed next (follow owner rows next) := by
  induction hlength : rows.length using Nat.strongRecOn
    generalizing passed rows next with
  | _ length ih =>
      cases next with
      | none =>
          rw [follow]
          exact .ended (.nil none) List.nodup_nil (by simp)
      | some id =>
          rcases hrows.find?_cases h.cellsReadable id with
            ⟨hfind, hbreaks⟩ | ⟨cell, hfind, hmem, hcell, rfl, hfresh⟩
          · have hbroken : follow owner rows (some id) = .error (.corrupt owner id) := by
              rw [follow]
              split
              · rfl
              · simp_all
            rw [hbroken]
            refine .broken (.nil _) List.nodup_nil (by simp) ?_
            rwa [List.map_nil, List.append_nil]
          · rw [follow_of_find? hfind]
            apply Followed.cons hcell hfresh
            exact ih _ (hlength ▸ length_erase_lt_of_find? hfind) (hrows.erase hmem) _ rfl

/-- A walk from a list's pointer can end in one way only. -/
theorem Followed.unique (hids : (store.cells.map CellRow.id).Nodup)
    {outcome outcome' : Except StoreError (List Cell)}
    (h : store.Followed owner [] next outcome) (h' : store.Followed owner [] next outcome') :
    outcome = outcome' := by
  cases h with
  | @ended xs hway hapart _ =>
      cases h' with
      | @ended ys hway' _ _ =>
          rw [(stretch_none_iff.mp hway).unique hids (stretch_none_iff.mp hway')]
      | @broken ys id hway' _ _ hbreaks =>
          rcases hway.linear hids hway' with ⟨zs, -, hzs⟩ | ⟨zs, rfl, hzs⟩
          · cases hzs.of_none.2
          · cases (Breaks.eq_nil hbreaks hzs hapart).2
  | @broken xs id hway hapart _ hbreaks =>
      cases h' with
      | @ended ys hway' hapart' _ =>
          rcases hway.linear hids hway' with ⟨zs, rfl, hzs⟩ | ⟨zs, -, hzs⟩
          · cases (Breaks.eq_nil hbreaks hzs hapart').2
          · cases hzs.of_none.2
      | @broken ys id' hway' hapart' _ hbreaks' =>
          rcases hway.linear hids hway' with ⟨zs, rfl, hzs⟩ | ⟨zs, rfl, hzs⟩
          · cases (Breaks.eq_nil hbreaks hzs hapart').2
            rfl
          · cases (Breaks.eq_nil hbreaks' hzs hapart).2
            rfl

/-- What walking along a list gives is told by the way from its pointer. -/
theorem Admissible.chain_eq_iff (h : store.Admissible) (owner : Atom)
    {outcome : Except StoreError (List Cell)} :
    store.chain owner = outcome ↔ store.Followed owner.id [] owner.notes outcome := by
  have hfollowed := h.followed owner.id h.unpassed owner.notes
  constructor
  · rintro rfl
    exact hfollowed
  · exact hfollowed.unique h.distinct.cellIdsNodup

theorem Admissible.chain_eq_ok_iff (h : store.Admissible) (owner : Atom) (cells : List Cell) :
    store.chain owner = .ok cells ↔
      store.Path owner.notes cells ∧ (cells.map Cell.id).Nodup := by
  rw [h.chain_eq_iff, ← stretch_none_iff]
  constructor
  · rintro ⟨hway, hapart, -⟩
    exact ⟨hway, hapart⟩
  · rintro ⟨hway, hapart⟩
    exact .ended hway hapart (by simp)

theorem Admissible.chain_eq_error_iff (h : store.Admissible) (owner : Atom)
    (cause : StoreError) :
    store.chain owner = .error cause ↔ ∃ cells id, cause = .corrupt owner.id id ∧
      store.Stretch owner.notes cells (some id) ∧ (cells.map Cell.id).Nodup ∧
      (id ∈ cells.map Cell.id ∨ ¬store.HasCell id) := by
  rw [h.chain_eq_iff]
  constructor
  · intro hfollowed
    cases hfollowed with
    | @broken cells id hway hapart _ hbreaks => exact ⟨cells, id, rfl, hway, hapart, hbreaks⟩
  · rintro ⟨cells, id, rfl, hway, hapart, hbreaks⟩
    exact .broken hway hapart (by simp) hbreaks

/-! ## Back from a cell -/

/-- A cell from which the way back leads to no atom: it stands on a cycle, or behind a first
cell with which no atom's list begins. -/
inductive Astray (store : Store) (cell : Cell) : Prop
  | cycle (h : Relation.TransGen store.LeadsTo (.text cell.id) (.text cell.id))
  | unowned {head : Datum} (hway : Relation.ReflTransGen store.LeadsTo head (.text cell.id))
      (hfirst : ∀ previous, ¬store.LeadsTo previous head)
      (hnone : ∀ row ∈ store.atoms, row.notes ≠ some head)

theorem StoresCell.leadsTo (h : store.StoresCell cell) (hrest : cell.rest = some id) :
    store.LeadsTo (.text cell.id) (.text id) :=
  ⟨.ofCell cell, storesCell_iff.mp h, rfl, by simp [CellRow.ofCell, hrest]⟩

/-- A cell leads to one cell at most. -/
theorem Distinct.eq_of_leadsTo_left (h : store.Distinct) {a b c : Datum}
    (hb : store.LeadsTo a b) (hc : store.LeadsTo a c) : b = c := by
  obtain ⟨row, hrow, rfl, hrest⟩ := hb
  obtain ⟨row', hrow', hid, hrest'⟩ := hc
  obtain rfl := List.inj_on_of_nodup_map h.cellIdsNodup hrow hrow' hid.symm
  exact Option.some.inj (hrest.symm.trans hrest')

/-- What a cell on a cycle leads to is on the cycle too. -/
theorem Distinct.cycle_of_leadsTo (h : store.Distinct) {a b : Datum} (hab : store.LeadsTo a b)
    (hcycle : Relation.TransGen store.LeadsTo a a) : Relation.TransGen store.LeadsTo b b := by
  obtain ⟨c, hac, hca⟩ := Relation.TransGen.head'_iff.mp hcycle
  obtain rfl := h.eq_of_leadsTo_left hab hac
  exact Relation.TransGen.tail' hca hab

/-- A way to a cell on a cycle begins on the cycle. -/
theorem Distinct.cycle_of_way (h : store.Distinct) {a b : Datum}
    (hway : Relation.ReflTransGen store.LeadsTo a b)
    (hcycle : Relation.TransGen store.LeadsTo b b) : Relation.TransGen store.LeadsTo a a := by
  induction hway using Relation.ReflTransGen.head_induction_on with
  | refl => exact hcycle
  | @head a c hac _ ih =>
      obtain ⟨d, hcd, hdc⟩ := Relation.TransGen.tail'_iff.mp ih
      obtain rfl := h.eq_of_leadsTo hac hdc
      exact Relation.TransGen.head' hac hcd

/-- Nothing leads to the first cell of a chain, so a way to it goes nowhere. -/
theorem eq_of_way_to_first {a b : Datum} (hway : Relation.ReflTransGen store.LeadsTo a b)
    (hfirst : ∀ previous, ¬store.LeadsTo previous b) : a = b := by
  rcases hway.cases_tail with heq | ⟨c, -, hcb⟩
  · exact heq.symm
  · exact absurd hcb (hfirst c)

theorem Admissible.predecessor?_cases (h : store.Admissible) (id : CellId) :
    (store.predecessor? id = .ok none ∧ ∀ previous, ¬store.LeadsTo previous (.text id)) ∨
    ∃ previous, store.predecessor? id = .ok (some previous) ∧ store.StoresCell previous ∧
      previous.rest = some id := by
  rw [predecessor?]
  cases hfind : store.cells.find? fun row => row.rest == some (.text id) with
  | none =>
      refine Or.inl ⟨rfl, ?_⟩
      rintro previous ⟨row, hrow, -, hrest⟩
      simpa [hrest] using List.find?_eq_none.mp hfind row hrow
  | some row =>
      obtain ⟨cell, hcell⟩ := h.cellsReadable row (List.mem_of_find?_eq_some hfind)
      have hrest : row.rest = some (.text id) := by simpa using List.find?_some hfind
      refine Or.inr ⟨cell, by simp [hcell, Except.map], ⟨row, List.mem_of_find?_eq_some hfind,
        hcell⟩, ?_⟩
      rw [CellRow.toCell_eq_ok.mp hcell] at hrest
      simpa [CellRow.ofCell] using hrest

theorem Admissible.headOwner?_cases (h : store.Admissible) (id : CellId) :
    (store.headOwner? id = .ok none ∧ ∀ row ∈ store.atoms, row.notes ≠ some (.text id)) ∨
    ∃ atom, store.headOwner? id = .ok (some atom) ∧
      ∃ row ∈ store.atoms, row.notes = some (.text id) := by
  rw [headOwner?]
  cases hfind : store.atoms.find? fun row => row.notes == some (.text id) with
  | none =>
      refine Or.inl ⟨rfl, fun row hrow hnotes => ?_⟩
      simpa [hnotes] using List.find?_eq_none.mp hfind row hrow
  | some row =>
      obtain ⟨atom, hatom⟩ := h.atomsReadable row (List.mem_of_find?_eq_some hfind)
      exact Or.inr ⟨atom, by simp [hatom, Except.map], row, List.mem_of_find?_eq_some hfind,
        by simpa using List.find?_some hfind⟩

/-- How the walk back from a cell ends. -/
inductive Retraced (store : Store) (child : AtomId) (cell : Cell) :
    Except StoreError Cell → Prop
  | head {head : Cell} (hway : Relation.ReflTransGen store.LeadsTo (.text head.id) (.text cell.id))
      (hfirst : ∀ previous, ¬store.LeadsTo previous (.text head.id)) :
      Retraced store child cell (.ok head)
  | cycle (id : CellId) (h : Relation.TransGen store.LeadsTo (.text cell.id) (.text cell.id)) :
      Retraced store child cell (.error (.corrupt child id))

/-- A walk back ends as it does from the cell before. -/
theorem Retraced.of_leadsTo (h : store.Distinct) {previous : Cell}
    {outcome : Except StoreError Cell}
    (hleads : store.LeadsTo (.text previous.id) (.text cell.id))
    (hretraced : store.Retraced child previous outcome) : store.Retraced child cell outcome := by
  cases hretraced with
  | head hway hfirst => exact .head (hway.tail hleads) hfirst
  | cycle id hcycle => exact .cycle id (h.cycle_of_leadsTo hleads hcycle)

/-- Every walk back ends in one of these ways: all cells that were passed are ahead, so it is
on a cycle that the walk comes to one of them again. -/
theorem Admissible.retraced (h : store.Admissible) (child : AtomId)
    (hrows : store.Unpassed passed rows) (cell : Cell)
    (hahead : ∀ id ∈ passed, Relation.ReflTransGen store.LeadsTo (.text cell.id) (.text id)) :
    store.Retraced child cell (store.retrace child rows cell) := by
  induction hlength : rows.length using Nat.strongRecOn
    generalizing passed rows cell with
  | _ length ih =>
      rcases h.predecessor?_cases cell.id with ⟨hnone, hfirst⟩ | ⟨previous, hsome, hstored, hrest⟩
      · rw [retrace_of_none hnone]
        exact .head .refl hfirst
      · have hleads := hstored.leadsTo hrest
        rcases hrows.find?_cases h.cellsReadable previous.id with
          ⟨hfind, hbreaks⟩ | ⟨found, hfind, hmem, hfound, hid, -⟩
        · have hpassed : previous.id ∈ passed := by
            refine hbreaks.resolve_right (not_not.mpr ?_)
            exact ⟨_, storesCell_iff.mp hstored, rfl⟩
          have hbroken : store.retrace child rows cell = .error (.corrupt child previous.id) := by
            rw [retrace, hsome]
            simp only [bind, Except.bind]
            split
            · rfl
            · simp_all
          rw [hbroken]
          exact .cycle _ (Relation.TransGen.tail' (hahead _ hpassed) hleads)
        · obtain rfl : found = previous := CellRow.ofCell_injective
            (List.inj_on_of_nodup_map h.distinct.cellIdsNodup (storesCell_iff.mp hfound)
              (storesCell_iff.mp hstored) (congrArg Datum.text hid))
          rw [retrace_of_some hsome hfind]
          apply Retraced.of_leadsTo h.distinct hleads
          refine ih _ (hlength ▸ length_erase_lt_of_find? hfind) (hrows.erase hmem) _ ?_ rfl
          exact List.forall_mem_cons.mpr ⟨.refl, fun id hid => (hahead id hid).head hleads⟩

/-- The atom in whose list a cell stands is found unless the cell has gone astray. -/
theorem Admissible.owner_cases (h : store.Admissible) (child : AtomId) (cell : Cell) :
    (∃ atom, store.owner child cell = .ok atom ∧ ¬store.Astray cell) ∨
    ∃ id, store.owner child cell = .error (.corrupt child id) ∧ store.Astray cell := by
  have hretraced := h.retraced child (h.unpassed_filter cell.id) cell
    (List.forall_mem_singleton.mpr .refl)
  rw [owner]
  generalize hrun : store.retrace child _ cell = outcome at hretraced
  cases hretraced with
  | cycle id hcycle => exact Or.inr ⟨id, rfl, .cycle hcycle⟩
  | @head head hway hfirst =>
      rcases h.headOwner?_cases head.id with ⟨hnone, hunowned⟩ | ⟨atom, hsome, row, hrow, hnotes⟩
      · refine Or.inr ⟨head.id, ?_, .unowned hway hfirst hunowned⟩
        simp only [hnone, bind, Except.bind]
        rfl
      · refine Or.inl ⟨atom, ?_, ?_⟩
        · simp only [hsome, bind, Except.bind]
          rfl
        · rintro (hcycle | ⟨hway', hfirst', hunowned⟩)
          · obtain ⟨previous, -, hprevious⟩ :=
              Relation.TransGen.tail'_iff.mp (h.distinct.cycle_of_way hway hcycle)
            exact hfirst previous hprevious
          · -- both ways come to the same cell, so they begin at the same first cell
            rcases h.distinct.reaches_total hway hway' with hsame | hsame
            · rw [← eq_of_way_to_first hsame hfirst'] at hunowned
              exact hunowned row hrow hnotes
            · rw [eq_of_way_to_first hsame hfirst] at hunowned
              exact hunowned row hrow hnotes

/-- The owners of an atom are found unless one of its cells has gone astray. -/
theorem Admissible.owners_cases (h : store.Admissible) (child : AtomId) :
    (∃ owners, store.owners child = .ok owners ∧
      ∀ cell, store.StoresCell cell → cell.first = child → ¬store.Astray cell) ∨
    ∃ id, store.owners child = .error (.corrupt child id) ∧
      ∃ cell, store.StoresCell cell ∧ cell.first = child ∧ store.Astray cell := by
  obtain ⟨cells, hcells, hmem⟩ := holders_eq_ok h.cellsReadable child
  have howner := h.owner_cases child
  rw [owners]
  simp only [hcells, bind, Except.bind]
  cases hfound : cells.mapM (store.owner child) with
  | ok found =>
      refine Or.inl ⟨_, rfl, fun cell hcell hfirst hastray => ?_⟩
      obtain ⟨atom, hatom⟩ := exists_ok_of_mapM_eq_ok hfound ((hmem cell).mpr ⟨hcell, hfirst⟩)
      rcases howner cell with ⟨-, -, hnot⟩ | ⟨id, herror, -⟩
      · exact hnot hastray
      · cases hatom.symm.trans herror
  | error cause =>
      obtain ⟨cell, hcell, herror⟩ := exists_error_of_mapM_eq_error hfound
      rcases howner cell with ⟨atom, hatom, -⟩ | ⟨id, herror', hastray⟩
      · cases hatom.symm.trans herror
      · cases herror.symm.trans herror'
        obtain ⟨hstored, hfirst⟩ := (hmem cell).mp hcell
        exact Or.inr ⟨id, rfl, cell, hstored, hfirst, hastray⟩

/-- Whatever the pointers of rows that the tables admit, both walks end.  The one along a
list gives its cells exactly if the way from its pointer passes them, each once, and ends
after them; otherwise it names the first cell on the way that was passed before or is
missing.  The one back from the cells that hold an atom fails, as a walk over a corrupt
list, exactly if one of these cells has gone astray. -/
theorem walks_find_corruption (h : store.Admissible) :
    (∀ owner : Atom,
      (∀ cells, store.chain owner = .ok cells ↔
        store.Path owner.notes cells ∧ (cells.map Cell.id).Nodup) ∧
      ∀ cause, store.chain owner = .error cause ↔ ∃ cells id, cause = .corrupt owner.id id ∧
        store.Stretch owner.notes cells (some id) ∧ (cells.map Cell.id).Nodup ∧
        (id ∈ cells.map Cell.id ∨ ¬store.HasCell id)) ∧
    ∀ child : AtomId,
      (∀ cause, store.owners child = .error cause → ∃ id, cause = .corrupt child id) ∧
      ((∃ cause, store.owners child = .error cause) ↔
        ∃ cell, store.StoresCell cell ∧ cell.first = child ∧ store.Astray cell) := by
  refine ⟨fun owner => ⟨h.chain_eq_ok_iff owner, h.chain_eq_error_iff owner⟩, fun child => ?_⟩
  rcases h.owners_cases child with ⟨owners, hok, hnone⟩ | ⟨id, herror, hastray⟩
  · simp only [hok]
    refine ⟨by simp, by simp, ?_⟩
    rintro ⟨cell, hcell, hfirst, hastray⟩
    exact absurd hastray (hnone cell hcell hfirst)
  · simp only [herror]
    exact ⟨fun cause heq => ⟨id, (Except.error.inj heq).symm⟩, fun _ => hastray,
      fun _ => ⟨_, rfl⟩⟩

/-- A list whose last cell leads back to its first, a list whose first cell is missing, and
a cell in no list. -/
def sampleCorrupt : Store where
  atoms := [.ofAtom { id := "a", notes := some "c" }, .ofAtom { id := "b", notes := some "x" }]
  cells := [
    .ofCell { id := "c", first := "b", rest := some "d" },
    .ofCell { id := "d", first := "a", rest := some "c" },
    .ofCell { id := "e", first := "b" }]

theorem sample_walks :
    sampleCorrupt.Admissible ∧
    sampleCorrupt.chain { id := "a", notes := some "c" } = .error (.corrupt "a" "c") ∧
    sampleCorrupt.chain { id := "b", notes := some "x" } = .error (.corrupt "b" "x") ∧
    ∃ cause, sampleCorrupt.owners "b" = .error cause := by
  have hreads : ∀ row ∈ sampleCorrupt.atoms, ∃ atom, row.toAtom = .ok atom :=
    List.forall_mem_cons.mpr ⟨⟨_, rfl⟩, List.forall_mem_singleton.mpr ⟨_, rfl⟩⟩
  have hcells : ∀ row ∈ sampleCorrupt.cells, ∃ cell, row.toCell = .ok cell :=
    List.forall_mem_cons.mpr ⟨⟨_, rfl⟩, List.forall_mem_cons.mpr ⟨⟨_, rfl⟩,
      List.forall_mem_singleton.mpr ⟨_, rfl⟩⟩⟩
  have hdistinct : sampleCorrupt.Distinct :=
    ⟨⟨by decide, by simp [sampleCorrupt, AtomRow.link, AtomRow.ofAtom]⟩,
      ⟨by decide, by simp [sampleCorrupt, CellRow.link, CellRow.ofCell]⟩⟩
  have h : sampleCorrupt.Admissible := ⟨hreads, hcells, hdistinct⟩
  obtain ⟨hchain, howners⟩ := walks_find_corruption h
  have hc : sampleCorrupt.StoresCell { id := "c", first := "b", rest := some "d" } :=
    storesCell_iff.mpr (by simp [sampleCorrupt])
  have hd : sampleCorrupt.StoresCell { id := "d", first := "a", rest := some "c" } :=
    storesCell_iff.mpr (by simp [sampleCorrupt])
  have he : sampleCorrupt.StoresCell { id := "e", first := "b" } :=
    storesCell_iff.mpr (by simp [sampleCorrupt])
  refine ⟨h, ((hchain _).2 _).mpr ⟨_, "c", rfl, .cons hc (.cons hd (.nil _)), by decide, ?_⟩,
    ((hchain _).2 _).mpr ⟨_, "x", rfl, .nil _, by decide, ?_⟩,
    (howners "b").2.mpr ⟨_, he, rfl, ?_⟩⟩
  · exact Or.inl (by decide)
  · exact Or.inr (by decide)
  · apply Astray.unowned .refl
    · rintro previous ⟨row, hrow, -, hrest⟩
      revert row
      simp [sampleCorrupt, CellRow.ofCell]
    · simp [sampleCorrupt, AtomRow.ofAtom]

end Outline.Store
