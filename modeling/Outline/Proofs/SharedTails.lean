import Mathlib.Logic.Relation
import Outline.Proofs.AtomRows

/-!
# Lists that share their last cells

The rows of the store can be changed one at a time: a cell is created, put before another,
or made the first of a list.  The tables see to it that no two atoms have the same first
cell and no two cells the same successor, but not that a first cell is nobody's
successor.  Whatever single rows are changed, two lists can share cells in one way only:
one of them begins with a later cell of the other.
-/

namespace Outline

/-- An operation that changes a single row of the store.  Those that only look something up
are questions about a store, which leave it as it is. -/
inductive RowCall where
  | createAtom (id : Option AtomId) (defaults : Defaults)
  | updateAtom (atom : Atom)
  | removeAtom (id : AtomId)
  | setNotes (id : AtomId) (head : Option CellId)
  | createCell (first : AtomId)
  | setFirst (id : CellId) (first : AtomId)
  | setRest (id : CellId) (rest : Option CellId)
  | removeCell (id : CellId)

/-- The store after an operation, whether it succeeds or fails. -/
def RowCall.run (store : Store) : RowCall → Store
  | .createAtom id defaults => finalState (store.createAtom id defaults)
  | .updateAtom atom => finalState (Store.updateAtom atom store)
  | .removeAtom id => finalState (Store.removeAtom id store)
  | .setNotes id head => finalState (Store.setNotes id head store)
  | .createCell first => finalState (Store.createCell first store)
  | .setFirst id first => finalState (Store.setFirst id first store)
  | .setRest id rest => finalState (Store.setRest id rest store)
  | .removeCell id => finalState (Store.removeCell id store)

namespace Store

variable {store before after : Store}

/-- A cell names another one as its successor. -/
def LeadsTo (store : Store) (a b : Datum) : Prop :=
  ∃ row ∈ store.cells, row.id = a ∧ row.rest = some b

/-- A cell is the first one of an atom's list or comes after it. -/
def Reaches (store : Store) (owner : AtomRow) (id : Datum) : Prop :=
  ∃ head, owner.notes = some head ∧ Relation.ReflTransGen store.LeadsTo head id

/-- No first cell of a list is the successor of another cell. -/
def HeadsLead (store : Store) : Prop :=
  ∀ owner ∈ store.atoms, ∀ cell ∈ store.cells, ∀ other ∈ store.cells,
    owner.notes = some cell.id → other.rest = some cell.id → other.id = cell.id

/-- Lists own their cells exclusively. -/
structure ExclusivelyOwned (store : Store) : Prop where
  /-- No cell is reached from two atoms. -/
  apart : ∀ a ∈ store.atoms, ∀ b ∈ store.atoms, ∀ cell ∈ store.cells,
    store.Reaches a cell.id → store.Reaches b cell.id → a.id = b.id
  headsLead : store.HeadsLead

end Store

/-! ## Rows that are told apart -/

/-- An atom by its name and the first cell of its list. -/
def AtomRow.link (row : AtomRow) : Datum × Option Datum :=
  (row.id, row.notes)

/-- A cell by its name and its successor. -/
def CellRow.link (row : CellRow) : Datum × Option Datum :=
  (row.id, row.rest)

/-- No two rows of a table have the same name or the same target. -/
structure LinksApart (links : List (Datum × Option Datum)) : Prop where
  names : (links.map Prod.fst).Nodup
  targets : ∀ a ∈ links, ∀ b ∈ links, ∀ target,
    a.2 = some target → b.2 = some target → a.1 = b.1

namespace LinksApart

variable {links links' : List (Datum × Option Datum)} {id : Datum} {pointer : Option Datum}

theorem sublist (h : LinksApart links) (hsub : links'.Sublist links) : LinksApart links' where
  names := h.names.sublist (hsub.map _)
  targets a ha b hb := h.targets a (hsub.subset ha) b (hsub.subset hb)

/-- A new row has no target yet. -/
theorem append (h : LinksApart links) (hnew : ∀ link ∈ links, link.1 ≠ id) :
    LinksApart (links ++ [(id, none)]) where
  names := by
    rw [List.map_append, List.map_singleton, ← List.concat_eq_append, List.nodup_concat]
    refine ⟨fun hmem => ?_, h.names⟩
    obtain ⟨link, hlink, hid⟩ := List.mem_map.mp hmem
    exact hnew link hlink hid
  targets := by
    intro a ha b hb target hatarget hbtarget
    have hold : ∀ link ∈ links ++ [(id, none)], link.2 = some target → link ∈ links := by
      intro link hlink htarget
      rcases List.mem_append.mp hlink with hlink | hlink
      · exact hlink
      · rw [List.mem_singleton.mp hlink] at htarget
        cases htarget
    exact h.targets a (hold a ha hatarget) b (hold b hb hbtarget) target hatarget hbtarget

/-- A row gets another target, unless that is the target of another row. -/
theorem move (h : LinksApart links)
    (hfree : pointer.isSome → ∀ link ∈ links, link.1 ≠ id → link.2 ≠ pointer) :
    LinksApart (links.map fun link => if link.1 == id then (link.1, pointer) else link) where
  names := by
    have hsame : (Prod.fst ∘ fun link : Datum × Option Datum =>
        if link.1 == id then (link.1, pointer) else link) = Prod.fst := by
      funext link
      simp only [Function.comp]
      split <;> rfl
    rw [List.map_map, hsame]
    exact h.names
  targets := by
    intro a ha b hb target hatarget hbtarget
    obtain ⟨old, hold, rfl⟩ := List.mem_map.mp ha
    obtain ⟨old', hold', rfl⟩ := List.mem_map.mp hb
    by_cases hid : old.1 = id
    · by_cases hid' : old'.1 = id
      · simp [hid, hid']
      · simp only [hid, beq_self_eq_true, if_true] at hatarget
        simp only [hid', beq_iff_eq, if_false] at hbtarget
        exact absurd (hbtarget.trans hatarget.symm) (hfree (by simp [hatarget]) old' hold' hid')
    · by_cases hid' : old'.1 = id
      · simp only [hid, beq_iff_eq, if_false] at hatarget
        simp only [hid', beq_self_eq_true, if_true] at hbtarget
        exact absurd (hatarget.trans hbtarget.symm) (hfree (by simp [hbtarget]) old hold hid)
      · simp only [hid, hid', beq_iff_eq, if_false] at hatarget hbtarget ⊢
        exact h.targets old hold old' hold' target hatarget hbtarget

end LinksApart

namespace Store

/-- No two atoms have the same name or first cell, and no two cells the same name or
successor. -/
structure Distinct (store : Store) : Prop where
  atoms : LinksApart (store.atoms.map AtomRow.link)
  cells : LinksApart (store.cells.map CellRow.link)

variable {store : Store}

theorem keeps_distinct_createAtom (id : Option AtomId) (defaults : Defaults) :
    Keeps Distinct (createAtom id defaults) := by
  intro store h
  cases hrun : createAtom id defaults store with
  | ok atom store' =>
      obtain ⟨hatom, -, hnew, rfl⟩ := createAtom_eq_ok hrun
      have hlink : (AtomRow.ofAtom atom).link = (.text atom.id, none) := by
        rw [hatom]
        rfl
      refine ⟨?_, h.cells⟩
      rw [finalState_ok, withAtom, List.map_append, List.map_singleton, hlink]
      apply h.atoms.append
      intro link hmem heq
      obtain ⟨row, hrow, rfl⟩ := List.mem_map.mp hmem
      exact hnew ⟨row, hrow, heq⟩
  | error cause store' =>
      obtain ⟨supply, rfl⟩ := createAtom_eq_error hrun
      exact ⟨h.atoms, h.cells⟩

theorem keeps_distinct_updateAtom (atom : Atom) : Keeps Distinct (updateAtom atom) := by
  intro store h
  cases hrun : updateAtom atom store with
  | ok _ store' =>
      obtain ⟨-, -, rfl⟩ := updateAtom_eq_ok.mp hrun
      have hlinks : (store.withProperties atom).atoms.map AtomRow.link =
          store.atoms.map AtomRow.link := by
        rw [withProperties, List.map_map]
        refine List.map_congr_left fun row _ => ?_
        simp only [Function.comp]
        split <;> rfl
      exact ⟨hlinks ▸ h.atoms, h.cells⟩
  | error cause store' =>
      rw [updateAtom_eq_error hrun]
      exact h

theorem moveNotes_ok {row : AtomRow} {notes : Option Datum} {store' : Store}
    (h : moveNotes row notes store = .ok store') :
    (notes.isSome → ∀ other ∈ store.atoms, other.id ≠ row.id → other.notes ≠ notes) ∧
      store'.atoms.map AtomRow.link = (store.atoms.map AtomRow.link).map (fun link =>
        if link.1 == row.id then (link.1, notes) else link) ∧
      store'.cells = store.cells := by
  simp only [moveNotes] at h
  split at h
  · cases h
  next hunique =>
    split at h
    · cases h
      refine ⟨fun hsome other hother hne heq => hunique ⟨hsome, ?_⟩, ?_, rfl⟩
      · exact List.any_eq_true.mpr ⟨other, hother, by simp [hne, heq]⟩
      · rw [List.map_map, List.map_map]
        refine List.map_congr_left fun other _ => ?_
        by_cases hid : other.id = row.id <;> simp [AtomRow.link, hid]
    · cases h

theorem moveRest_ok {row : CellRow} {rest : Option Datum} {store' : Store}
    (h : moveRest row rest store = .ok store') :
    (rest.isSome → ∀ other ∈ store.cells, other.id ≠ row.id → other.rest ≠ rest) ∧
      store'.cells.map CellRow.link = (store.cells.map CellRow.link).map (fun link =>
        if link.1 == row.id then (link.1, rest) else link) ∧
      store'.atoms = store.atoms := by
  simp only [moveRest] at h
  split at h
  · cases h
  next hunique =>
    split at h
    · cases h
      refine ⟨fun hsome other hother hne heq => hunique ⟨hsome, ?_⟩, ?_, rfl⟩
      · exact List.any_eq_true.mpr ⟨other, hother, by simp [hne, heq]⟩
      · rw [List.map_map, List.map_map]
        refine List.map_congr_left fun other _ => ?_
        by_cases hid : other.id = row.id <;> simp [CellRow.link, hid]
    · cases h

theorem keeps_distinct_setNotes (id : AtomId) (head : Option CellId) :
    Keeps Distinct (setNotes id head) := by
  intro store h
  refine finalState_change h fun store' hchange => ?_
  split at hchange
  · cases hchange
  next row hrow =>
    obtain ⟨hfree, hatoms, hcells⟩ := moveNotes_ok hchange
    refine ⟨hatoms ▸ h.atoms.move fun hsome link hlink hne => ?_, hcells ▸ h.cells⟩
    obtain ⟨other, hother, rfl⟩ := List.mem_map.mp hlink
    exact hfree hsome other hother hne

theorem keeps_distinct_setRest (id : CellId) (rest : Option CellId) :
    Keeps Distinct (setRest id rest) := by
  intro store h
  refine finalState_change h fun store' hchange => ?_
  split at hchange
  · cases hchange
  next row hrow =>
    obtain ⟨hfree, hcells, hatoms⟩ := moveRest_ok hchange
    refine ⟨hatoms ▸ h.atoms, hcells ▸ h.cells.move fun hsome link hlink hne => ?_⟩
    obtain ⟨other, hother, rfl⟩ := List.mem_map.mp hlink
    exact hfree hsome other hother hne

/-- A cell is created without a successor. -/
theorem keeps_distinct_insertCell (id : CellId) (first : AtomId) :
    Keeps Distinct (change (insertCell { id, first })) := by
  refine keeps_change fun store store' h hinsert => ?_
  simp only [insertCell] at hinsert
  split at hinsert
  · cases hinsert
  next hnew =>
    split at hinsert
    · cases hinsert
      refine ⟨h.atoms, ?_⟩
      rw [List.map_append, List.map_singleton]
      apply h.cells.append
      intro link hlink heq
      obtain ⟨row, hrow, rfl⟩ := List.mem_map.mp hlink
      exact hnew (List.any_eq_true.mpr ⟨row, hrow, by simpa [CellRow.link] using heq⟩)
    · cases hinsert

theorem keeps_distinct_createCell (first : AtomId) : Keeps Distinct (createCell first) := by
  intro store h
  refine finalState_look_bind h fun found _ => ?_
  split
  · exact h
  have hdraw : Keeps Distinct drawIdentifier := fun _ h => ⟨h.atoms, h.cells⟩
  refine hdraw.bind (fun id => ?_) store h
  exact (keeps_distinct_insertCell id first).bind fun _ => Keeps.pure _

theorem keeps_distinct_setFirst (id : CellId) (first : AtomId) :
    Keeps Distinct (setFirst id first) := by
  intro store h
  refine finalState_look_bind h fun found _ => ?_
  split
  · exact h
  refine finalState_change h fun store' hchange => ?_
  split at hchange
  · cases hchange
  next row hrow =>
    simp only [moveFirst] at hchange
    split at hchange
    · cases hchange
      have hlinks : (store.cells.map fun other =>
          if other.id == row.id then { other with first := .text first } else other).map
            CellRow.link = store.cells.map CellRow.link := by
        rw [List.map_map]
        refine List.map_congr_left fun other _ => ?_
        simp only [Function.comp]
        split <;> rfl
      exact ⟨h.atoms, hlinks ▸ h.cells⟩
    · cases hchange

theorem keeps_distinct_removeCell (id : CellId) : Keeps Distinct (removeCell id) := by
  intro store h
  refine finalState_look_bind h fun found _ => ?_
  cases found with
  | none => exact h
  | some cell =>
      dsimp only
      split
      · exact h
      refine finalState_look_bind h fun previous _ => ?_
      split
      · exact h
      refine finalState_look_bind h fun owner _ => ?_
      split
      · exact h
      refine finalState_change h fun store' hremove => ?_
      cases hremove
      exact ⟨h.atoms, h.cells.sublist (List.filter_sublist.map _)⟩

theorem keeps_distinct_removeAtom (id : AtomId) : Keeps Distinct (removeAtom id) := by
  intro store h
  rcases removeAtom_cases store id with hsame | hgone
  · rw [hsame]
    exact h
  · rw [hgone]
    exact ⟨h.atoms.sublist (List.filter_sublist.map _), h.cells⟩

/-- No change of a single row makes two rows of a table alike in what tells them apart. -/
theorem Distinct.run (h : store.Distinct) (call : RowCall) : (RowCall.run store call).Distinct := by
  cases call with
  | createAtom id defaults => exact keeps_distinct_createAtom id defaults store h
  | updateAtom atom => exact keeps_distinct_updateAtom atom store h
  | removeAtom id => exact keeps_distinct_removeAtom id store h
  | setNotes id head => exact keeps_distinct_setNotes id head store h
  | createCell first => exact keeps_distinct_createCell first store h
  | setFirst id first => exact keeps_distinct_setFirst id first store h
  | setRest id rest => exact keeps_distinct_setRest id rest store h
  | removeCell id => exact keeps_distinct_removeCell id store h

theorem distinct_of_rowCalls (references : ReferenceCheck) (supply : Supply)
    (calls : List RowCall) : (calls.foldl RowCall.run { references, supply }).Distinct := by
  have hempty : ({ references, supply } : Store).Distinct :=
    ⟨⟨List.nodup_nil, by simp⟩, ⟨List.nodup_nil, by simp⟩⟩
  exact List.foldlRecOn calls RowCall.run hempty fun _ h call _ => h.run call

/-! ## Ways to a cell -/

theorem Distinct.eq_of_notes (h : store.Distinct) {a b : AtomRow} (ha : a ∈ store.atoms)
    (hb : b ∈ store.atoms) {head : Datum} (hahead : a.notes = some head)
    (hbhead : b.notes = some head) : a.id = b.id :=
  h.atoms.targets a.link (List.mem_map_of_mem ha) b.link (List.mem_map_of_mem hb) head hahead
    hbhead

/-- A cell has one predecessor at most. -/
theorem Distinct.eq_of_leadsTo (h : store.Distinct) {a b c : Datum} (ha : store.LeadsTo a c)
    (hb : store.LeadsTo b c) : a = b := by
  obtain ⟨row, hrow, rfl, hrest⟩ := ha
  obtain ⟨row', hrow', rfl, hrest'⟩ := hb
  exact h.cells.targets row.link (List.mem_map_of_mem hrow) row'.link (List.mem_map_of_mem hrow')
    c hrest hrest'

/-- Of two ways to the same cell, one is the end of the other. -/
theorem Distinct.reaches_total (h : store.Distinct) {a b c : Datum}
    (ha : Relation.ReflTransGen store.LeadsTo a c) (hb : Relation.ReflTransGen store.LeadsTo b c) :
    Relation.ReflTransGen store.LeadsTo a b ∨ Relation.ReflTransGen store.LeadsTo b a := by
  have hunique : Relator.RightUnique (Function.swap store.LeadsTo) :=
    fun _ _ _ hx hy => h.eq_of_leadsTo hx hy
  rcases Relation.ReflTransGen.total_of_right_unique hunique ha.swap hb.swap with hback | hback
  · exact Or.inr hback.swap
  · exact Or.inl hback.swap

/-- A way from one cell to another one comes to it from a third. -/
theorem exists_leadsTo_of_ne {a b : Datum} (h : Relation.ReflTransGen store.LeadsTo a b)
    (hne : a ≠ b) :
    ∃ previous, Relation.ReflTransGen store.LeadsTo a previous ∧ store.LeadsTo previous b ∧
      previous ≠ b := by
  induction h with
  | refl => exact absurd rfl hne
  | @tail previous b hway hstep ih =>
      by_cases hself : previous = b
      · subst hself
        exact ih hne
      · exact ⟨previous, hway, hstep, hself⟩

/-- A way to a cell begins at a cell. -/
theorem exists_mem_of_way {a : Datum} {cell : CellRow} (hcell : cell ∈ store.cells)
    (h : Relation.ReflTransGen store.LeadsTo a cell.id) : ∃ first ∈ store.cells, first.id = a := by
  rcases h.cases_head with rfl | ⟨_, ⟨first, hfirst, hid, -⟩, -⟩
  · exact ⟨cell, hcell, rfl⟩
  · exact ⟨first, hfirst, hid⟩

/-- If the lists of two atoms share a cell and the second one begins further on, then its
first cell is the successor of another cell. -/
theorem HeadsLead.eq_of_way (h : store.HeadsLead) {owner : AtomRow} (howner : owner ∈ store.atoms)
    {a b : Datum} (hnotes : owner.notes = some b) {cell : CellRow} (hcell : cell ∈ store.cells)
    (hway : Relation.ReflTransGen store.LeadsTo a b)
    (hrest : Relation.ReflTransGen store.LeadsTo b cell.id) : a = b := by
  by_contra hne
  obtain ⟨first, hfirst, rfl⟩ := exists_mem_of_way hcell hrest
  obtain ⟨_, -, ⟨other, hother, rfl, hleads⟩, hthird⟩ := exists_leadsTo_of_ne hway hne
  exact hthird (h owner howner first hfirst other hother hnotes hleads)

/-- Lists share no cell if none of them begins inside another one. -/
theorem Distinct.exclusivelyOwned (h : store.Distinct) (hlead : store.HeadsLead) :
    store.ExclusivelyOwned where
  apart := by
    intro a ha b hb cell hcell hareach hbreach
    obtain ⟨head, hahead, haway⟩ := hareach
    obtain ⟨head', hbhead, hbway⟩ := hbreach
    have hsame : head = head' := by
      rcases h.reaches_total haway hbway with hway | hway
      · exact hlead.eq_of_way hb hbhead hcell hway hbway
      · exact (hlead.eq_of_way ha hahead hcell hway haway).symm
    subst hsame
    exact h.eq_of_notes ha hb hahead hbhead
  headsLead := hlead

/-- Whatever single rows are changed, in whatever order and whether the changes succeed or
fail, no two atoms have the same first cell and no two cells the same successor.  Lists
own their cells exclusively exactly if no first cell is the successor of another one. -/
theorem exclusivelyOwned_iff_of_rowCalls (references : ReferenceCheck) (supply : Supply)
    (calls : List RowCall) :
    (calls.foldl RowCall.run { references, supply }).Distinct ∧
      ((calls.foldl RowCall.run { references, supply }).ExclusivelyOwned ↔
        (calls.foldl RowCall.run { references, supply }).HeadsLead) := by
  have h := distinct_of_rowCalls references supply calls
  exact ⟨h, fun howned => howned.headsLead, h.exclusivelyOwned⟩

/-- Two cells hold the first of two atoms.  The first cell becomes the list of that atom,
then the successor of the second cell, which becomes the list of the other atom. -/
def sharingCalls : List RowCall := [
  .createAtom (some "a") {},
  .createAtom (some "b") {},
  .createCell "a",
  .createCell "a",
  .setNotes "a" (some (Supply.identifier 1)),
  .setRest (Supply.identifier 2) (some (Supply.identifier 1)),
  .setNotes "b" (some (Supply.identifier 2))]

/-- The store that these changes lead to. -/
def sharedStore : Store :=
  sharingCalls.foldl RowCall.run {}

/-- The first cell is reached from both atoms, and it begins one list and stands in the
other. -/
theorem shared_not_exclusive :
    (∃ a ∈ sharedStore.atoms, ∃ b ∈ sharedStore.atoms, ∃ cell ∈ sharedStore.cells, a.id ≠ b.id ∧
      sharedStore.Reaches a cell.id ∧ sharedStore.Reaches b cell.id) ∧
    (∃ a ∈ sharedStore.atoms, ∃ cell ∈ sharedStore.cells, ∃ other ∈ sharedStore.cells,
      a.notes = some cell.id ∧ other.rest = some cell.id ∧ other.id ≠ cell.id) ∧
    ¬sharedStore.ExclusivelyOwned := by
  let a : AtomRow :=
    { id := .text "a", created := .integer 1000, notes := some (.text (Supply.identifier 1)) }
  let b : AtomRow :=
    { id := .text "b", created := .integer 1001, notes := some (.text (Supply.identifier 2)) }
  let cell : CellRow := { id := .text (Supply.identifier 1), first := .text "a" }
  let other : CellRow :=
    { id := .text (Supply.identifier 2), first := .text "a", rest := some cell.id }
  have hatoms : sharedStore.atoms = [a, b] := by decide +kernel
  have hcells : sharedStore.cells = [cell, other] := by decide +kernel
  have ha : a ∈ sharedStore.atoms := by simp [hatoms]
  have hb : b ∈ sharedStore.atoms := by simp [hatoms]
  have hcell : cell ∈ sharedStore.cells := by simp [hcells]
  have hother : other ∈ sharedStore.cells := by simp [hcells]
  have hareach : sharedStore.Reaches a cell.id := ⟨cell.id, rfl, .refl⟩
  have hbreach : sharedStore.Reaches b cell.id :=
    ⟨other.id, rfl, .single ⟨other, hother, rfl, rfl⟩⟩
  have hatomNames : a.id ≠ b.id := by decide
  have hcellNames : other.id ≠ cell.id := by decide +kernel
  refine ⟨⟨a, ha, b, hb, cell, hcell, hatomNames, hareach, hbreach⟩,
    ⟨a, ha, cell, hcell, other, hother, rfl, rfl, hcellNames⟩, fun howned => ?_⟩
  exact hatomNames (howned.apart a ha b hb cell hcell hareach hbreach)

end Store

end Outline
