import Outline.Proofs.Effects
import Outline.Proofs.PlainLists
import Outline.Proofs.Properties

/-!
# Identifiers that are drawn

An identifier that is yet to be drawn should be new when its turn comes: it names no
atom and no cell then, and none of the notes that ask for an atom of their own.
That stays so while lists are edited, since what is drawn is drawn only once.
-/

namespace Outline

namespace Supply

/-! ## The identifiers by default -/

/-- The number that some hexadecimal digits stand for. -/
def hexNumber (digits : List Char) : Nat :=
  digits.foldl (fun n digit => 16 * n + ((List.range 16).map Nat.digitChar).idxOf digit) 0

theorem hexNumber_append_digit (digits : List Char) {d : Nat} (h : d < 16) :
    hexNumber (digits ++ [d.digitChar]) = 16 * hexNumber digits + d := by
  have hdigit : ∀ d < 16, ((List.range 16).map Nat.digitChar).idxOf d.digitChar = d := by decide
  rw [hexNumber, List.foldl_append, List.foldl_cons, List.foldl_nil, hdigit d h, hexNumber]

theorem hexNumber_toDigits (n : Nat) : hexNumber (Nat.toDigits 16 n) = n := by
  induction n using Nat.strongRecOn with
  | ind n ih =>
      by_cases hn : n < 16
      · rw [Nat.toDigits_of_lt_base hn, ← List.nil_append [_], hexNumber_append_digit [] hn]
        exact Nat.zero_add n
      · have hlt : n / 16 < n := Nat.div_lt_self (by omega) (by omega)
        rw [Nat.toDigits_of_base_le (by omega) (Nat.le_of_not_lt hn),
          hexNumber_append_digit _ (Nat.mod_lt n (by omega)), ih _ hlt]
        exact Nat.div_add_mod n 16

/-- The zeros in front count for nothing. -/
theorem hexNumber_hex16 (n : Nat) : hexNumber (hex16 n) = n := by
  have hzeros : ∀ (k : Nat) (digits : List Char),
      hexNumber (List.replicate k '0' ++ digits) = hexNumber digits := by
    intro k digits
    induction k with
    | zero => rfl
    | succ k ih => exact ih
  rw [hex16, hzeros, hexNumber_toDigits]

theorem length_hex16 {n : Nat} (h : n < Number.unsignedLimit) : (hex16 n).length = 16 := by
  have hlength : (Nat.toDigits 16 n).length ≤ 16 :=
    (Nat.length_toDigits_le_iff (by omega) (by omega)).mpr h
  rw [hex16, List.length_append, List.length_replicate]
  omega

/-- Each number gives another identifier. -/
theorem identifier_injective : Function.Injective identifier := by
  intro k l heq
  have hfront : ∀ n, (hex16 (n * 0x9e3779b97f4a7c15 % Number.unsignedLimit)).length = 16 :=
    fun n => length_hex16 (Nat.mod_lt _ (by decide))
  have hdigits := congrArg (List.drop 16) (String.ofList_injective heq)
  rw [List.drop_left' (hfront k), List.drop_left' (hfront l)] at hdigits
  rw [← hexNumber_hex16 k, hdigits, hexNumber_hex16]

theorem mem_hex16 (n : Nat) : (n % 16).digitChar ∈ hex16 n := by
  refine List.mem_append_right _ ?_
  by_cases hn : n < 16
  · rw [Nat.toDigits_of_lt_base hn, Nat.mod_eq_of_lt hn]
    exact List.mem_singleton_self _
  · rw [Nat.toDigits_of_base_le (by omega) (Nat.le_of_not_lt hn)]
    exact List.mem_append_right _ (List.mem_singleton_self _)

theorem not_isBlankText_identifier (k : Nat) : ¬Text.isBlankText (identifier k) := by
  have hdigit : ∀ d < 16, ¬Text.isBlank d.digitChar := by decide
  rw [Text.isBlankText, identifier, String.toList_ofList, List.all_eq_true]
  intro hblank
  exact hdigit (k % 16) (Nat.mod_lt k (by omega))
    (hblank _ (List.mem_append_right _ (mem_hex16 k)))

end Supply

namespace Store

/-! ## Supplies that go on drawing what is new -/

/-- No identifier that is yet to be drawn is blank, in use or one of the `named`,
and none is drawn twice. -/
structure DrawsNew (store : Store) (named : List AtomId) : Prop where
  differ : ∀ k l, store.supply.drawn < k → k < l → store.supply.naming k ≠ store.supply.naming l
  notBlank : ∀ id, store.supply.Upcoming id → ¬Text.isBlankText id
  noAtom : ∀ id, store.supply.Upcoming id → ¬store.HasAtom id
  noCell : ∀ id, store.supply.Upcoming id → ¬store.HasCell id
  notNamed : ∀ id, store.supply.Upcoming id → id ∉ named

variable {store store' : Store} {named : List AtomId} {owner : AtomId} {xs ys : List Place}
  {place : Place}

namespace DrawsNew

/-- What is drawn next is drawn only once. -/
theorem not_upcoming (h : store.DrawsNew named) :
    ¬store.supply.afterDraw.Upcoming store.supply.nextIdentifier := by
  rintro ⟨k, hk, heq⟩
  exact h.differ (store.supply.drawn + 1) k (Nat.lt_succ_self _) hk heq.symm

theorem of_precedes (h : store.DrawsNew named) (hsupply : store.supply.Precedes store'.supply)
    (hatom : ∀ id, store'.supply.Upcoming id → store'.HasAtom id → store.HasAtom id)
    (hcell : ∀ id, store'.supply.Upcoming id → store'.HasCell id → store.HasCell id) :
    store'.DrawsNew named where
  differ k l hk hl := by
    rw [hsupply.naming]
    exact h.differ k l (Nat.lt_of_le_of_lt hsupply.drawn hk) hl
  notBlank id hid := h.notBlank id (hsupply.upcoming hid)
  noAtom id hid hhas := h.noAtom id (hsupply.upcoming hid) (hatom id hid hhas)
  noCell id hid hhas := h.noCell id (hsupply.upcoming hid) (hcell id hid hhas)
  notNamed id hid := h.notNamed id (hsupply.upcoming hid)

theorem of_sameLists (h : store.DrawsNew named) (hsame : SameLists store store') :
    store'.DrawsNew named := by
  refine h.of_precedes (hsame.supply ▸ Supply.Precedes.refl _) ?_ ?_
  · exact fun id _ hid => hsame.hasAtom_iff.mp hid
  · exact fun id _ hid => hsame.hasCell_iff.mp hid

theorem of_insertAt (h : store.DrawsNew named) (hwf : store.WellFormed)
    (hsplit : store.places owner = xs ++ ys) (hcell : place.cell = store.supply.nextIdentifier)
    (hrelisted : Relisted store store' owner (xs ++ place :: ys))
    (hsupply : store'.supply = store.supply.afterDraw) : store'.DrawsNew named := by
  refine h.of_precedes (hsupply ▸ Supply.precedes_afterDraw _) ?_ ?_
  · exact fun id _ hid => hrelisted.relinked.hasAtom_iff.mp hid
  · intro id hupcoming hid
    obtain ⟨other, hother, rfl⟩ := hrelisted.wellFormed.hasCell_iff.mp hid
    rcases (hrelisted.hasPlace_insert hwf hsplit).mp hother with hother | rfl
    · exact hwf.hasCell_iff.mpr ⟨other, hother, rfl⟩
    · rw [hsupply, hcell] at hupcoming
      exact absurd hupcoming h.not_upcoming

/-- Edits that only take places out of a list draw nothing. -/
theorem of_edited (h : store.DrawsNew named) (hwf : store.WellFormed) {defaults : Defaults}
    (hedited : Edited defaults owner [] store store')
    (hplaces : ∀ place ∈ store'.places owner, place ∈ store.places owner) :
    store'.DrawsNew named := by
  refine h.of_precedes hedited.supply ?_ ?_
  · exact fun id _ hid => (hedited.hasAtom_iff.mp hid).resolve_right List.not_mem_nil
  · intro id _ hid
    obtain ⟨place, hplace, rfl⟩ := hedited.wellFormed.hasCell_iff.mp hid
    obtain ⟨other, hother⟩ := hedited.wellFormed.hasPlace_iff.mp hplace
    refine hwf.hasCell_iff.mpr ⟨place, hwf.hasPlace_iff.mpr ⟨other, ?_⟩, rfl⟩
    by_cases hne : other = owner
    · subst hne
      exact hplaces place hother
    · rwa [← hedited.places other hne]

/-- An atom may be created with an identifier that is named, or with the next one. -/
theorem of_createAtom (h : store.DrawsNew named) {id : Option AtomId} {defaults : Defaults}
    {atom : Atom} (hnamed : ∀ name, id = some name → name ∈ named)
    (hrun : createAtom id defaults store = .ok atom store') : store'.DrawsNew named := by
  obtain ⟨hatom, -, -, rfl⟩ := createAtom_eq_ok hrun
  cases id with
  | none =>
      have hsupply : store.supply.Precedes store.supply.afterDraw.afterReading :=
        (Supply.precedes_afterDraw _).trans (Supply.precedes_afterReading _)
      refine h.of_precedes hsupply ?_ fun _ _ hid => hid
      intro other hupcoming hother
      rcases hasAtom_withAtom.mp hother with hother | rfl
      · exact hother
      · rw [hatom] at hupcoming
        exact absurd hupcoming h.not_upcoming
  | some name =>
      refine h.of_precedes (Supply.precedes_afterReading _) ?_ fun _ _ hid => hid
      intro other hupcoming hother
      rcases hasAtom_withAtom.mp hother with hother | rfl
      · exact hother
      · rw [hatom] at hupcoming
        exact absurd (hnamed name rfl) (h.notNamed name hupcoming)

/-- Atoms that exist may count as named. -/
theorem of_named (h : store.DrawsNew named) {others : List AtomId}
    (hothers : ∀ id ∈ others, id ∈ named ∨ store.HasAtom id) : store.DrawsNew others where
  differ := h.differ
  notBlank := h.notBlank
  noAtom := h.noAtom
  noCell := h.noCell
  notNamed id hupcoming hid :=
    (hothers id hid).elim (h.notNamed id hupcoming) (h.noAtom id hupcoming)

end DrawsNew

/-- The sample goes on with identifiers that are longer than those in it. -/
theorem sample_drawsNew (h : ∀ id ∈ named, id.length < 32) : sample.DrawsNew named := by
  have hlong : ∀ id, sample.supply.Upcoming id → 32 ≤ id.length := by
    rintro id ⟨k, -, rfl⟩
    exact Supply.le_length_identifier k
  constructor
  case differ => exact fun k l _ hlt heq => Nat.ne_of_lt hlt (Supply.identifier_injective heq)
  case notBlank =>
    rintro id ⟨k, -, rfl⟩
    exact Supply.not_isBlankText_identifier k
  case noAtom =>
    intro id hid hatom
    have hids : sample.atoms.map AtomRow.id = ["a", "b", "c"].map .text := rfl
    have hshort : ∀ name ∈ ["a", "b", "c"], name.length < 32 := by decide
    rw [hasAtom_iff_mem, hids, List.mem_map] at hatom
    obtain ⟨name, hname, heq⟩ := hatom
    cases heq
    exact absurd (hlong id hid) (Nat.not_le.mpr (hshort id hname))
  case noCell =>
    intro id hid hcell
    have hids : sample.cells.map CellRow.id = ["p", "q"].map .text := rfl
    have hshort : ∀ name ∈ ["p", "q"], name.length < 32 := by decide
    rw [hasCell_iff_mem, hids, List.mem_map] at hcell
    obtain ⟨name, hname, heq⟩ := hcell
    cases heq
    exact absurd (hlong id hid) (Nat.not_le.mpr (hshort id hname))
  case notNamed => exact fun id hid hmem => Nat.not_le.mpr (h id hmem) (hlong id hid)

end Store

end Outline
