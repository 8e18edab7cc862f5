import Outline.Note.Reader
import Outline.Proofs.DocumentParts

/-!
# The written forms of a document

A document may be written with any space between its parts.  Its compact form has none,
and its indented form has line breaks and indentation.  What is read of a document does
not depend on the form, so the readers are followed along any of them.
-/

namespace Outline

namespace Json

/-- Nothing but space. -/
def IsGap (gap : List Char) : Prop :=
  ∀ c ∈ gap, isSpace c = true

/-- What stands in front of an entry: a gap, with a comma in it unless the entry is the
first one. -/
inductive Separates : (isFirst : Bool) → List Char → Prop
  | gap {gap : List Char} : IsGap gap → Separates true gap
  | comma {before after : List Char} : IsGap before → IsGap after →
      Separates false (before ++ ',' :: after)

/-- The text between two brackets, up to the closing one. -/
inductive Entries {α : Type} (Entry : α → List Char → Prop) :
    (isFirst : Bool) → List α → List Char → Prop
  | nil {isFirst : Bool} {gap : List Char} : IsGap gap → Entries Entry isFirst [] gap
  | cons {isFirst : Bool} {x : α} {xs : List α} {gap s t : List Char} : Separates isFirst gap →
      Entry x s → Entries Entry false xs t → Entries Entry isFirst (x :: xs) (gap ++ (s ++ t))

/-- A name and its value, with a colon between them. -/
inductive MemberForm (Value : Json → List Char → Prop) : String × Json → List Char → Prop
  | mk {name : String} {value : Json} {before after s : List Char} : IsGap before → IsGap after →
      Value value s →
      MemberForm Value (name, value) (quoted name.toList ++ (before ++ ':' :: (after ++ s)))

/-- The texts that a document may be written with. -/
inductive Form : Json → List Char → Prop
  | null : Form .null ['n', 'u', 'l', 'l']
  | flag (value : Bool) : Form (.flag value) (flagChars value)
  | number (literal : String) : Form (.number literal) literal.toList
  | text (content : String) : Form (.text content) (quoted content.toList)
  | list {items : List Json} {s : List Char} : Entries Form true items s →
      Form (.list items) ('[' :: (s ++ [']']))
  | record {members : List (String × Json)} {s : List Char} :
      Entries (MemberForm Form) true members s → Form (.record members) ('\x7b' :: (s ++ ['\x7d']))

variable {α : Type} {Entry : α → List Char → Prop} {isFirst : Bool} {x : α} {xs : List α}
  {gap s t rest : List Char} {c close : Char}

theorem isGap_nil : IsGap [] :=
  fun _ h => absurd h List.not_mem_nil

theorem Entries.singleton (h : Entry x s) : Entries Entry true [x] s := by
  have hentries : Entries Entry true [x] ([] ++ (s ++ [])) :=
    .cons (.gap isGap_nil) h (.nil isGap_nil)
  rwa [List.nil_append, List.append_nil] at hentries

/-- An entry is put in front with a comma after it. -/
theorem Entries.push {y : α} (h : Entry x s) (ht : Entries Entry true (y :: xs) t) :
    Entries Entry true (x :: y :: xs) (s ++ ',' :: t) := by
  cases ht with
  | cons hgap hy hxs =>
      cases hgap with
      | gap hgap => exact .cons (.gap isGap_nil) h (.cons (.comma isGap_nil hgap) hy hxs)

/-- Space may be put in front of the first entry. -/
theorem Entries.gap_append (hgap : IsGap gap) (h : Entries Entry true xs s) :
    Entries Entry true xs (gap ++ s) := by
  have happend {more : List Char} (hmore : IsGap more) : IsGap (gap ++ more) := by
    intro c hc
    rcases List.mem_append.mp hc with hc | hc
    · exact hgap c hc
    · exact hmore c hc
  cases h with
  | nil hmore => exact .nil (happend hmore)
  | cons hmore hx hxs =>
      cases hmore with
      | gap hmore =>
          rw [← List.append_assoc]
          exact .cons (.gap (happend hmore)) hx hxs

/-- Space may be put behind the last entry. -/
theorem Entries.append_gap (hgap : IsGap gap) (h : Entries Entry isFirst xs s) :
    Entries Entry isFirst xs (s ++ gap) := by
  induction h with
  | nil hmore =>
      refine .nil fun c hc => ?_
      rcases List.mem_append.mp hc with hc | hc
      · exact hmore c hc
      · exact hgap c hc
  | cons hmore hx _ ih =>
      rw [List.append_assoc, List.append_assoc]
      exact .cons hmore hx ih

/-! ## The compact form -/

theorem memberForm_compact {value : Json} (name : String) (h : Form value s) :
    MemberForm Form (name, value) (quoted name.toList ++ ':' :: s) :=
  .mk isGap_nil isGap_nil h

mutual

theorem form_compactChars (document : Json) : Form document document.compactChars := by
  cases document with
  | null => exact .null
  | flag value => exact .flag value
  | number literal => exact .number literal
  | text content => exact .text content
  | list items => exact .list (entries_compactItems items)
  | record members => exact .record (entries_compactMembers members)

theorem entries_compactItems (items : List Json) :
    Entries Form true items (compactItems items) := by
  match items with
  | [] => exact .nil isGap_nil
  | [item] => exact .singleton (form_compactChars item)
  | item :: next :: rest =>
      exact .push (form_compactChars item) (entries_compactItems (next :: rest))

theorem entries_compactMembers (members : List (String × Json)) :
    Entries (MemberForm Form) true members (compactMembers members) := by
  match members with
  | [] => exact .nil isGap_nil
  | [(name, value)] => exact .singleton (memberForm_compact name (form_compactChars value))
  | (name, value) :: next :: rest =>
      exact .push (memberForm_compact name (form_compactChars value))
        (entries_compactMembers (next :: rest))

end

/-! ## The indented form -/

theorem isGap_lineBreak (level : Nat) : IsGap (lineBreak level) := by
  intro c hc
  rcases List.mem_cons.mp hc with rfl | hc
  · rfl
  · rw [List.eq_of_mem_replicate hc]
    rfl

theorem memberForm_indented {value : Json} (name : String) (h : Form value s) :
    MemberForm Form (name, value) (quoted name.toList ++ ':' :: ' ' :: s) :=
  .mk isGap_nil (by simp [IsGap, isSpace] : IsGap [' ']) h

mutual

theorem form_indentedChars (level : Nat) (document : Json) :
    Form document (document.indentedChars level) := by
  match document with
  | .null => exact .null
  | .flag value => exact .flag value
  | .number literal => exact .number literal
  | .text content => exact .text content
  | .list [] => exact .list (.nil isGap_nil)
  | .list (item :: rest) =>
      exact .list ((entries_indentedItems (level + 1) (item :: rest)).append_gap
        (isGap_lineBreak level))
  | .record [] => exact .record (.nil isGap_nil)
  | .record (member :: rest) =>
      exact .record ((entries_indentedMembers (level + 1) (member :: rest)).append_gap
        (isGap_lineBreak level))

theorem entries_indentedItems (level : Nat) (items : List Json) :
    Entries Form true items (indentedItems level items) := by
  match items with
  | [] => exact .nil isGap_nil
  | [item] =>
      exact .gap_append (isGap_lineBreak level) (.singleton (form_indentedChars level item))
  | item :: next :: rest =>
      rw [indentedItems, List.append_assoc]
      · exact .gap_append (isGap_lineBreak level)
          (.push (form_indentedChars level item) (entries_indentedItems level (next :: rest)))
      · exact List.cons_ne_nil next rest

theorem entries_indentedMembers (level : Nat) (members : List (String × Json)) :
    Entries (MemberForm Form) true members (indentedMembers level members) := by
  match members with
  | [] => exact .nil isGap_nil
  | [(name, value)] =>
      rw [indentedMembers, List.append_assoc]
      exact .gap_append (isGap_lineBreak level)
        (.singleton (memberForm_indented name (form_indentedChars level value)))
  | (name, value) :: next :: rest =>
      rw [indentedMembers, List.append_assoc (lineBreak level), List.append_assoc (lineBreak level)]
      · exact .gap_append (isGap_lineBreak level)
          (.push (memberForm_indented name (form_indentedChars level value))
            (entries_indentedMembers level (next :: rest)))
      · exact List.cons_ne_nil next rest

end

/-! ## What stands between the parts -/

theorem skipSpace_gap_append (hgap : IsGap gap) (s : List Char) :
    skipSpace (gap ++ s) = skipSpace s :=
  List.dropWhile_append_of_pos hgap

theorem skipSpace_cons (hc : isSpace c = false) (s : List Char) : skipSpace (c :: s) = c :: s :=
  List.dropWhile_cons_of_neg (by rw [hc]; exact Bool.false_ne_true)

theorem endsNumber_gap_append (hgap : IsGap gap) (h : EndsNumber s) : EndsNumber (gap ++ s) := by
  cases gap with
  | nil => exact h
  | cons c gap =>
      have hspace := hgap c List.mem_cons_self
      simp only [isSpace, Bool.or_eq_true, beq_iff_eq] at hspace
      rcases hspace with ((rfl | rfl) | rfl) | rfl <;> exact endsNumber_cons.mpr (by decide)

/-- What follows a value inside brackets continues no number. -/
theorem Entries.endsNumber (h : Entries Entry false xs t) (hclose : EndsNumber (close :: rest)) :
    EndsNumber (t ++ close :: rest) := by
  cases h with
  | nil hgap => exact endsNumber_gap_append hgap hclose
  | cons hgap _ _ =>
      cases hgap with
      | comma hbefore =>
          rw [List.append_assoc, List.append_assoc]
          exact endsNumber_gap_append hbefore (endsNumber_cons.mpr (by decide))

end Json

namespace Note

open Json

variable {isFirst : Bool} {gap before after : List Char} {c close : Char}

theorem readSeparator_close (hclose : isSpace close = false) (hgap : IsGap gap)
    (isFirst : Bool) (rest : List Char) :
    readSeparator close isFirst (gap ++ close :: rest) = .ok (none, rest) := by
  rw [readSeparator, skipSpace_gap_append hgap, skipSpace_cons hclose]
  exact if_pos rfl

/-- In front of an entry no closing bracket is found. -/
theorem readSeparator_entry (hgap : Separates isFirst gap) (hspace : isSpace c = false)
    (hc : c ≠ close) (hcomma : close ≠ ',') (rest : List Char) :
    readSeparator close isFirst (gap ++ c :: rest) = .ok (some (c :: rest), []) := by
  cases hgap with
  | gap hgap =>
      rw [readSeparator, skipSpace_gap_append hgap, skipSpace_cons hspace]
      simp only [hc, ↓reduceIte]
  | comma hbefore hafter =>
      rw [readSeparator, List.append_assoc, skipSpace_gap_append hbefore, List.cons_append,
        skipSpace_cons rfl]
      simp only [hcomma.symm, ↓reduceIte, skipSpace_gap_append hafter, skipSpace_cons hspace, hc]
      rfl

theorem readColon_gap (hgap : IsGap gap) (rest : List Char) :
    readMembers.readColon (gap ++ ':' :: rest) = .ok rest := by
  rw [readMembers.readColon, skipSpace_gap_append hgap, skipSpace_cons rfl]
  rfl

end Note

end Outline
