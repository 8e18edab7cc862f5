import Outline.Proofs.DocumentForms
import Outline.Proofs.Refusals
import Outline.Proofs.Trimming

/-!
# Notes that are read back

A note is read back from every written form of its document.  The members of the document
are its set fields in their order, so reading them one by one fills in an empty note.
-/

namespace Outline

open Json

/-- A single is read back from the number that is written for it in a document. -/
def Single.ReadsBack (x : Single) : Prop :=
  Note.readSingleValue (Number.Layout.document.write .single x.bits.toNat).toList = .ok (x, [])

instance (x : Single) : Decidable x.ReadsBack :=
  inferInstanceAs (Decidable (_ = _))

namespace Note

/-- The numbers of a note fit into a document: its time has 64 bits with a sign, and the others are
finite and read back from what is written for them. -/
structure NumbersFit (note : Note) : Prop where
  created : ∀ time ∈ note.created,
    -(Number.signedLimit : Int) ≤ time ∧ time < Number.signedLimit
  finite : ∀ property, ∀ x ∈ note.number property, x.isFinite
  readsBack : ∀ property, ∀ x ∈ note.number property, x.ReadsBack

variable {note : Note} {field : Field} {document : Json} {gap s t rest : List Char} {c : Char}

/-- Besides its time, a note has at most two numbers. -/
theorem numbersFit_iff : note.NumbersFit ↔
    (∀ time ∈ note.created, -(Number.signedLimit : Int) ≤ time ∧ time < Number.signedLimit) ∧
      (∀ x ∈ note.weight, x.isFinite ∧ x.ReadsBack) ∧
      ∀ x ∈ note.sharability, x.isFinite ∧ x.ReadsBack := by
  constructor
  · intro h
    exact ⟨h.created, fun x hx => ⟨h.finite .weight x hx, h.readsBack .weight x hx⟩,
      fun x hx => ⟨h.finite .sharability x hx, h.readsBack .sharability x hx⟩⟩
  · rintro ⟨hcreated, hweight, hsharability⟩
    have hnumber : ∀ property, ∀ x ∈ note.number property, x.isFinite ∧ x.ReadsBack := by
      intro property x hx
      cases property with
      | priority => cases hx
      | sharability => exact hsharability x hx
      | weight => exact hweight x hx
    exact ⟨hcreated, fun property x hx => (hnumber property x hx).1,
      fun property x hx => (hnumber property x hx).2⟩

instance (note : Note) : Decidable note.NumbersFit :=
  decidable_of_iff _ numbersFit_iff.symm

/-! ## The fields of a document -/

namespace Field

/-- What the document of a note holds in a field. -/
def document? (note : Note) : Field → Option Json
  | id => note.id.map .text
  | value => note.value.map .text
  | byname => note.byname.map .text
  | weight => note.weight.map .ofSingle
  | sharability => note.sharability.map .ofSingle
  | created => note.created.map .ofInt
  | children => if note.children = [] then none else some (.list (note.children.map toJson))

/-- A field with its name. -/
def member? (note : Note) (field : Field) : Option (String × Json) :=
  (field.document? note).map fun document => (field.name, document)

/-- Fills in a field of a note that another note sets. -/
def fill (note : Note) (field : Field) (partly : Note) : Note :=
  match field with
  | id => { partly with id := note.id.or partly.id }
  | value => { partly with value := note.value.or partly.value }
  | byname => { partly with byname := note.byname.or partly.byname }
  | weight => { partly with weight := note.weight.or partly.weight }
  | sharability => { partly with sharability := note.sharability.or partly.sharability }
  | created => { partly with created := note.created.or partly.created }
  | children =>
    { partly with children := if note.children = [] then partly.children else note.children }

/-- A field without a document is unset. -/
theorem fill_of_document?_eq_none (h : field.document? note = none) (partly : Note) :
    field.fill note partly = partly := by
  cases partly
  cases field with
  | children =>
      rw [document?] at h
      split_ifs at h with hchildren
      rw [fill, if_pos hchildren]
  | _ =>
      rw [document?, Option.map_eq_none_iff] at h
      rw [fill, h, Option.none_or]

theorem foldl_fill_inOrder (note : Note) :
    inOrder.foldl (fun partly field => field.fill note partly) {} = note := by
  cases note
  simp only [inOrder, List.foldl_cons, List.foldl_nil, fill, Option.or_none]
  split_ifs with hchildren
  · rw [hchildren]
  · rfl

theorem ofName?_name (field : Field) : ofName? field.name.toList = some field := by
  cases field <;> decide

end Field

theorem childrenToJson_eq_map (children : List Note) :
    childrenToJson children = children.map toJson := by
  induction children with
  | nil => rfl
  | cons child children ih => rw [childrenToJson, ih, List.map_cons]

theorem memberDocuments_eq_filterMap (note : Note) :
    note.memberDocuments = [.id, .value, .byname, .weight, .sharability, .created].filterMap
      (Field.member? note) := by
  let fields : List Field := [.id, .value, .byname, .weight, .sharability, .created]
  change (fields.map fun field => (field.name, field.document? note)).filterMap
    (fun member => member.2.map fun document => (member.1, document)) = _
  rw [List.filterMap_map]
  rfl

/-- The members of a document are the set fields. -/
theorem toJson_eq_record (note : Note) :
    note.toJson = .record (Field.inOrder.filterMap (Field.member? note)) := by
  cases note with
  | mk id value byname weight sharability created children =>
      have hfields : Field.inOrder = [.id, .value, .byname, .weight, .sharability, .created] ++
          [.children] := rfl
      cases children with
      | nil =>
          rw [toJson, memberDocuments_eq_filterMap, hfields, List.filterMap_append]
          rfl
      | cons child rest =>
          rw [toJson, memberDocuments_eq_filterMap, hfields, List.filterMap_append,
            childrenToJson_eq_map]
          rfl

/-! ## The values of fields -/

theorem readNumberValue_of_readNumber {x : NumberLiteral} (h : readNumber s = .ok (x, t)) :
    readNumberValue s = .ok (x, t) := by
  cases s with
  | nil => cases h
  | cons c s => rw [readNumberValue, if_pos (head_of_readNumber_eq_ok h), h]

theorem isLocal_readNumberValue : IsLocal readNumberValue := by
  intro s x t h rest hrest
  cases s with
  | nil => cases h
  | cons c s =>
      rw [readNumberValue] at h
      rw [List.cons_append, readNumberValue]
      split_ifs at h ⊢ with hc
      · exact isLocal_readNumber h hrest

theorem isLocal_readSingleValue : IsLocal readSingleValue := by
  intro s x t h rest hrest
  obtain ⟨⟨literal, u⟩, hliteral, hx⟩ := except_bind_eq_ok.mp h
  cases hx
  exact except_bind_eq_ok.mpr ⟨_, isLocal_readNumberValue hliteral hrest, rfl⟩

theorem readCreatedValue_toString {n : Int} (hlower : -(Number.signedLimit : Int) ≤ n)
    (hupper : n < Number.signedLimit) (hrest : EndsNumber rest) :
    readCreatedValue ((toString n).toList ++ rest) = .ok (n, rest) := by
  have hnumber := readNumberValue_of_readNumber (readNumber_toString hlower hupper)
  refine except_bind_eq_ok.mpr ⟨_, isLocal_readNumberValue hnumber hrest, ?_⟩
  exact if_pos hupper

section

variable {α : Type} {read : List Char → Except ReadFault (α × List Char)} {x : α}

theorem readOptional_of_ok (hgap : IsGap gap) (hspace : isSpace c = false) (hnull : c ≠ 'n')
    (h : read (c :: s) = .ok (x, rest)) :
    readOptional read (gap ++ c :: s) = .ok (some x, rest) := by
  rw [readOptional, skipSpace_gap_append hgap, skipSpace_cons hspace]
  split
  · rename_i heq
    exact absurd (List.cons.inj heq).1 hnull
  · exact except_bind_eq_ok.mpr ⟨_, h, rfl⟩

/-- A number begins with a sign or a digit, and so neither with space nor with a word. -/
theorem readOptional_number {literal : NumberLiteral} (hgap : IsGap gap)
    (hnumber : readNumberValue (s ++ rest) = .ok (literal, t))
    (h : read (s ++ rest) = .ok (x, t)) :
    readOptional read (gap ++ (s ++ rest)) = .ok (some x, t) := by
  cases hs : s ++ rest with
  | nil =>
      rw [hs] at hnumber
      cases hnumber
  | cons c u =>
      rw [hs] at hnumber h
      rw [readNumberValue] at hnumber
      split_ifs at hnumber with hc
      have hspace : isSpace c = false := by
        rw [Bool.eq_false_iff]
        intro hspace
        simp only [isSpace, Bool.or_eq_true, beq_iff_eq] at hspace
        rcases hspace with ((rfl | rfl) | rfl) | rfl <;> revert hc <;> decide
      have hnull : c ≠ 'n' := by
        rintro rfl
        revert hc
        decide
      exact readOptional_of_ok hgap hspace hnull h

end

theorem readOptional_text {content : String} (hform : Form (.text content) s) (hgap : IsGap gap)
    (rest : List Char) :
    readOptional readTextValue (gap ++ (s ++ rest)) = .ok (some content, rest) := by
  cases hform
  rw [quoted_append]
  refine readOptional_of_ok hgap rfl (by decide) ?_
  rw [readTextValue, readText_flatMap_escaped]
  change Except.ok (String.ofList content.toList, rest) = _
  rw [String.ofList_toList]

theorem readOptional_single {x : Single} (hfinite : x.isFinite) (hback : x.ReadsBack)
    (hform : Form (.ofSingle x) s) (hgap : IsGap gap) (hrest : EndsNumber rest) :
    readOptional readSingleValue (gap ++ (s ++ rest)) = .ok (some x, rest) := by
  rw [Json.ofSingle, if_pos hfinite] at hform
  cases hform
  have hread := isLocal_readSingleValue hback hrest
  obtain ⟨⟨literal, u⟩, hliteral, heq⟩ := except_bind_eq_ok.mp hread
  obtain ⟨-, rfl⟩ := Prod.mk.inj (Except.ok.inj heq)
  exact readOptional_number hgap hliteral hread

theorem readOptional_time {time : Int} (hlower : -(Number.signedLimit : Int) ≤ time)
    (hupper : time < Number.signedLimit) (hform : Form (.ofInt time) s) (hgap : IsGap gap)
    (hrest : EndsNumber rest) :
    readOptional readCreatedValue (gap ++ (s ++ rest)) = .ok (some time, rest) := by
  cases hform
  have hliteral := readNumberValue_of_readNumber (readNumber_toString hlower hupper)
  exact readOptional_number hgap (isLocal_readNumberValue hliteral hrest)
    (readCreatedValue_toString hlower hupper hrest)

/-- Every field but the children is read without looking further into the document. -/
theorem readField_of_ne_children {limit levels : Nat} (hfield : field ≠ .children)
    (hfit : note.NumbersFit) (hdocument : field.document? note = some document)
    (hform : Form document s) (hgap : IsGap gap) (hrest : EndsNumber rest) (partly : Note) :
    readField limit levels field partly (gap ++ (s ++ rest)) =
      .ok (field.fill note partly, rest) := by
  have hsingle (property : NumberProperty) {x : Single} (hx : note.number property = some x)
      (hform : Form (.ofSingle x) s) :
      readOptional readSingleValue (gap ++ (s ++ rest)) = .ok (some x, rest) :=
    readOptional_single (hfit.finite property x hx) (hfit.readsBack property x hx) hform hgap hrest
  cases field with
  | id | value | byname =>
      obtain ⟨content, hcontent, rfl⟩ := Option.map_eq_some_iff.mp hdocument
      rw [readField, readOptional_text hform hgap, Field.fill, hcontent]
      rfl
  | weight =>
      obtain ⟨x, hx, rfl⟩ := Option.map_eq_some_iff.mp hdocument
      rw [readField, hsingle .weight hx hform, Field.fill, hx]
      rfl
  | sharability =>
      obtain ⟨x, hx, rfl⟩ := Option.map_eq_some_iff.mp hdocument
      rw [readField, hsingle .sharability hx hform, Field.fill, hx]
      rfl
  | created =>
      obtain ⟨time, htime, rfl⟩ := Option.map_eq_some_iff.mp hdocument
      obtain ⟨hlower, hupper⟩ := hfit.created time htime
      rw [readField, readOptional_time hlower hupper hform hgap hrest, Field.fill, htime]
      rfl
  | children => exact absurd rfl hfield

/-! ## Notes -/

/-- A note is read from every form of its document, if enough is left of the nesting and of the
number of parts. -/
def IsRead (depth : Nat) (note : Note) : Prop :=
  ∀ ⦃limit levels s⦄, Form note.toJson s → s.length ≤ limit → depth ≤ levels →
    ∀ rest, readNote limit levels (s ++ rest) = .ok (note, rest)

variable {depth limit levels : Nat} {isFirst : Bool} {children : List Note}

theorem readChildren_of_isRead (hchildren : ∀ child ∈ children, child.IsRead depth)
    (hform : Entries Form isFirst (children.map toJson) s) (hlimit : s.length < limit)
    (hlevels : depth ≤ levels) (rest : List Char) :
    readChildren limit levels isFirst (s ++ ']' :: rest) = .ok (children, rest) := by
  induction children generalizing isFirst s limit with
  | nil =>
      obtain _ | limit := limit
      · omega
      cases hform with
      | nil hgap =>
          rw [readChildren, readSeparator_close rfl hgap]
          rfl
  | cons child children ih =>
      obtain _ | limit := limit
      · omega
      cases hform with
      | @cons _ _ _ gap s t hgap hform ht =>
          -- A note begins with a brace, which no separator contains.
          have hbrace : ∃ u, s = '\x7b' :: u := by
            rw [toJson_eq_record] at hform
            cases hform
            exact ⟨_, rfl⟩
          obtain ⟨u, rfl⟩ := hbrace
          simp only [List.length_append, List.length_cons] at hlimit
          have hchild : readNote limit levels (('\x7b' :: u) ++ (t ++ ']' :: rest)) =
              .ok (child, t ++ ']' :: rest) :=
            hchildren child List.mem_cons_self hform (by rw [List.length_cons]; omega) hlevels _
          have hrest : readChildren limit levels false (t ++ ']' :: rest) = .ok (children, rest) :=
            ih (fun child hmem => hchildren child (List.mem_cons_of_mem _ hmem)) ht (by omega)
          rw [readChildren, List.append_assoc, List.append_assoc, List.cons_append,
            readSeparator_entry hgap rfl (by decide) (by decide)]
          refine except_bind_eq_ok.mpr ⟨_, rfl, ?_⟩
          refine except_bind_eq_ok.mpr ⟨_, hchild, ?_⟩
          exact except_bind_eq_ok.mpr ⟨_, hrest, rfl⟩

/-- Every field is read, if the children can be. -/
theorem readField_of_isRead (hfit : note.NumbersFit)
    (hchildren : ∀ child ∈ note.children, child.IsRead depth)
    (hlevels : note.children ≠ [] → depth < levels)
    (hdocument : field.document? note = some document) (hform : Form document s)
    (hlimit : s.length ≤ limit) (hgap : IsGap gap) (hrest : EndsNumber rest) (partly : Note) :
    readField limit levels field partly (gap ++ (s ++ rest)) =
      .ok (field.fill note partly, rest) := by
  by_cases hfield : field = .children
  · subst hfield
    rw [Field.document?] at hdocument
    split_ifs at hdocument with hnone
    cases hdocument
    have hdepth := hlevels hnone
    cases hform with
    | @list _ s hform =>
        rw [List.length_cons, List.length_append, List.length_singleton] at hlimit
        obtain _ | limit := limit
        · omega
        obtain _ | levels := levels
        · omega
        have hread : readChildren limit levels true (s ++ ']' :: rest) =
            .ok (note.children, rest) :=
          readChildren_of_isRead hchildren hform (by omega) (by omega) rest
        have hopen : skipSpace (gap ++ ('[' :: (s ++ [']']) ++ rest)) =
            '[' :: (s ++ ']' :: rest) := by
          rw [skipSpace_gap_append hgap, List.cons_append, skipSpace_cons rfl, List.append_assoc]
          rfl
        rw [readField]
        · exact except_bind_eq_ok.mpr ⟨_, hread, by rw [Field.fill, if_neg hnone]; rfl⟩
        · exact hopen
  · exact readField_of_ne_children hfield hfit hdocument hform hgap hrest partly

/-- A member is read by its name, and then the ones after it. -/
theorem readMembers_member {before : List Char} {partly next last : Note} {seen : List Field}
    (hgap : Separates isFirst gap) (hbefore : IsGap before) (hseen : field ∉ seen)
    (hfield : readField limit levels field partly s = .ok (next, t))
    (hmore : readMembers limit levels false (field :: seen) next t = .ok (last, rest)) :
    readMembers (limit + 1) levels isFirst seen partly
        (gap ++ (quoted field.name.toList ++ (before ++ ':' :: s))) = .ok (last, rest) := by
  have hunseen : seen.contains field = false := by simpa using hseen
  rw [readMembers, quoted_append, readSeparator_entry hgap rfl (by decide) (by decide)]
  refine except_bind_eq_ok.mpr ⟨_, rfl, ?_⟩
  refine except_bind_eq_ok.mpr ⟨_, readText_flatMap_escaped _ _, ?_⟩
  simp only [Field.ofName?_name, hunseen, Bool.false_eq_true, ↓reduceIte]
  refine except_bind_eq_ok.mpr ⟨_, readColon_gap hbefore s, ?_⟩
  exact except_bind_eq_ok.mpr ⟨_, hfield, hmore⟩

/-- What is left of the fields is filled in. -/
theorem readMembers_of_isRead (hfit : note.NumbersFit)
    (hchildren : ∀ child ∈ note.children, child.IsRead depth)
    (hlevels : note.children ≠ [] → depth < levels) {fields seen : List Field}
    (hnodup : fields.Nodup) (hseen : ∀ field ∈ fields, field ∉ seen)
    (hform : Entries (MemberForm Form) isFirst (fields.filterMap (Field.member? note)) s)
    (hlimit : s.length < limit) (partly : Note) (rest : List Char) :
    readMembers limit levels isFirst seen partly (s ++ '\x7d' :: rest) =
      .ok (fields.foldl (fun partly field => field.fill note partly) partly, rest) := by
  -- By induction on the fields that are left, none of which has been seen so far.
  induction fields generalizing isFirst seen partly s limit with
  | nil =>
      obtain _ | limit := limit
      · omega
      cases hform with
      | nil hgap =>
          rw [readMembers, readSeparator_close rfl hgap]
          rfl
  | cons field fields ih =>
      obtain ⟨hnew, hnodup⟩ := List.nodup_cons.mp hnodup
      obtain ⟨hunseen, hseen⟩ := List.forall_mem_cons.mp hseen
      rw [List.foldl_cons]
      cases hdocument : field.document? note with
      | none =>
          have hmember : Field.member? note field = none := by rw [Field.member?, hdocument]; rfl
          rw [List.filterMap_cons_none hmember] at hform
          rw [Field.fill_of_document?_eq_none hdocument]
          exact ih hnodup hseen hform hlimit partly
      | some document =>
          have hmember : Field.member? note field = some (field.name, document) := by
            rw [Field.member?, hdocument]; rfl
          rw [List.filterMap_cons_some hmember] at hform
          obtain _ | limit := limit
          · omega
          rcases hform with _ | @⟨_, _, _, gap, _, t, hgap, hentry, ht⟩
          obtain @⟨_, _, before, after, s, hbefore, hafter, hform⟩ := hentry
          simp only [quoted, List.length_append, List.length_cons] at hlimit
          have hseen' : ∀ other ∈ fields, other ∉ field :: seen := by
            intro other hmem hother
            rcases List.mem_cons.mp hother with rfl | hother
            · exact hnew hmem
            · exact hseen other hmem hother
          have hfield : readField limit levels field partly
              (after ++ (s ++ (t ++ '\x7d' :: rest))) =
              .ok (field.fill note partly, t ++ '\x7d' :: rest) :=
            readField_of_isRead hfit hchildren hlevels hdocument hform (by omega) hafter
              (ht.endsNumber (endsNumber_cons.mpr (by decide))) partly
          simp only [List.append_assoc, List.cons_append]
          exact readMembers_member hgap hbefore hunseen hfield
            (ih hnodup hseen' ht (by omega) _)

theorem isRead_of_children (depth : Nat) {most : Nat} (hfit : note.NumbersFit)
    (hchildren : ∀ child ∈ note.children, child.IsRead depth) (hpos : 0 < most)
    (hmost : note.children ≠ [] → depth + 1 < most) : note.IsRead most := by
  intro limit levels s hform hlimit hlevels rest
  rw [toJson_eq_record] at hform
  cases hform with
  | @record _ s hform =>
      rw [List.length_cons, List.length_append, List.length_singleton] at hlimit
      obtain _ | limit := limit
      · omega
      obtain _ | levels := levels
      · omega
      have hread : readMembers limit levels true [] {} (s ++ '\x7d' :: rest) =
          .ok (Field.inOrder.foldl (fun partly field => field.fill note partly) {}, rest) :=
        readMembers_of_isRead hfit hchildren (fun hne => by have := hmost hne; omega) (by decide)
          (fun _ _ => List.not_mem_nil) hform (by omega) {} rest
      rw [Field.foldl_fill_inOrder] at hread
      have hopen : skipSpace ('\x7b' :: (s ++ ['\x7d']) ++ rest) =
          '\x7b' :: (s ++ '\x7d' :: rest) := by
        rw [List.cons_append, skipSpace_cons rfl, List.append_assoc]
        rfl
      rw [readNote.eq_def]
      simp only [hopen, ↓reduceIte, hread]

/-- Every level of notes takes two levels of brackets, but the last one only one. -/
theorem isRead_of_withinLevels {n : Nat} (hlevels : note.WithinLevels n)
    (hfit : ∀ part : Note, part.Within note → part.NumbersFit) : note.IsRead (2 * n + 1) := by
  induction n generalizing note with
  | zero =>
      have hnone : note.children = [] := hlevels
      refine isRead_of_children 0 (hfit note .self) ?_ (by omega) (absurd hnone)
      rw [hnone]
      exact fun _ h => absurd h List.not_mem_nil
  | succ n ih =>
      refine isRead_of_children (2 * n + 1) (hfit note .self) (fun child hchild => ?_) (by omega) ?_
      · exact ih (hlevels child hchild) fun part hpart => hfit part (.ofChild hchild hpart)
      · intro _
        omega

/-- A note of few enough levels is read from every form of its document, with any space around
it. -/
theorem read_of_form (hlevels : note.WithinLevels 63)
    (hfit : ∀ part : Note, part.Within note → part.NumbersFit) (hform : Form note.toJson s)
    {before after : List Char} (hbefore : IsGap before) (hafter : IsGap after) :
    read (String.ofList (before ++ (s ++ after))) = .ok note := by
  have hread (limit : Nat) (hlimit : s.length < limit) :
      readNote limit nestingLimit (before ++ (s ++ after)) = .ok (note, after) := by
    obtain _ | limit := limit
    · omega
    rw [readNote.eq_def]
    dsimp only
    rw [skipSpace_gap_append hbefore]
    have h := isRead_of_withinLevels hlevels hfit hform (Nat.le_of_lt hlimit) (Nat.le_refl _) after
    rw [readNote.eq_def] at h
    exact h
  rw [read, String.toList_ofList]
  refine except_bind_eq_ok.mpr ⟨(note, after), hread _ ?_, ?_⟩
  · simp only [List.length_append]
    omega
  · have hnothing : skipSpace after = [] := by
      rw [← List.append_nil after, skipSpace_gap_append hafter]
      rfl
    dsimp only
    rw [hnothing]
    rfl

theorem read_compact (hlevels : note.WithinLevels 63)
    (hfit : ∀ part : Note, part.Within note → part.NumbersFit) :
    read note.toJson.compact = .ok note := by
  have h := read_of_form hlevels hfit (form_compactChars _) isGap_nil isGap_nil
  rwa [List.nil_append, List.append_nil] at h

/-- The indented form is read back with any space behind it. -/
theorem read_indented_append (hlevels : note.WithinLevels 63)
    (hfit : ∀ part : Note, part.Within note → part.NumbersFit) (hgap : IsGap gap) :
    read (note.toJson.indented ++ String.ofList gap) = .ok note := by
  have h := read_of_form hlevels hfit (form_indentedChars 0 _) isGap_nil hgap
  rwa [List.nil_append, String.ofList_append] at h

end Note

end Outline
