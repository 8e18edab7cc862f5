import Mathlib.Data.List.Forall2
import Outline.Store.Basic

/-!
# Running operations

Operations are sequences of steps over a state.  The lemmas here open such a
sequence one step at a time: forwards, once the outcome of the first step is
known, and backwards, from the outcome of the whole.  A list of questions is
answered one by one.  `Keeps` collects the properties that hold of the state
however an operation ends.
-/

namespace Outline

section

variable {ε σ α β : Type}

/-- The state in which a run ended, whether it succeeded or failed. -/
def finalState : EStateM.Result ε σ α → σ
  | .ok _ s => s
  | .error _ s => s

@[simp] theorem finalState_ok (a : α) (s : σ) :
    finalState (.ok a s : EStateM.Result ε σ α) = s := rfl

@[simp] theorem finalState_error (e : ε) (s : σ) :
    finalState (.error e s : EStateM.Result ε σ α) = s := rfl

/-! ## Opening a sequence of steps -/

theorem bind_of_ok {x : EStateM ε σ α} {f : α → EStateM ε σ β} {s s' : σ} {a : α}
    (hx : x s = .ok a s') : (x >>= f) s = f a s' := by
  change EStateM.bind x f s = f a s'
  simp [EStateM.bind, hx]

theorem bind_of_error {x : EStateM ε σ α} {f : α → EStateM ε σ β} {s s' : σ} {e : ε}
    (hx : x s = .error e s') : (x >>= f) s = .error e s' := by
  change EStateM.bind x f s = .error e s'
  simp [EStateM.bind, hx]

theorem bind_eq_ok {x : EStateM ε σ α} {f : α → EStateM ε σ β} {s s'' : σ} {b : β} :
    (x >>= f) s = .ok b s'' ↔ ∃ a s', x s = .ok a s' ∧ f a s' = .ok b s'' := by
  cases hx : x s with
  | ok a s' =>
      rw [bind_of_ok hx]
      constructor
      · intro hf
        exact ⟨a, s', rfl, hf⟩
      · rintro ⟨_, _, heq, hf⟩
        cases heq
        exact hf
  | error e s' => simp [bind_of_error hx]

theorem bind_eq_error {x : EStateM ε σ α} {f : α → EStateM ε σ β} {s s'' : σ} {e : ε} :
    (x >>= f) s = .error e s'' ↔
      x s = .error e s'' ∨ ∃ a s', x s = .ok a s' ∧ f a s' = .error e s'' := by
  cases hx : x s with
  | ok a s' =>
      rw [bind_of_ok hx]
      constructor
      · exact fun hf => Or.inr ⟨a, s', rfl, hf⟩
      · rintro (heq | ⟨_, _, heq, hf⟩)
        · cases heq
        · cases heq
          exact hf
  | error e s' => simp [bind_of_error hx]

theorem except_bind_eq_ok {x : Except ε α} {f : α → Except ε β} {b : β} :
    (x >>= f) = .ok b ↔ ∃ a, x = .ok a ∧ f a = .ok b := by
  cases x with
  | ok a => simp [bind, Except.bind]
  | error e => simp [bind, Except.bind]

theorem except_mapError_eq_ok {δ : Type} {x : Except ε α} {wrap : ε → δ} {b : α} :
    x.mapError wrap = .ok b ↔ x = .ok b := by
  cases x with
  | ok a => simp [Except.mapError]
  | error e => simp [Except.mapError]

/-! ## Lists of answers -/

/-- What is related to the elements of a list comes from one of them. -/
theorem exists_mem_of_forall₂ {R : α → β → Prop} {xs : List α} {ys : List β} {y : β}
    (h : List.Forall₂ R xs ys) (hy : y ∈ ys) : ∃ x ∈ xs, R x y := by
  induction h with
  | nil => cases hy
  | cons hxy _ ih =>
      rcases List.mem_cons.mp hy with rfl | hy
      · exact ⟨_, List.mem_cons_self, hxy⟩
      · obtain ⟨x, hx, hxy⟩ := ih hy
        exact ⟨x, List.mem_cons_of_mem _ hx, hxy⟩

theorem mapM_eq_ok {γ : Type} {f : α → Except ε β} {g : β → γ} {h : α → γ} {xs : List α}
    (hf : ∀ x ∈ xs, ∃ y, f x = .ok y ∧ g y = h x) :
    ∃ ys, xs.mapM f = .ok ys ∧ ys.map g = xs.map h := by
  induction xs with
  | nil => exact ⟨[], rfl, rfl⟩
  | cons x xs ih =>
      obtain ⟨⟨y, hy, hgy⟩, hxs⟩ := List.forall_mem_cons.mp hf
      obtain ⟨ys, hys, hgys⟩ := ih hxs
      refine ⟨y :: ys, ?_, by simp [hgy, hgys]⟩
      rw [List.mapM_cons, hy]
      simp only [bind, Except.bind, hys]
      rfl

theorem exists_mapM_eq_ok {f : α → Except ε β} {xs : List α} (hf : ∀ x ∈ xs, ∃ y, f x = .ok y) :
    ∃ ys, xs.mapM f = .ok ys := by
  have hunit : ∀ x ∈ xs, ∃ y, f x = .ok y ∧ (fun _ => ()) y = (fun _ => ()) x :=
    fun x hx => (hf x hx).imp fun _ hy => ⟨hy, rfl⟩
  obtain ⟨ys, hys, -⟩ := mapM_eq_ok hunit
  exact ⟨ys, hys⟩

theorem mapM_eq_ok_iff_forall₂ {f : α → Except ε β} {xs : List α} {ys : List β} :
    xs.mapM f = .ok ys ↔ List.Forall₂ (fun x y => f x = .ok y) xs ys := by
  induction xs generalizing ys with
  | nil =>
      rw [List.forall₂_nil_left_iff]
      exact ⟨fun h => (Except.ok.inj h).symm, fun h => h ▸ rfl⟩
  | cons x xs ih =>
      rw [List.mapM_cons, except_bind_eq_ok, List.forall₂_cons_left_iff]
      constructor
      · rintro ⟨y, hy, h⟩
        obtain ⟨rest, hrest, h⟩ := except_bind_eq_ok.mp h
        exact ⟨y, rest, hy, ih.mp hrest, (Except.ok.inj h).symm⟩
      · rintro ⟨y, rest, hy, hrest, rfl⟩
        exact ⟨y, hy, except_bind_eq_ok.mpr ⟨rest, ih.mpr hrest, rfl⟩⟩

theorem mapM_of_forall₂ {γ : Type} {f : α → Except ε β} {R : γ → β → Prop} {xs : List α}
    {zs : List γ} (h : List.Forall₂ (fun x z => ∃ y, f x = .ok y ∧ R z y) xs zs) :
    ∃ ys, xs.mapM f = .ok ys ∧ List.Forall₂ R zs ys := by
  simp only [mapM_eq_ok_iff_forall₂]
  induction h with
  | nil => exact ⟨[], .nil, .nil⟩
  | cons hfirst _ ih =>
      obtain ⟨y, hy, hfirst⟩ := hfirst
      obtain ⟨ys, hys, hrest⟩ := ih
      exact ⟨y :: ys, .cons hy hys, .cons hfirst hrest⟩

/-- The answers in a list are those to the questions asked. -/
theorem mem_of_mapM_eq_ok {f : α → Except ε β} {xs : List α} {ys : List β}
    (h : xs.mapM f = .ok ys) {y : β} : y ∈ ys ↔ ∃ x ∈ xs, f x = .ok y := by
  rw [mapM_eq_ok_iff_forall₂] at h
  induction h with
  | nil => simp
  | cons hfirst _ ih => simp [ih, hfirst, eq_comm]

theorem exists_ok_of_mapM_eq_ok {f : α → Except ε β} {xs : List α} {ys : List β}
    (h : xs.mapM f = .ok ys) {x : α} (hx : x ∈ xs) : ∃ y, f x = .ok y := by
  rw [mapM_eq_ok_iff_forall₂] at h
  induction h with
  | nil => simp at hx
  | cons hfirst _ ih =>
      rcases List.mem_cons.mp hx with rfl | hx
      · exact ⟨_, hfirst⟩
      · exact ih hx

/-- If a list of questions fails, one of them does. -/
theorem exists_error_of_mapM_eq_error {f : α → Except ε β} {xs : List α} {e : ε}
    (h : xs.mapM f = .error e) : ∃ x ∈ xs, f x = .error e := by
  induction xs with
  | nil => cases h
  | cons x xs ih =>
      rw [List.mapM_cons] at h
      cases hx : f x with
      | error cause =>
          rw [hx] at h
          cases h
          exact ⟨x, List.mem_cons_self, hx⟩
      | ok y =>
          rw [hx] at h
          cases hxs : xs.mapM f with
          | error cause =>
              simp only [bind, Except.bind, hxs] at h
              cases h
              obtain ⟨x', hx', herror⟩ := ih hxs
              exact ⟨x', List.mem_cons_of_mem _ hx', herror⟩
          | ok ys =>
              simp only [bind, Except.bind, hxs] at h
              cases h

/-! ## Properties that hold however an operation ends -/

/-- Whether an operation keeps a property of the state, also when it fails. -/
def Keeps (P : σ → Prop) (x : EStateM ε σ α) : Prop :=
  ∀ s, P s → P (finalState (x s))

variable {P : σ → Prop}

theorem Keeps.pure (a : α) : Keeps P (Pure.pure a : EStateM ε σ α) :=
  fun _ hs => hs

theorem Keeps.throw (e : ε) : Keeps P (MonadExcept.throw e : EStateM ε σ α) :=
  fun _ hs => hs

theorem Keeps.bind {x : EStateM ε σ α} {f : α → EStateM ε σ β}
    (hx : Keeps P x) (hf : ∀ a, Keeps P (f a)) : Keeps P (x >>= f) := by
  intro s hs
  have hmid := hx s hs
  cases h : x s with
  | ok a s' =>
      rw [bind_of_ok h]
      rw [h] at hmid
      exact hf a s' hmid
  | error e s' =>
      rw [bind_of_error h]
      rw [h] at hmid
      exact hmid

theorem Keeps.ite {c : Prop} [Decidable c] {x y : EStateM ε σ α}
    (hx : Keeps P x) (hy : Keeps P y) : Keeps P (if c then x else y) := by
  split
  · exact hx
  · exact hy

theorem Keeps.modify {f : σ → σ} (hf : ∀ s, P s → P (f s)) :
    Keeps P (modify f : EStateM ε σ PUnit) :=
  fun s hs => hf s hs

end

/-! ## Steps on the store -/

namespace Store

variable {α : Type} {store : Store}

theorem look_of_ok {question : Store → Except StoreError α} {a : α}
    (h : question store = .ok a) : look question store = .ok a store := by
  simp [look, h]

theorem look_of_error {question : Store → Except StoreError α} {cause : StoreError}
    (h : question store = .error cause) : look question store = .error cause store := by
  simp [look, h]

theorem look_eq_ok {question : Store → Except StoreError α} {a : α} {store' : Store} :
    look question store = .ok a store' ↔ question store = .ok a ∧ store' = store := by
  cases h : question store <;> simp [look, h, eq_comm]

theorem look_eq_error {question : Store → Except StoreError α} {cause : StoreError} {store' : Store}
    (h : look question store = .error cause store') : store' = store := by
  cases hrun : question store with
  | ok a => cases (look_of_ok hrun).symm.trans h
  | error cause =>
      cases (look_of_error hrun).symm.trans h
      rfl

theorem change_of_ok {statement : Store → Except StoreError Store} {store' : Store}
    (h : statement store = .ok store') : change statement store = .ok () store' := by
  simp [change, h]

theorem change_of_error {statement : Store → Except StoreError Store} {cause : StoreError}
    (h : statement store = .error cause) : change statement store = .error cause store := by
  simp [change, h]

theorem change_eq_ok {statement : Store → Except StoreError Store} {store' : Store} :
    change statement store = .ok () store' ↔ statement store = .ok store' := by
  cases h : statement store <;> simp [change, h]

theorem change_eq_error {statement : Store → Except StoreError Store} {cause : StoreError}
    {store' : Store} (h : change statement store = .error cause store') : store' = store := by
  cases hrun : statement store with
  | ok s => cases (change_of_ok hrun).symm.trans h
  | error cause =>
      cases (change_of_error hrun).symm.trans h
      rfl

theorem drawIdentifier_eq (store : Store) :
    drawIdentifier store =
      .ok store.supply.nextIdentifier { store with supply := store.supply.afterDraw } := rfl

theorem readClock_eq (store : Store) :
    readClock store = .ok store.supply.time { store with supply := store.supply.afterReading } :=
  rfl

variable {P : Store → Prop}

theorem keeps_look (question : Store → Except StoreError α) : Keeps P (look question) := by
  intro s hs
  cases h : question s with
  | ok a => simpa [look_of_ok h] using hs
  | error cause => simpa [look_of_error h] using hs

/-- Looking something up and going on with the answer. -/
theorem finalState_look_bind {β : Type} {question : Store → Except StoreError α}
    {f : α → StoreM β} (hs : P store)
    (h : ∀ a, question store = .ok a → P (finalState (f a store))) :
    P (finalState ((look question >>= f) store)) := by
  cases hlook : question store with
  | ok a =>
      rw [bind_of_ok (look_of_ok hlook)]
      exact h a hlook
  | error cause =>
      rw [bind_of_error (look_of_error hlook)]
      exact hs

theorem finalState_change {statement : Store → Except StoreError Store} (hs : P store)
    (h : ∀ store', statement store = .ok store' → P store') :
    P (finalState (change statement store)) := by
  cases hrun : statement store with
  | ok store' => simpa [change_of_ok hrun] using h store' hrun
  | error cause => simpa [change_of_error hrun] using hs

theorem keeps_change {statement : Store → Except StoreError Store}
    (h : ∀ s s', P s → statement s = .ok s' → P s') : Keeps P (change statement) :=
  fun s hs => finalState_change hs fun s' => h s s' hs

end Store

end Outline
