import Mathlib.Data.List.Basic

/-!
# Correctness of partial computations

A computation that can fail is an option. `Succeeds x P` says that it does not fail and that what it
returns satisfies `P`; `Returns x P` says it only of what it returns, if it returns. The rules below
follow the way such a computation is put together, so that a proof walks along its binds, and a loop is
its body's rule applied along the list of its inputs.
-/

set_option autoImplicit false

namespace MichiServer.Logic

variable {α β : Type}

/-- The computation returns a value, and the value satisfies `P`. -/
def Succeeds (x : Option α) (P : α → Prop) : Prop := ∃ a, x = some a ∧ P a

namespace Succeeds

variable {P P' : α → Prop} {Q : β → Prop} {x : Option α}

theorem some {a : α} (h : P a) : Succeeds (some a) P := ⟨a, rfl, h⟩

theorem mono (h : Succeeds x P) (hP : ∀ a, P a → P' a) : Succeeds x P' := by
  obtain ⟨a, rfl, ha⟩ := h
  exact ⟨a, rfl, hP a ha⟩

theorem bind {f : α → Option β} (h : Succeeds x P) (hf : ∀ a, P a → Succeeds (f a) Q) :
    Succeeds (x >>= f) Q := by
  obtain ⟨a, rfl, ha⟩ := h
  exact hf a ha

theorem map {f : α → β} (h : Succeeds x P) (hf : ∀ a, P a → Q (f a)) :
    Succeeds (x.map f) Q := by
  obtain ⟨a, rfl, ha⟩ := h
  exact ⟨f a, rfl, hf a ha⟩

theorem ite {c : Prop} [Decidable c] {y : Option α} (hx : c → Succeeds x P)
    (hy : ¬ c → Succeeds y P) : Succeeds (if c then x else y) P := by
  grind

/-- Reading a list inside its bounds. -/
theorem getElem? {l : List α} {i : ℕ} (hi : i < l.length) :
    Succeeds l[i]? fun a => l[i]? = Option.some a :=
  ⟨l[i], List.getElem?_eq_getElem hi, List.getElem?_eq_getElem hi⟩

/-- A loop succeeds when its body does, from every state the invariant allows and on every input, and
the invariant holds after it. -/
theorem foldlM {step : α → β → Option α} (hstep : ∀ a b, P a → Succeeds (step a b) P)
    (inputs : List β) {a : α} (ha : P a) : Succeeds (inputs.foldlM step a) P := by
  induction inputs generalizing a with
  | nil => exact .some ha
  | cons b rest ih =>
    rw [List.foldlM_cons]
    exact (hstep a b ha).bind fun a' ha' => ih ha'

end Succeeds

/-- What the computation returns, if it returns, satisfies `P`. -/
def Returns (x : Option α) (P : α → Prop) : Prop := ∀ a, x = some a → P a

namespace Returns

variable {P P' : α → Prop} {Q : β → Prop} {x : Option α}

theorem some {a : α} (h : P a) : Returns (some a) P := by
  intro b hb
  exact Option.some.inj hb ▸ h

theorem mono (h : Returns x P) (hP : ∀ a, P a → P' a) : Returns x P' := by
  intro a ha
  exact hP a (h a ha)

theorem bind {f : α → Option β} (h : Returns x P) (hf : ∀ a, P a → Returns (f a) Q) :
    Returns (x >>= f) Q := by
  intro b hb
  obtain ⟨a, ha, hfa⟩ := Option.bind_eq_some_iff.mp hb
  exact hf a (h a ha) b hfa

theorem map {f : α → β} (h : Returns x P) (hf : ∀ a, P a → Q (f a)) : Returns (x.map f) Q := by
  intro b hb
  obtain ⟨a, ha, rfl⟩ := Option.map_eq_some_iff.mp hb
  exact hf a (h a ha)

theorem ite {c : Prop} [Decidable c] {y : Option α} (hx : c → Returns x P)
    (hy : ¬ c → Returns y P) : Returns (if c then x else y) P := by
  grind

/-- A computation whose result is of no interest, as the first of two. -/
theorem skip {f : α → Option β} (hf : ∀ a, Returns (f a) Q) : Returns (x >>= f) Q := by
  intro b hb
  obtain ⟨a, -, hfa⟩ := Option.bind_eq_some_iff.mp hb
  exact hf a b hfa

/-- A computation of which it is known what it returned, as the first of two. -/
theorem knowing {f : α → Option β} (hf : ∀ a, x = Option.some a → Returns (f a) Q) :
    Returns (x >>= f) Q := by
  intro b hb
  obtain ⟨a, ha, hfa⟩ := Option.bind_eq_some_iff.mp hb
  exact hf a ha b hfa

end Returns

theorem Succeeds.and_returns {P P' : α → Prop} {x : Option α} (h : Succeeds x P) (h' : Returns x P') :
    Succeeds x fun a => P a ∧ P' a := by
  obtain ⟨a, hx, ha⟩ := h
  exact ⟨a, hx, ha, h' a hx⟩

/-- Every input of a loop meets the condition, in the state the loop is in when the input comes. -/
def Along (step : α → β → Option α) (C : α → β → Prop) : α → List β → Prop
  | _, [] => True
  | a, b :: rest => C a b ∧ ∀ a' ∈ step a b, Along step C a' rest

namespace Along

variable {I : α → Prop} {C : α → β → Prop} {step : α → β → Option α}

instance [∀ a b, Decidable (C a b)] : (a : α) → (inputs : List β) → Decidable (Along step C a inputs)
  | _, [] => inferInstanceAs (Decidable True)
  | a, b :: rest =>
    have : DecidablePred fun a' => Along step C a' rest := fun a' => instDecidable a' rest
    inferInstanceAs (Decidable (C a b ∧ ∀ a' ∈ step a b, Along step C a' rest))

/-- The beginning of such a loop is one. -/
theorem of_prefix {a : α} {before inputs : List β} (h : before <+: inputs)
    (hinputs : Along step C a inputs) : Along step C a before := by
  induction inputs generalizing a before with
  | nil => rw [List.prefix_nil.mp h]; trivial
  | cons b rest ih =>
    rcases List.prefix_cons_iff.mp h with rfl | ⟨before, rfl, hbefore⟩
    · trivial
    · exact ⟨hinputs.1, fun a' ha' => ih hbefore (hinputs.2 a' ha')⟩

/-- What is left of such a loop is one, from where its beginning leads. -/
theorem of_append {a a' : α} {before rest : List β} (h : Along step C a (before ++ rest))
    (hbefore : before.foldlM step a = Option.some a') : Along step C a' rest := by
  induction before generalizing a with
  | nil =>
    cases hbefore
    exact h
  | cons b before ih =>
    rw [List.foldlM_cons] at hbefore
    obtain ⟨a₁, hstep, hbefore⟩ := Option.bind_eq_some_iff.mp hbefore
    exact ih (h.2 a₁ hstep) hbefore

/-- A loop succeeds when its body does, on every input that meets the condition, and the invariant
holds after it. -/
theorem succeeds (hstep : ∀ a b, I a → C a b → Succeeds (step a b) I) {inputs : List β} {a : α}
    (h : Along step C a inputs) (ha : I a) : Succeeds (inputs.foldlM step a) I := by
  induction inputs generalizing a with
  | nil => exact .some ha
  | cons b rest ih =>
    rw [List.foldlM_cons]
    obtain ⟨a', hstep', ha'⟩ := hstep a b ha h.1
    rw [hstep']
    exact ih (h.2 a' hstep') ha'

end Along

end MichiServer.Logic
