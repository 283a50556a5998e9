import Mathlib.Data.List.Forall2

/-!
# Computations that change a state and may fail

A `Handler` reads and changes a state and ends with a value or with an error. An error does not undo
what was changed before it: this is a program that returns early, not a transaction.

`Leaves m s P E` says how the computation ends from a state: with a value and a state that satisfy
`P`, or with an error and a state that satisfy `E`. The rules follow the way a handler is written, so
a proof reads down its `do` block.
-/

set_option autoImplicit false

namespace MichiServer.Logic

/-- A computation over a state of type `σ` that may end early with an `ε`. -/
abbrev Handler (ε σ α : Type) := ExceptT ε (StateM σ) α

namespace Handler

variable {ε σ α β : Type}

/-- How the computation ends, and the state it leaves. -/
def exec (m : Handler ε σ α) (s : σ) : Except ε α × σ := m.run.run s

theorem exec_bind_ok {m : Handler ε σ α} {f : α → Handler ε σ β} {s s' : σ} {a : α}
    (h : m.exec s = (.ok a, s')) : exec (m >>= f) s = exec (f a) s' := by
  simp only [exec, ExceptT.run_bind, StateT.run_bind] at h ⊢
  rw [h]
  rfl

theorem exec_bind_error {m : Handler ε σ α} {f : α → Handler ε σ β} {s s' : σ} {e : ε}
    (h : m.exec s = (.error e, s')) : exec (m >>= f) s = (.error e, s') := by
  simp only [exec, ExceptT.run_bind, StateT.run_bind] at h ⊢
  rw [h]
  rfl

/-- The computation ends in `P` with a value, or in `E` with an error. -/
def Leaves (m : Handler ε σ α) (s : σ) (P : α → σ → Prop) (E : ε → σ → Prop) : Prop :=
  match m.exec s with
  | (.ok a, s') => P a s'
  | (.error e, s') => E e s'

/-- The computation ends with the error when the condition holds. -/
def rejectIf (c : Prop) [Decidable c] (error : ε) : Handler ε σ Unit :=
  if c then throw error else pure ()

/-- The value, if there is one; otherwise the computation ends with the error. -/
def require (x : Option α) (error : ε) : Handler ε σ α :=
  match x with
  | some a => pure a
  | none => throw error

/-- The state is replaced by what a function makes of it, and the function's answer decides how the
computation ends. -/
def update (f : σ → σ × Except ε α) : Handler ε σ α := do
  let r := f (← get)
  set r.1
  MonadExcept.ofExcept r.2

namespace Leaves

variable {m : Handler ε σ α} {s : σ} {P : α → σ → Prop} {E : ε → σ → Prop}
  {Q : β → σ → Prop}

theorem pure {a : α} (h : P a s) : Leaves (pure a) s P E := h

theorem throw {e : ε} (h : E e s) : Leaves (throw e : Handler ε σ α) s P E := h

theorem mono {P' : α → σ → Prop} {E' : ε → σ → Prop} (h : Leaves m s P E)
    (hP : ∀ a s', P a s' → P' a s') (hE : ∀ e s', E e s' → E' e s') : Leaves m s P' E' := by
  grind [Leaves]

/-- What holds however the computation ends holds of the state it leaves. -/
theorem final {Q : σ → Prop} (h : Leaves m s (fun _ => Q) fun _ => Q) : Q (m.exec s).2 := by
  grind [Leaves]

theorem get {P : σ → σ → Prop} (h : P s s) : Leaves (get : Handler ε σ σ) s P E := h

theorem modify {P : Unit → σ → Prop} {f : σ → σ} (h : P () (f s)) :
    Leaves (modify f : Handler ε σ Unit) s P E := h

/-- A sequence: the rest must end well from whatever the first part leaves. -/
theorem bind {f : α → Handler ε σ β} (h : Leaves m s (fun a s' => Leaves (f a) s' Q E) E) :
    Leaves (m >>= f) s Q E := by
  grind [exec_bind_ok, Leaves, exec_bind_error]

/-- What is rejected ends here; below, the condition is known to fail. -/
theorem rejectIf {c : Prop} [Decidable c] {error : ε} {P : Unit → σ → Prop}
    (hc : c → E error s) (h : ¬ c → P () s) : Leaves (Handler.rejectIf c error) s P E := by
  unfold Handler.rejectIf
  by_cases hcase : c
  · rw [if_pos hcase]
    exact hc hcase
  · rw [if_neg hcase]
    exact h hcase

/-- What is required is there, below. -/
theorem require {x : Option α} {error : ε} (hnone : x = none → E error s)
    (hsome : ∀ a, x = some a → P a s) : Leaves (Handler.require x error) s P E := by
  unfold Handler.require
  cases x with
  | none => exact hnone rfl
  | some a => exact hsome a rfl

theorem ite {c : Prop} [Decidable c] {m' : Handler ε σ α} (hm : c → Leaves m s P E)
    (hm' : ¬ c → Leaves m' s P E) : Leaves (if c then m else m') s P E := by
  grind

theorem update {f : σ → σ × Except ε α} (hok : ∀ a, (f s).2 = .ok a → P a (f s).1)
    (herror : ∀ e, (f s).2 = .error e → E e (f s).1) : Leaves (Handler.update f) s P E := by
  unfold Leaves
  have hexec : exec (Handler.update f : Handler ε σ α) s = ((f s).2, (f s).1) := by
    show exec (do set (f s).1; MonadExcept.ofExcept (f s).2 : Handler ε σ α) s = _
    cases (f s).2 <;> rfl
  grind

/-- An error that is passed on in other words. -/
theorem adapt {ε' : Type} {f : ε → ε'} {E : ε' → σ → Prop}
    (h : Leaves m s P fun e s' => E (f e) s') : Leaves (ExceptT.adapt f m) s P E := by
  have hexec : exec (ExceptT.adapt f m) s = ((m.exec s).1.mapError f, (m.exec s).2) := rfl
  unfold Leaves at h ⊢
  rw [hexec]
  cases hm : m.exec s with
  | mk r s' =>
    rw [hm] at h
    cases r with
    | ok a => exact h
    | error e => exact h

/-- An answer computed beforehand decides how the computation ends. -/
theorem ofExcept {r : Except ε α} (hok : ∀ a, r = .ok a → P a s) (herror : ∀ e, r = .error e → E e s) :
    Leaves (MonadExcept.ofExcept r) s P E := by
  cases r with
  | ok a => exact hok a rfl
  | error e => exact herror e rfl

end Leaves

end Handler

/-- A sequence of two partial computations succeeds as its second part does. -/
theorem bind_eq_ok_iff {ε α β : Type} {x : Except ε α} {f : α → Except ε β} {b : β} :
    x >>= f = .ok b ↔ ∃ a, x = .ok a ∧ f a = .ok b := by
  cases x <;> simp [bind, Except.bind]

theorem mapError_eq_ok_iff {ε ε' α : Type} {x : Except ε α} {f : ε → ε'} {a : α} :
    x.mapError f = .ok a ↔ x = .ok a := by
  cases x <;> simp [Except.mapError]

theorem mapError_eq_error_iff {ε ε' α : Type} {x : Except ε α} {f : ε → ε'} {e : ε'} :
    x.mapError f = .error e ↔ ∃ e₀, x = .error e₀ ∧ f e₀ = e := by
  cases x <;> simp [Except.mapError]

theorem map_eq_ok_iff {ε α β : Type} {x : Except ε α} {f : α → β} {b : β} :
    x.map f = .ok b ↔ ∃ a, x = .ok a ∧ f a = b := by
  cases x <;> simp [Except.map]

/-- A loop that stops at its first failure succeeds exactly with each answer in its place. -/
theorem mapM_eq_ok_iff {ε α β : Type} {f : α → Except ε β} {xs : List α} {ys : List β} :
    xs.mapM f = .ok ys ↔ List.Forall₂ (fun x y => f x = .ok y) xs ys := by
  induction xs generalizing ys with
  | nil => cases ys <;> simp [pure, Except.pure]
  | cons x rest ih =>
    rw [List.mapM_cons]
    cases hx : f x with
    | error e => cases ys <;> simp [bind, Except.bind, hx]
    | ok y =>
      cases hrest : rest.mapM f with
      | error e => cases ys <;> simp [bind, Except.bind, hx, ← ih, hrest]
      | ok others => cases ys <;> simp [bind, Except.bind, pure, Except.pure, hx, ← ih, hrest]

/-- A loop whose every step succeeds. -/
theorem mapM_eq_ok_map {ε α β : Type} {f : α → Except ε β} {g : α → β} {xs : List α}
    (h : ∀ x ∈ xs, f x = .ok (g x)) : xs.mapM f = .ok (xs.map g) := by
  rw [mapM_eq_ok_iff, List.forall₂_map_right_iff, List.forall₂_same]
  exact h

end MichiServer.Logic
