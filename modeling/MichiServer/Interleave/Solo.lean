import MichiServer.Interleave.History
import MichiServer.Interleave.Outline

/-!
# How a program that can fail ends, alone

`Ends Q x envs w`: the program, which has the world for itself and meets these environments one after
the other, ends with an outcome and in a world that `Q` holds of. Unlike an outline it speaks of the
failures as well, and of what a given step meets. The rules follow the program, action by action.

Where it does not matter which step meets what, a program that is alone has an outline: nothing comes
in between (`Discipline.alone`), and what is drawn is allowed.
-/

set_option autoImplicit false

namespace MichiServer.Interleave

variable {Act : Type} {Resp : Act → Type} {Env Tick World α β ε : Type}
  {sem : Semantics Act Resp Env Tick World} {i : TaskId}

/-- A program that goes on runs its beginning, and the rest with the environments that are left. -/
theorem Prog.solo_bind (p : Prog Resp α) (f : α → Prog Resp β) (envs : ℕ → Env) (w : World) :
    ∃ done, (p >>= f).solo sem i envs w =
      (f (p.solo sem i envs w).1).solo sem i (fun n => envs (n + done)) (p.solo sem i envs w).2 := by
  induction p generalizing envs w with
  | ret a => exact ⟨0, rfl⟩
  | act a k ih =>
    obtain ⟨done, hdone⟩ := ih (sem.exec i a (envs 0) w).1 (fun n => envs (n + 1))
      (sem.exec i a (envs 0) w).2
    exact ⟨done + 1, hdone⟩

variable (sem i) in
/-- The program ends with an outcome and in a world that `Q` holds of. -/
structure Ends (Q : Except ε α → World → Prop) (x : TryProg Resp ε α) (envs : ℕ → Env) (w : World) :
    Prop where
  ends : Q (x.run.solo sem i envs w).1 (x.run.solo sem i envs w).2

namespace Ends

variable {Q : Except ε β → World → Prop} {envs : ℕ → Env} {w : World}

theorem pure {b : β} (h : Q (.ok b) w) : Ends sem i Q (Pure.pure b) envs w := ⟨h⟩

theorem mono {Q' : Except ε β → World → Prop} {x : TryProg Resp ε β} (h : Ends sem i Q x envs w)
    (hQ : ∀ r w', Q r w' → Q' r w') : Ends sem i Q' x envs w := ⟨hQ _ _ h.ends⟩

variable {f : α → TryProg Resp ε β}

/-- An action that cannot fail comes first. -/
theorem perform {a : Act} {c : Resp a → α}
    (h : Ends sem i Q (f (c (sem.exec i a (envs 0) w).1)) (fun n => envs (n + 1))
      (sem.exec i a (envs 0) w).2) :
    Ends sem i Q (TryProg.lift (.act a fun r => .ret (c r)) >>= f) envs w := ⟨h.ends⟩

/-- A result that is known already comes first. -/
theorem ofExcept {r : Except ε α} (hfailed : ∀ e, r = .error e → Q (.error e) w)
    (hrest : ∀ a, r = .ok a → Ends sem i Q (f a) envs w) :
    Ends sem i Q (MonadExcept.ofExcept r >>= f) envs w := by
  cases r with
  | ok a => exact ⟨(hrest a rfl).ends⟩
  | error e => exact ⟨hfailed e rfl⟩

/-- A failure ends the program; where its beginning succeeds, the rest meets the environments after
those of the actions that are done. -/
theorem bind {x : TryProg Resp ε α} (hfailed : ∀ e, (x.run.solo sem i envs w).1 = .error e →
      Q (.error e) (x.run.solo sem i envs w).2)
    (hrest : ∀ a done, (x.run.solo sem i envs w).1 = .ok a →
      Ends sem i Q (f a) (fun n => envs (n + done)) (x.run.solo sem i envs w).2) :
    Ends sem i Q (x >>= f) envs w := by
  constructor
  obtain ⟨done, hdone⟩ := @Prog.solo_bind _ _ _ _ _ _ _ sem i x.run (ExceptT.bindCont f) envs w
  have hrun : (x >>= f).run.solo sem i envs w = _ := hdone
  rw [hrun]
  cases hx : (x.run.solo sem i envs w).1 with
  | ok a => exact (hrest a _ hx).ends
  | error e => exact hfailed e hx

/-- A beginning that is known to succeed, with its result and its world. -/
theorem bind_ok {x : TryProg Resp ε α} {a : α} {w₁ : World}
    (hx : Ends sem i (fun r w' => r = .ok a ∧ w' = w₁) x envs w)
    (hrest : ∀ done, Ends sem i Q (f a) (fun n => envs (n + done)) w₁) :
    Ends sem i Q (x >>= f) envs w := by
  obtain ⟨hok, hworld⟩ := hx.ends
  refine .bind (fun e he => nomatch he.symm.trans hok) fun b done hb => ?_
  cases hb.symm.trans hok
  exact hworld ▸ hrest done

end Ends

section Outlines

variable {Ok : Act → Env → Prop}

variable (World) in
/-- Nothing comes in between, and what is drawn is allowed. -/
def Discipline.alone (Ok : Act → Env → Prop) : Discipline Act Env World where
  Inv _ := True
  Pre _ _ _ := True
  Ok _ a env _ := Ok a env
  Rely _ _ w w' := w = w'
  rely_refl _ _ _ := rfl
  rely_trans _ _ _ _ _ h h' := h.trans h'

theorem Outline.alone {a : Act} {Q : Resp a → World → Prop} {w : World}
    (h : ∀ env, Ok a env → Q (sem.exec i a env w).1 (sem.exec i a env w).2) :
    Outline (Discipline.alone World Ok) sem i Q (Prog.perform a) w := by
  refine Outline.perform fun w' hrely _ => ⟨trivial, fun env hok => ?_⟩
  cases hrely
  exact h env hok

/-- What every action keeps, the program keeps. -/
theorem Outline.of_only {A : Act → Prop} {P : World → Prop} {p : Prog Resp α}
    (hp : Only A p) (hkeep : ∀ a env w, A a → P w → P (sem.exec i a env w).2) {w : World} (hw : P w) :
    Outline (Discipline.alone World Ok) sem i (fun _ => P) p w := by
  induction p generalizing w with
  | ret a => exact hw
  | act a k ih =>
    refine fun w' hrely _ => ⟨trivial, fun env _ => ?_⟩
    cases hrely
    exact ih _ (hp.2 _) (hkeep a env w hp.1 hw)

/-- Nothing is asked of a program of which nothing is to be said. -/
theorem Outline.any (p : Prog Resp α) (w : World) :
    Outline (Discipline.alone World Ok) sem i (fun _ _ => True) p w := by
  induction p generalizing w with
  | ret a => trivial
  | act a k ih => exact fun w' _ _ => ⟨trivial, fun env _ => ih _ _⟩

/-- A program that meets only what is allowed ends as its outline says. -/
theorem Outline.solo_alone {Post : α → World → Prop} {p : Prog Resp α} {w : World} {envs : ℕ → Env}
    (h : Outline (Discipline.alone World Ok) sem i Post p w)
    (henvs : p.Undisturbed sem i (fun a env _ => Ok a env) envs w) :
    Post (p.solo sem i envs w).1 (p.solo sem i envs w).2 :=
  (h.solo trivial (fun _ _ _ _ _ _ => trivial) henvs).1

theorem undisturbed_of_forall {Ok : Act → Env → World → Prop} (h : ∀ a env w, Ok a env w)
    (p : Prog Resp α) (envs : ℕ → Env) (w : World) : p.Undisturbed sem i Ok envs w := by
  induction p generalizing envs w with
  | ret a => trivial
  | act a k ih => exact ⟨h _ _ _, ih _ _ _⟩

namespace Yields

variable {w : World}

theorem of_only {A : Act → Prop} {P : World → Prop} {x : TryProg Resp ε α} (hx : Only A x.run)
    (hkeep : ∀ a env w, A a → P w → P (sem.exec i a env w).2) (hw : P w) :
    Yields (Discipline.alone World Ok) sem i (fun _ => P) x w :=
  ⟨(Outline.of_only hx hkeep hw).mono fun _ _ h _ _ => h⟩

theorem any (x : TryProg Resp ε α) :
    Yields (Discipline.alone World Ok) sem i (fun _ _ => True) x w :=
  ⟨(Outline.any x.run w).mono fun _ _ _ _ _ => trivial⟩

/-- A program that ends in an error has no result. -/
theorem throw_after (x : TryProg Resp ε α) (e : ε) {Q : β → World → Prop} :
    Yields (Discipline.alone World Ok) sem i Q (x >>= fun _ => MonadExcept.throw e) w :=
  (any x).bind fun _ _ _ => Yields.throw e

end Yields

end Outlines

end MichiServer.Interleave
