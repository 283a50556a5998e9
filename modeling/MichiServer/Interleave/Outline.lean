import MichiServer.Interleave.System

/-!
# Proof outlines under interference

A discipline says what a task may count on. `Inv` is an invariant of the world, `Pre i a` is what
task `i` has established when it does `a`, `Ok` is what a run promises about the environment of an
action, and `Rely i a` bounds what everything else can do to the world while `a` is the next action of
task `i`. It may be finer for some actions than for others: a task that is about to record what it
wrote counts on nobody overwriting it just then.

`Outline` reads a program under a discipline: at each action, whatever the others did before it, the
action's precondition holds, and the rest of the program is outlined from the world the action
leaves. It is defined along the program, and proved along it with the rules below. `Sound` is what
the actions themselves owe: to keep the invariant, and to stay within what the others rely on. A run
from outlined tasks then never leaves the invariant, and no action of it is done without its
precondition.

A program that has the world for itself is the case where nothing interferes; it ends as its outline
says.
-/

set_option autoImplicit false

namespace MichiServer.Interleave

/-- What a task may count on at each of its actions. -/
structure Discipline (Act Env World : Type) where
  Inv : World → Prop
  Pre : TaskId → Act → World → Prop
  Ok : TaskId → Act → Env → World → Prop
  Rely : TaskId → Act → World → World → Prop
  rely_refl : ∀ i a w, Rely i a w w
  rely_trans : ∀ i a w w' w'', Rely i a w w' → Rely i a w' w'' → Rely i a w w''

variable {Act : Type} {Resp : Act → Type} {Env Tick World α β ε : Type}

section Rules

variable (D : Discipline Act Env World) (sem : Semantics Act Resp Env Tick World) (i : TaskId)

/-- Every action of the program, done at any later time, has its precondition; the program ends in
`Post`. -/
def Outline (Post : α → World → Prop) : Prog Resp α → World → Prop
  | .ret a, w => Post a w
  | .act a k, w => ∀ w', D.Rely i a w w' → D.Inv w' →
      D.Pre i a w' ∧ ∀ env, D.Ok i a env w' →
        Outline Post (k (sem.exec i a env w').1) (sem.exec i a env w').2

variable {D sem i}

namespace Outline

variable {Post Q : α → World → Prop} {R : β → World → Prop} {w : World}

variable {p : Prog Resp α}

theorem mono (h : Outline D sem i Q p w) (hQ : ∀ a w', Q a w' → Post a w') :
    Outline D sem i Post p w := by
  induction p generalizing w with
  | ret a => exact hQ a w h
  | act a k ih =>
    intro w' hrely hinv
    obtain ⟨hpre, hrest⟩ := h w' hrely hinv
    exact ⟨hpre, fun env hok => ih _ (hrest env hok)⟩

/-- A sequence is outlined when its first part is, with the outline of the second as its end. -/
theorem bind {f : α → Prog Resp β}
    (h : Outline D sem i (fun a w' => Outline D sem i R (f a) w') p w) :
    Outline D sem i R (p >>= f) w := by
  induction p generalizing w with
  | ret a => exact h
  | act a k ih =>
    intro w' hrely hinv
    obtain ⟨hpre, hrest⟩ := h w' hrely hinv
    exact ⟨hpre, fun env hok => ih _ (hrest env hok)⟩

/-- What holds before an action the task has yet to do is not disturbed by what the task relies on. -/
theorem of_rely {a : Act} {k : Resp a → Prog Resp α} {w' : World}
    (h : Outline D sem i Post (.act a k) w) (hrely : D.Rely i a w w') :
    Outline D sem i Post (.act a k) w' := fun w'' hrely' hinv =>
  h w'' (D.rely_trans i a w w' w'' hrely hrely') hinv

/-- The precondition of the next action holds now. -/
theorem pre {a : Act} {k : Resp a → Prog Resp α} (h : Outline D sem i Post (.act a k) w)
    (hinv : D.Inv w) : D.Pre i a w :=
  (h w (D.rely_refl i a w) hinv).1

theorem perform {a : Act} {Q : Resp a → World → Prop}
    (h : ∀ w', D.Rely i a w w' → D.Inv w' →
      D.Pre i a w' ∧ ∀ env, D.Ok i a env w' → Q (sem.exec i a env w').1 (sem.exec i a env w').2) :
    Outline D sem i Q (Prog.perform a) w := h

variable {E : Except ε α → World → Prop} {F : Except ε β → World → Prop}

/-- A sequence of programs that can fail: an error of the first is the error of the whole. -/
theorem try_bind {x : TryProg Resp ε α} {f : α → TryProg Resp ε β}
    (hx : Outline D sem i E x.run w)
    (hok : ∀ a w', E (.ok a) w' → Outline D sem i F (f a).run w')
    (herror : ∀ e w', E (.error e) w' → F (.error e) w') :
    Outline D sem i F (x >>= f).run w := by
  refine bind (hx.mono fun r w' hr => ?_)
  cases r with
  | ok a => exact hok a w' hr
  | error e => exact herror e w' hr

theorem lift (h : Outline D sem i (fun a => E (.ok a)) p w) :
    Outline D sem i E (TryProg.lift p).run w :=
  bind (h.mono fun _ _ ha => ha)

theorem orElse {error : ε} {p : Prog Resp (Option α)}
    (h : Outline D sem i (fun r w' => match r with
      | some a => E (.ok a) w'
      | none => E (.error error) w') p w) :
    Outline D sem i E (TryProg.orElse error p).run w := by
  refine bind (h.mono fun r w' hr => ?_)
  cases r with
  | some a => exact hr
  | none => exact hr

theorem attempt {x : TryProg Resp ε α} {G : Except ε (Except ε α) → World → Prop}
    (h : Outline D sem i (fun r => G (.ok r)) x.run w) :
    Outline D sem i G (TryProg.attempt x).run w :=
  lift h

end Outline

/-! ### Results alone -/

variable (D sem i) in
/-- The program is outlined, and a result of it comes with `Q`; of errors nothing is said. -/
structure Yields (Q : α → World → Prop) (x : TryProg Resp ε α) (w : World) : Prop where
  outline : Outline D sem i (fun r w' => ∀ a, r = .ok a → Q a w') x.run w

namespace Yields

variable {Q Q' : α → World → Prop} {R : β → World → Prop} {w : World}

theorem pure {a : α} (h : Q a w) : Yields D sem i Q (pure a : TryProg Resp ε α) w := by
  constructor
  intro b hb
  cases hb
  exact h

theorem throw (e : ε) : Yields D sem i Q (throw e : TryProg Resp ε α) w := by
  constructor
  intro b hb
  cases hb

theorem mono {x : TryProg Resp ε α} (h : Yields D sem i Q x w) (hQ : ∀ a w', Q a w' → Q' a w') :
    Yields D sem i Q' x w :=
  ⟨h.outline.mono fun _ w' hr a ha => hQ a w' (hr a ha)⟩

theorem bind {x : TryProg Resp ε α} {f : α → TryProg Resp ε β} (hx : Yields D sem i Q x w)
    (hf : ∀ a w', Q a w' → Yields D sem i R (f a) w') : Yields D sem i R (x >>= f) w :=
  ⟨Outline.try_bind hx.outline (fun a w' ha => (hf a w' (ha a rfl)).outline)
    fun _ _ _ _ hb => nomatch hb⟩

theorem ite {c : Prop} [Decidable c] {x y : TryProg Resp ε α} (hx : c → Yields D sem i Q x w)
    (hy : ¬ c → Yields D sem i Q y w) : Yields D sem i Q (if c then x else y) w := by
  grind

/-- A program that cannot fail. -/
theorem lift {p : Prog Resp α} (h : Outline D sem i Q p w) :
    Yields D sem i Q (TryProg.lift p : TryProg Resp ε α) w :=
  ⟨Outline.lift (h.mono fun a w' ha b hb => by cases hb; exact ha)⟩

/-- An answer that was computed before. -/
theorem ofExcept {r : Except ε α} (h : ∀ a, r = .ok a → Q a w) :
    Yields D sem i Q (MonadExcept.ofExcept r : TryProg Resp ε α) w := by
  cases r with
  | ok a => exact .pure (h a rfl)
  | error e => exact .throw e

end Yields

end Rules

/-! ## Soundness -/

section Soundness

variable (D : Discipline Act Env World) (sem : Semantics Act Resp Env Tick World)

/-- The invariant holds and every task is outlined from here. -/
def WellOutlined (s : System Resp α World) : Prop :=
  D.Inv s.world ∧ ∀ i p, s.task i = some p → Outline D sem i (fun _ _ => True) p s.world

/-- What the actions owe, in runs whose moves are all allowed. -/
structure Sound (Allowed : System Resp α World → Move Env Tick → Prop) : Prop where
  ok : ∀ s i a env, s.next i = some a → Allowed s (.act i env) → D.Ok i a env s.world
  inv : ∀ i a env w, D.Inv w → D.Pre i a w → D.Ok i a env w → D.Inv (sem.exec i a env w).2
  rely : ∀ s i j a b env, i ≠ j → s.next i = some a → s.next j = some b → D.Inv s.world →
    D.Pre i a s.world → D.Pre j b s.world → Allowed s (.act j env) →
    D.Rely i a s.world (sem.exec j b env s.world).2
  tick_inv : ∀ s t, D.Inv s.world → Allowed s (.tick t) → D.Inv (sem.tick t s.world)
  tick_rely : ∀ s t i a, s.next i = some a → D.Inv s.world → D.Pre i a s.world →
    Allowed s (.tick t) → D.Rely i a s.world (sem.tick t s.world)

variable {D sem} {Allowed : System Resp α World → Move Env Tick → Prop}

variable {s : System Resp α World}

/-- The precondition of a task's next action holds. -/
theorem WellOutlined.pre (h : WellOutlined D sem s) {i : TaskId} {a : Act}
    (hnext : s.next i = some a) : D.Pre i a s.world := by
  obtain ⟨p, hp, hpa⟩ := Option.bind_eq_some_iff.mp hnext
  cases p with
  | ret _ => cases hpa
  | act a k =>
    cases hpa
    exact (h.2 i _ hp).pre h.1

/-- One allowed move keeps the invariant and every outline. -/
theorem Sound.step (hsound : Sound D sem Allowed) {m : Move Env Tick}
    (h : WellOutlined D sem s) (hm : Allowed s m) : WellOutlined D sem (s.step sem m) := by
  obtain ⟨hinv, hout⟩ := h
  -- a program that is not moved is outlined in the new world by what its next action relies on
  have hkeep : ∀ (i : TaskId) (p : Prog Resp α) (w' : World), s.task i = some p →
      (∀ a, s.next i = some a → D.Rely i a s.world w') →
      Outline D sem i (fun _ _ => True) p w' := by
    intro i p w' hp hrely
    cases p with
    | ret _ => trivial
    | act a k =>
      have hnext : s.next i = some a := by rw [System.next, hp]; rfl
      exact (hout i _ hp).of_rely (hrely a hnext)
  cases m with
  | act j env =>
    cases hj : s.task j with
    | none =>
      have hstay : s.step sem (.act j env) = s := by simp only [System.step, hj]
      rw [hstay]
      exact ⟨hinv, hout⟩
    | some q =>
      cases q with
      | ret _ =>
        have hstay : s.step sem (.act j env) = s := by simp only [System.step, hj]
        rw [hstay]
        exact ⟨hinv, hout⟩
      | act b k =>
        have hnext : s.next j = some b := by rw [System.next, hj]; rfl
        have hok := hsound.ok s j b env hnext hm
        have hpre := (hout j _ hj).pre hinv
        simp only [System.step, hj]
        refine ⟨hsound.inv j b env s.world hinv hpre hok, fun i p hp => ?_⟩
        by_cases hij : j = i
        · subst hij
          rw [System.task_set_self s _ hj] at hp
          cases hp
          exact (hout j _ hj s.world (D.rely_refl j b s.world) hinv).2 env hok
        · rw [System.task_set_ne s _ hij] at hp
          refine hkeep i p _ hp fun a ha => ?_
          have hprei := WellOutlined.pre ⟨hinv, hout⟩ ha
          exact hsound.rely s i j a b env (Ne.symm hij) ha hnext hinv hprei hpre hm
  | drop j => exact ⟨hinv, fun i p hp => hout i p (System.task_drop s hp)⟩
  | tick t =>
    refine ⟨hsound.tick_inv s t hinv hm, fun i p hp => ?_⟩
    refine hkeep i p _ hp fun a ha => ?_
    exact hsound.tick_rely s t i a ha hinv (WellOutlined.pre ⟨hinv, hout⟩ ha) hm

/-- **Every run.** A run of allowed moves keeps the invariant and every outline. -/
theorem Sound.run (hsound : Sound D sem Allowed) {moves : List (Move Env Tick)}
    (h : WellOutlined D sem s) (hmoves : s.Obeys sem Allowed moves) :
    WellOutlined D sem (s.run sem moves) := by
  induction moves generalizing s with
  | nil => exact h
  | cons m moves ih => exact ih (hsound.step h hmoves.1) hmoves.2

/-- Every move of such a run has what a well-outlined state gives an allowed move. -/
theorem Sound.obeys (hsound : Sound D sem Allowed)
    {Property : System Resp α World → Move Env Tick → Prop}
    (hproperty : ∀ s m, WellOutlined D sem s → Allowed s m → Property s m)
    {moves : List (Move Env Tick)} (h : WellOutlined D sem s)
    (hmoves : s.Obeys sem Allowed moves) : s.Obeys sem Property moves := by
  induction moves generalizing s with
  | nil => trivial
  | cons m moves ih => exact ⟨hproperty s m h hmoves.1, ih (hsound.step h hmoves.1) hmoves.2⟩

end Soundness

/-! ## A program alone -/

section Alone

variable {D : Discipline Act Env World} {sem : Semantics Act Resp Env Tick World} {i : TaskId}

/-- **A program alone.** An outlined program that has the world for itself ends as its outline
says. -/
theorem Outline.solo {Post : α → World → Prop} {p : Prog Resp α} {w : World} {envs : ℕ → Env}
    (h : Outline D sem i Post p w) (hinv : D.Inv w)
    (hexec : ∀ a env w, D.Inv w → D.Pre i a w → D.Ok i a env w → D.Inv (sem.exec i a env w).2)
    (henvs : p.Undisturbed sem i (D.Ok i) envs w) :
    Post (p.solo sem i envs w).1 (p.solo sem i envs w).2 ∧ D.Inv (p.solo sem i envs w).2 := by
  induction p generalizing w envs with
  | ret a => exact ⟨h, hinv⟩
  | act a k ih =>
    obtain ⟨hpre, hrest⟩ := h w (D.rely_refl i a w) hinv
    obtain ⟨hok, henvs'⟩ := henvs
    exact ih _ (hrest _ hok) (hexec a _ _ hinv hpre hok) henvs'

variable (Env World) in
/-- Nothing comes in between, and nothing is asked of the environment. -/
def Discipline.quiet : Discipline Act Env World where
  Inv _ := True
  Pre _ _ _ := True
  Ok _ _ _ _ := True
  Rely _ _ w w' := w = w'
  rely_refl _ _ _ := rfl
  rely_trans _ _ _ _ _ h h' := h.trans h'

theorem undisturbed_quiet (p : Prog Resp α) (envs : ℕ → Env) (w : World) :
    p.Undisturbed sem i ((Discipline.quiet Env World).Ok i) envs w := by
  induction p generalizing envs w with
  | ret a => trivial
  | act a k ih => exact ⟨trivial, ih _ _ _⟩

/-- An action, with nothing before it. -/
theorem Outline.quiet {a : Act} {Q : Resp a → World → Prop} {w : World}
    (h : ∀ env, Q (sem.exec i a env w).1 (sem.exec i a env w).2) :
    Outline (Discipline.quiet Env World) sem i Q (Prog.perform a) w := by
  refine Outline.perform fun w' hrely _ => ⟨trivial, fun env _ => ?_⟩
  cases hrely
  exact h env

/-- A program that nothing comes in between ends as its outline says. -/
theorem Outline.solo_quiet {Post : α → World → Prop} {p : Prog Resp α} {w : World} {envs : ℕ → Env}
    (h : Outline (Discipline.quiet Env World) sem i Post p w) :
    Post (p.solo sem i envs w).1 (p.solo sem i envs w).2 :=
  (h.solo trivial (fun _ _ _ _ _ _ => trivial) (undisturbed_quiet p envs w)).1

end Alone

/-! ## A program cut off -/

section Cut

variable (sem : Semantics Act Resp Env Tick World) (i : TaskId)

/-- The first actions of a program that has the world for itself: what is left of it, and the world. -/
def Prog.cut : Prog Resp α → ℕ → (ℕ → Env) → World → Prog Resp α × World
  | p, 0, _, w => (p, w)
  | .ret a, _ + 1, _, w => (.ret a, w)
  | .act a k, n + 1, envs, w =>
    let r := sem.exec i a (envs 0) w
    (k r.1).cut n (fun m => envs (m + 1)) r.2

/-- Each environment is allowed in the world the action finds, and so is it to be cut off. -/
def Prog.Spared (Ok : Act → Env → World → Prop) (Halt : World → Prop) :
    Prog Resp α → ℕ → (ℕ → Env) → World → Prop
  | .ret _, _, _, _ => True
  | .act _ _, 0, _, w => Halt w
  | .act a k, n + 1, envs, w =>
    let r := sem.exec i a (envs 0) w
    Ok a (envs 0) w ∧ (k r.1).Spared Ok Halt n (fun m => envs (m + 1)) r.2

instance (Ok : Act → Env → World → Prop) (Halt : World → Prop) [∀ a env w, Decidable (Ok a env w)]
    [∀ w, Decidable (Halt w)] :
    (p : Prog Resp α) → (n : ℕ) → (envs : ℕ → Env) → (w : World) →
      Decidable (p.Spared sem i Ok Halt n envs w)
  | .ret _, _, _, _ => inferInstanceAs (Decidable True)
  | .act _ _, 0, _, w => inferInstanceAs (Decidable (Halt w))
  | .act a k, n + 1, envs, w =>
    have : Decidable ((k (sem.exec i a (envs 0) w).1).Spared sem i Ok Halt n
        (fun m => envs (m + 1)) (sem.exec i a (envs 0) w).2) :=
      instDecidableSpared Ok Halt _ n _ _
    inferInstanceAs (Decidable (Ok a (envs 0) w ∧ (k (sem.exec i a (envs 0) w).1).Spared sem i Ok Halt
      n (fun m => envs (m + 1)) (sem.exec i a (envs 0) w).2))

variable {D : Discipline Act Env World} {sem i}

/-- **A program cut off.** It ends as its outline says, or stands before an action whose precondition
holds, where it may be cut off. -/
theorem Outline.cut {Post : α → World → Prop} {Halt : World → Prop} {p : Prog Resp α} {w : World}
    {n : ℕ} {envs : ℕ → Env} (h : Outline D sem i Post p w) (hinv : D.Inv w)
    (hexec : ∀ a env w, D.Inv w → D.Pre i a w → D.Ok i a env w → D.Inv (sem.exec i a env w).2)
    (hspared : p.Spared sem i (D.Ok i) Halt n envs w) :
    match p.cut sem i n envs w with
    | (.ret a, w') => Post a w'
    | (.act a _, w') => D.Pre i a w' ∧ Halt w' := by
  induction p generalizing n w envs with
  | ret a => cases n <;> exact h
  | act a k ih =>
    obtain ⟨hpre, hrest⟩ := h w (D.rely_refl i a w) hinv
    cases n with
    | zero => exact ⟨hpre, hspared⟩
    | succ n =>
      obtain ⟨hok, hspared'⟩ := hspared
      exact ih _ (hrest _ hok) (hexec a _ _ hinv hpre hok) hspared'

end Cut

end MichiServer.Interleave
