import MichiServer.Interleave.System

/-!
# What a program has done

A program's own history: the actions it has done, each with its answer, the last one first. What a
program does next depends on nothing else, so a property of histories says what the program does
whatever the answers are, that is, in every world and between whatever other tasks.

`Chronicle` reads a program with the history before it: each action meets its precondition on the
history, and the end its postcondition. A task of a system has a history too, and it keeps to the
chronicle of its program (`System.chronicle_run`).
-/

set_option autoImplicit false

namespace MichiServer.Interleave

variable {Act : Type} {Resp : Act → Type} {Env Tick World α β ε : Type}

/-- An action that was done, and its answer. -/
abbrev Done (Resp : Act → Type) := (a : Act) × Resp a

section Rules

variable (Pre : Act → List (Done Resp) → Prop)

/-- Whatever the answers, every action of the program has its precondition on what was done before, and
the program ends in `Post`. -/
def Chronicle (Post : α → List (Done Resp) → Prop) : Prog Resp α → List (Done Resp) → Prop
  | .ret a, past => Post a past
  | .act a k, past => Pre a past ∧ ∀ r, Chronicle Post (k r) (⟨a, r⟩ :: past)

variable {Pre}

namespace Chronicle

variable {Post Q : α → List (Done Resp) → Prop} {R : β → List (Done Resp) → Prop}
  {past : List (Done Resp)}

variable {p : Prog Resp α}

theorem mono (h : Chronicle Pre Q p past)
    (hQ : ∀ a past', Q a past' → Post a past') : Chronicle Pre Post p past := by
  induction p generalizing past with
  | ret a => exact hQ a past h
  | act a k ih => exact ⟨h.1, fun r => ih r (h.2 r)⟩

theorem bind {f : α → Prog Resp β}
    (h : Chronicle Pre (fun a past' => Chronicle Pre R (f a) past') p past) :
    Chronicle Pre R (p >>= f) past := by
  induction p generalizing past with
  | ret a => exact h
  | act a k ih => exact ⟨h.1, fun r => ih r (h.2 r)⟩

/-- Of a program of which nothing is asked, nothing is said. -/
theorem any (p : Prog Resp α) (past : List (Done Resp)) :
    Chronicle (fun _ _ => True) (fun _ _ => True) p past := by
  induction p generalizing past with
  | ret a => trivial
  | act a k ih => exact ⟨trivial, fun r => ih r _⟩

theorem perform {a : Act} {Q : Resp a → List (Done Resp) → Prop} (hpre : Pre a past)
    (h : ∀ r, Q r (⟨a, r⟩ :: past)) : Chronicle Pre Q (Prog.perform a) past :=
  ⟨hpre, h⟩

variable {E : Except ε α → List (Done Resp) → Prop} {F : Except ε β → List (Done Resp) → Prop}

/-- A sequence of programs that can fail: an error of the first is the error of the whole. -/
theorem try_bind {x : TryProg Resp ε α} {f : α → TryProg Resp ε β}
    (hx : Chronicle Pre E x.run past) (hok : ∀ a past', E (.ok a) past' →
      Chronicle Pre F (f a).run past') (herror : ∀ e past', E (.error e) past' → F (.error e) past') :
    Chronicle Pre F (x >>= f).run past := by
  refine bind (hx.mono fun r past' hr => ?_)
  cases r with
  | ok a => exact hok a past' hr
  | error e => exact herror e past' hr

theorem lift (h : Chronicle Pre (fun a => E (.ok a)) p past) :
    Chronicle Pre E (TryProg.lift p).run past :=
  bind (h.mono fun _ _ ha => ha)

theorem orElse {error : ε} {p : Prog Resp (Option α)}
    (h : Chronicle Pre (fun r past' => match r with
      | some a => E (.ok a) past'
      | none => E (.error error) past') p past) :
    Chronicle Pre E (TryProg.orElse error p).run past := by
  refine bind (h.mono fun r past' hr => ?_)
  cases r with
  | some a => exact hr
  | none => exact hr

theorem attempt {x : TryProg Resp ε α} {G : Except ε (Except ε α) → List (Done Resp) → Prop}
    (h : Chronicle Pre (fun r => G (.ok r)) x.run past) :
    Chronicle Pre G (TryProg.attempt x).run past :=
  lift h

theorem ite {c : Prop} [Decidable c] {x y : TryProg Resp ε α} (hx : c → Chronicle Pre E x.run past)
    (hy : ¬ c → Chronicle Pre E y.run past) :
    Chronicle Pre E (ExceptT.run (if c then x else y)) past := by
  grind

end Chronicle

/-! ### Programs that do only some actions -/

/-- The program does only actions of this kind. -/
def Only (A : Act → Prop) : Prog Resp α → Prop
  | .ret _ => True
  | .act a k => A a ∧ ∀ r, Only A (k r)

/-- What was done since `past` was of this kind. -/
def Since (A : Act → Prop) (past past' : List (Done Resp)) : Prop :=
  ∃ later, past' = later ++ past ∧ ∀ x ∈ later, A x.1

namespace Since

variable {A : Act → Prop} {past past' : List (Done Resp)}

theorem refl (past : List (Done Resp)) : Since A past past := ⟨[], rfl, nofun⟩

theorem cons (h : Since A past past') {a : Act} (ha : A a) (r : Resp a) :
    Since A past (⟨a, r⟩ :: past') := by
  obtain ⟨later, rfl, hlater⟩ := h
  exact ⟨⟨a, r⟩ :: later, rfl, List.forall_mem_cons.mpr ⟨ha, hlater⟩⟩

/-- A property of histories that actions of the kind keep. -/
theorem keeps {P : List (Done Resp) → Prop} (h : Since A past past')
    (hkeeps : ∀ a r past, A a → P past → P (⟨a, r⟩ :: past)) (hpast : P past) : P past' := by
  obtain ⟨later, rfl, hlater⟩ := h
  induction later with
  | nil => exact hpast
  | cons x later ih =>
    grind

end Since

/-- The last action, if there was one, was of this kind. -/
def Last (A : Act → Prop) (past : List (Done Resp)) : Prop := ∀ x ∈ past.head?, A x.1

theorem Last.cons {A : Act → Prop} {a : Act} (ha : A a) (r : Resp a) (past : List (Done Resp)) :
    Last A (⟨a, r⟩ :: past) := by
  rintro _ ⟨⟩
  exact ha

namespace Only

variable {A : Act → Prop}

variable {p : Prog Resp α}

theorem bind {f : α → Prog Resp β} (hp : Only A p) (hf : ∀ a, Only A (f a)) :
    Only A (p >>= f) := by
  induction p with
  | ret a => exact hf a
  | act a k ih => exact ⟨hp.1, fun r => ih r (hp.2 r)⟩

theorem perform {a : Act} (h : A a) : Only A (Prog.perform a : Prog Resp (Resp a)) := ⟨h, fun _ => trivial⟩

theorem pure (a : α) : Only A (ExceptT.run (Pure.pure a : TryProg Resp ε α)) := trivial

theorem throw (e : ε) : Only A (ExceptT.run (MonadExcept.throw e : TryProg Resp ε α)) := trivial

theorem try_bind {x : TryProg Resp ε α} {f : α → TryProg Resp ε β} (hx : Only A x.run)
    (hf : ∀ a, Only A (f a).run) : Only A (x >>= f).run := by
  refine bind hx fun r => ?_
  cases r with
  | ok a => exact hf a
  | error e => trivial

theorem lift (h : Only A p) : Only A (TryProg.lift p : TryProg Resp ε α).run :=
  bind h fun _ => trivial

theorem orElse {error : ε} {p : Prog Resp (Option α)} (h : Only A p) :
    Only A (TryProg.orElse error p).run := by
  refine bind h fun r => ?_
  cases r <;> trivial

theorem attempt {x : TryProg Resp ε α} (h : Only A x.run) : Only A (TryProg.attempt x).run :=
  lift h

theorem ite {c : Prop} [Decidable c] {x y : TryProg Resp ε α} (hx : Only A x.run)
    (hy : Only A y.run) : Only A (ExceptT.run (if c then x else y)) := by
  split
  · exact hx
  · exact hy

/-- Such a program adds such actions to the history. -/
theorem chronicle {Pre : Act → List (Done Resp) → Prop} (h : Only A p)
    (hpre : ∀ a past, A a → Pre a past) (past : List (Done Resp)) :
    Chronicle Pre (fun _ past' => Since A past past') p past := by
  suffices hall : ∀ past₁, Since A past past₁ → Chronicle Pre (fun _ past' => Since A past past') p past₁ by
    exact hall past (.refl past)
  induction p with
  | ret a => exact fun _ hsince => hsince
  | act a k ih =>
    exact fun past₁ hsince => ⟨hpre a past₁ h.1, fun r => ih r (h.2 r) _ (hsince.cons h.1 r)⟩

end Only

end Rules

/-! ## The history of a task -/

namespace System

variable (sem : Semantics Act Resp Env Tick World)

/-- What a move adds to the history of a task. -/
def noted (s : System Resp α World) (i : TaskId) : Move Env Tick → List (Done Resp)
  | .act j env =>
    match s.task j with
    | some (.act a _) => if j = i then [⟨a, (sem.exec j a env s.world).1⟩] else []
    | _ => []
  | _ => []

/-- The history of a task after a run, from what it was before. -/
def history (i : TaskId) (s : System Resp α World) : List (Move Env Tick) → List (Done Resp) →
    List (Done Resp)
  | [], past => past
  | m :: moves, past => (s.step sem m).history i moves (s.noted sem i m ++ past)

variable {sem} {Pre : Act → List (Done Resp) → Prop} {Post : α → List (Done Resp) → Prop}

/-- The task has done all of its program. -/
def Returned (s : System Resp α World) (i : TaskId) : Prop :=
  (s.task i).any fun p => p.next.isNone

instance (s : System Resp α World) (i : TaskId) : Decidable (s.Returned i) :=
  inferInstanceAs (Decidable (_ = true))

variable {s : System Resp α World} {i : TaskId}

theorem Returned.exists_ret (h : s.Returned i) :
    ∃ a, s.task i = some (.ret a) := by
  obtain ⟨p, hp, hnext⟩ := (Option.any_eq_true _ _).mp h
  cases p with
  | ret a => exact ⟨a, hp⟩
  | act a k => cases hnext

variable (sem) in
/-- A move does the next action of one task, which its history notes, or it notes nothing. -/
theorem step_cases (s : System Resp α World) (m : Move Env Tick) :
    (∃ i a k env, s.task i = some (.act a k) ∧
      (s.step sem m).world = (sem.exec i a env s.world).2 ∧
      ∀ j, s.noted sem j m = if i = j then [⟨a, (sem.exec i a env s.world).1⟩] else []) ∨
    (∀ j, s.noted sem j m = []) ∧
      ((s.step sem m).world = s.world ∨ ∃ t, (s.step sem m).world = sem.tick t s.world) := by
  cases m with
  | act i env =>
    grind [step, noted]
  | drop i => exact .inr ⟨fun _ => rfl, .inl rfl⟩
  | tick t => exact .inr ⟨fun _ => rfl, .inr ⟨t, rfl⟩⟩

/-- The tasks keep to the chronicles of their programs, whatever happened before. -/
theorem chronicle_step {past : List (Done Resp)}
    (h : ∀ p, s.task i = some p → Chronicle Pre Post p past) (m : Move Env Tick) :
    ∀ p, (s.step sem m).task i = some p → Chronicle Pre Post p (s.noted sem i m ++ past) := by
  intro p hp
  cases m with
  | act j env =>
    cases hj : s.task j with
    | none =>
      simp only [step, noted, hj] at hp ⊢
      exact h p hp
    | some q =>
      cases q with
      | ret _ =>
        simp only [step, noted, hj] at hp ⊢
        exact h p hp
      | act a k =>
        simp only [step, noted, hj] at hp ⊢
        by_cases hij : j = i
        · subst hij
          rw [task_set_self s _ hj] at hp
          cases hp
          rw [if_pos rfl]
          exact (h _ hj).2 _
        · grind [task_set_ne]
  | drop j => exact h p (task_drop s hp)
  | tick t => exact h p hp

/-- What every move keeps of a system and the histories of its tasks holds after a run. -/
theorem history_kept {I : System Resp α World → (TaskId → List (Done Resp)) → Prop}
    (hstep : ∀ s H m, I s H → I (s.step sem m) fun i => s.noted sem i m ++ H i)
    {H : TaskId → List (Done Resp)} (h : I s H)
    (moves : List (Move Env Tick)) :
    I (s.run sem moves) fun i => s.history sem i moves (H i) := by
  induction moves generalizing s H with
  | nil => exact h
  | cons m moves ih => exact ih (hstep s H m h)

theorem history_append (s : System Resp α World) (i : TaskId) (moves more : List (Move Env Tick))
    (past : List (Done Resp)) :
    s.history sem i (moves ++ more) past =
      (s.run sem moves).history sem i more (s.history sem i moves past) := by
  induction moves generalizing s past with
  | nil => rfl
  | cons m moves ih => exact ih (s.step sem m) _

/-- A task that has returned, or is gone since, does nothing more. -/
theorem history_of_done (h : ∀ a k, s.task i ≠ some (.act a k)) (moves : List (Move Env Tick))
    (past : List (Done Resp)) : s.history sem i moves past = past := by
  induction moves generalizing s with
  | nil => rfl
  | cons m moves ih =>
    have hnoted : s.noted sem i m = [] := by
      cases m with
      | act j env =>
        grind [noted, next]
      | drop j => rfl
      | tick t => rfl
    have hstep : ∀ a k, (s.step sem m).task i ≠ some (.act a k) := by
      intro a k hi
      cases m with
      | act j env =>
        grind [step, task_set_ne, next]
      | drop j => exact h a k (task_drop s hi)
      | tick t => exact h a k hi
    show (s.step sem m).history sem i moves (s.noted sem i m ++ past) = past
    rw [hnoted]
    exact ih hstep

theorem Returned.history (h : s.Returned i)
    (moves : List (Move Env Tick)) (past : List (Done Resp)) :
    s.history sem i moves past = past := by
  obtain ⟨r, hr⟩ := h.exists_ret
  grind [history_of_done]

end System

end MichiServer.Interleave
