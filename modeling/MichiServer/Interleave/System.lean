import Mathlib.Data.List.Basic

/-!
# Programs of atomic actions

A task that works on shared state is a tree: it is finished with a result, or its next action is
known and the rest of it depends on the action's answer. An action is one step that nothing can come
in between of (a database statement, a read or a write of a file, a critical section), so a tree says
exactly where other tasks may interfere.

`Act` is the type of actions and `Resp a` the type of the answers to `a`. What an action does to the
shared state is not part of the tree: that is the `exec` of a system.
-/

set_option autoImplicit false

namespace MichiServer.Interleave

section

variable {Act : Type}

/-- A program of actions in `Act` with a result in `α`. -/
inductive Prog (Resp : Act → Type) (α : Type) where
  | ret (a : α)
  | act (a : Act) (k : Resp a → Prog Resp α)

variable {Resp : Act → Type} {α β : Type}

namespace Prog

/-- The program that goes on with `f` of the result. -/
def bind : Prog Resp α → (α → Prog Resp β) → Prog Resp β
  | .ret a, f => f a
  | .act a k, f => .act a fun r => (k r).bind f

instance : Monad (Prog Resp) where
  pure := ret
  bind := bind

/-- One action, whose answer is the result. -/
def perform (a : Act) : Prog Resp (Resp a) := .act a .ret

/-- The action a program is about to do; a finished one has none. -/
def next : Prog Resp α → Option Act
  | .ret _ => none
  | .act a _ => some a

end Prog

/-- A program that ends with a result or with an error. -/
abbrev TryProg (Resp : Act → Type) (ε α : Type) := ExceptT ε (Prog Resp) α

namespace TryProg

variable {ε : Type}

/-- A program that cannot fail, as one that could. -/
def lift (p : Prog Resp α) : TryProg Resp ε α := ExceptT.mk (p >>= fun a => .ret (.ok a))

/-- An optional answer: none is the error. -/
def orElse (error : ε) (p : Prog Resp (Option α)) : TryProg Resp ε α :=
  ExceptT.mk (p >>= fun
    | some a => .ret (.ok a)
    | none => .ret (.error error))

/-- The outcome of a program as a result: the error is handed on, not raised. -/
def attempt (p : TryProg Resp ε α) : TryProg Resp ε (Except ε α) := lift p.run

end TryProg

end

/-!
## Tasks over a shared world

A system is a list of tasks and the world they share. In one move some task does its next action, or
a task is dropped where it stands, or something in the background changes the world. What a move
draws from outside (a clock, a storage error) is an argument of the move, so a run is a list of
moves and its outcome a function of them; a statement about all lists is a statement about every
interleaving and every environment.

`solo` runs one program by itself.
-/

/-- A task is named by its place in the list of tasks. -/
abbrev TaskId := ℕ

/-- What the actions of tasks do to a world, and what happens in the background. -/
structure Semantics (Act : Type) (Resp : Act → Type) (Env Tick World : Type) where
  exec : TaskId → (a : Act) → Env → World → Resp a × World
  tick : Tick → World → World

/-- The tasks, each running or gone, and their world. -/
structure System {Act : Type} (Resp : Act → Type) (α World : Type) where
  tasks : List (Option (Prog Resp α))
  world : World

/-- One move of a system. -/
inductive Move (Env Tick : Type) where
  | act (i : TaskId) (env : Env)
  | drop (i : TaskId)
  | tick (t : Tick)

variable {Act : Type} {Resp : Act → Type} {Env Tick World α : Type}

namespace System

variable (sem : Semantics Act Resp Env Tick World)

/-- The program a task still has to do. -/
def task (s : System Resp α World) (i : TaskId) : Option (Prog Resp α) := s.tasks[i]?.join

/-- The action a task is about to do. -/
def next (s : System Resp α World) (i : TaskId) : Option Act := (s.task i).bind Prog.next

/-- One move. A move of a task that is finished, gone or unknown changes nothing. -/
def step (s : System Resp α World) : Move Env Tick → System Resp α World
  | .act i env =>
    match s.task i with
    | some (.act a k) =>
      let r := sem.exec i a env s.world
      { tasks := s.tasks.set i (some (k r.1)), world := r.2 }
    | _ => s
  | .drop i => { s with tasks := s.tasks.set i none }
  | .tick t => { s with world := sem.tick t s.world }

/-- A list of moves, one after the other. -/
def run (s : System Resp α World) (moves : List (Move Env Tick)) : System Resp α World :=
  moves.foldl (step sem) s

/-- Every move of the run is allowed in the state it is made in. -/
def Obeys (Allowed : System Resp α World → Move Env Tick → Prop) (s : System Resp α World) :
    List (Move Env Tick) → Prop
  | [] => True
  | m :: moves => Allowed s m ∧ (s.step sem m).Obeys Allowed moves

instance (Allowed : System Resp α World → Move Env Tick → Prop)
    [∀ s m, Decidable (Allowed s m)] :
    (s : System Resp α World) → (moves : List (Move Env Tick)) →
      Decidable (s.Obeys sem Allowed moves)
  | _, [] => inferInstanceAs (Decidable True)
  | s, m :: moves =>
    have : Decidable ((s.step sem m).Obeys sem Allowed moves) := instDecidableObeys _ _ moves
    inferInstanceAs (Decidable (Allowed s m ∧ (s.step sem m).Obeys sem Allowed moves))

variable {sem}

variable {s : System Resp α World} {i : TaskId}

theorem Obeys.mono {Allowed Allowed' : System Resp α World → Move Env Tick → Prop}
    {moves : List (Move Env Tick)} (h : s.Obeys sem Allowed moves)
    (hmono : ∀ s m, Allowed s m → Allowed' s m) : s.Obeys sem Allowed' moves := by
  induction moves generalizing s with
  | nil => trivial
  | cons m moves ih => exact ⟨hmono s m h.1, ih h.2⟩

/-- A run whose moves owe nothing. -/
theorem obeys_of_forall {Allowed : System Resp α World → Move Env Tick → Prop}
    (h : ∀ s m, Allowed s m) (s : System Resp α World) (moves : List (Move Env Tick)) :
    s.Obeys sem Allowed moves := by
  induction moves generalizing s with
  | nil => trivial
  | cons m moves ih => exact ⟨h s m, ih _⟩

/-- Only a task of the system has a next action. -/
theorem lt_of_next {a : Act} (h : s.next i = some a) :
    i < s.tasks.length := by
  grind [next, task]

/-- A task with no next action does not move. -/
theorem step_act_of_none (h : s.next i = none) (env : Env) :
    s.step sem (.act i env) = s := by
  cases hi : s.task i with
  | none => simp only [step, hi]
  | some p =>
    cases p with
    | ret _ => simp only [step, hi]
    | act a k =>
      rw [next, hi] at h
      cases h

theorem world_step_act {a : Act} (h : s.next i = some a)
    (env : Env) : (s.step sem (.act i env)).world = (sem.exec i a env s.world).2 := by
  obtain ⟨p, hp, hpa⟩ := Option.bind_eq_some_iff.mp h
  cases p with
  | ret _ => cases hpa
  | act a k =>
    cases hpa
    simp only [step, hp]

theorem task_set_self (s : System Resp α World) (w : World) {p : Prog Resp α}
    (h : s.task i = some p) (q : Option (Prog Resp α)) :
    System.task ⟨s.tasks.set i q, w⟩ i = q := by
  grind [task]

theorem task_set_ne (s : System Resp α World) (w : World) {i j : TaskId} (h : i ≠ j)
    (q : Option (Prog Resp α)) : System.task ⟨s.tasks.set i q, w⟩ j = s.task j := by
  rw [task, List.getElem?_set_ne h]
  rfl

theorem task_drop (s : System Resp α World) {i j : TaskId} {p : Prog Resp α}
    (h : System.task ⟨s.tasks.set i none, s.world⟩ j = some p) : s.task j = some p := by
  grind [task, task_set_self, task_set_ne]

end System

/-- The same actions, each after some ticks. -/
def Semantics.withTicks (sem : Semantics Act Resp Env Tick World) :
    Semantics Act Resp (List Tick × Env) Tick World where
  exec i a env w := sem.exec i a env.2 (env.1.foldl (fun w t => sem.tick t w) w)
  tick := sem.tick

section Solo

variable (sem : Semantics Act Resp Env Tick World) (i : TaskId)

/-- A program that has the world for itself, with the environment of each of its actions. -/
def Prog.solo : Prog Resp α → (ℕ → Env) → World → α × World
  | .ret a, _, w => (a, w)
  | .act a k, envs, w =>
    let r := sem.exec i a (envs 0) w
    (k r.1).solo (fun n => envs (n + 1)) r.2

/-- Each environment is allowed in the world the action finds. -/
def Prog.Undisturbed (Ok : Act → Env → World → Prop) :
    Prog Resp α → (ℕ → Env) → World → Prop
  | .ret _, _, _ => True
  | .act a k, envs, w =>
    let r := sem.exec i a (envs 0) w
    Ok a (envs 0) w ∧ (k r.1).Undisturbed Ok (fun n => envs (n + 1)) r.2

instance (Ok : Act → Env → World → Prop) [∀ a env w, Decidable (Ok a env w)] :
    (p : Prog Resp α) → (envs : ℕ → Env) → (w : World) →
      Decidable (p.Undisturbed sem i Ok envs w)
  | .ret _, _, _ => inferInstanceAs (Decidable True)
  | .act a k, envs, w =>
    have : Decidable ((k (sem.exec i a (envs 0) w).1).Undisturbed sem i Ok
        (fun n => envs (n + 1)) (sem.exec i a (envs 0) w).2) :=
      instDecidableUndisturbed Ok _ _ _
    inferInstanceAs (Decidable (Ok a (envs 0) w ∧ (k (sem.exec i a (envs 0) w).1).Undisturbed sem i
      Ok (fun n => envs (n + 1)) (sem.exec i a (envs 0) w).2))

end Solo

end MichiServer.Interleave
