import Mathlib.Data.List.Basic
import MichiServer.Logic.Trace

/-!
# A pool of tasks that come and go

Where `System` runs a fixed list of programs, a pool runs tasks that arrive, spawn others and end. A
task is whatever data says where it stands; a step of it gives the tasks it becomes (none when it
ends, itself and another when it spawns one) and the world it leaves. Calls arrive from outside at
any time, a task can be dropped where it stands, and the background can change the world.

An invariant of a pool has three parts: of the world, of each task with the world, and of each two
tasks with each other. `Preserved` is what one step owes, and `Preserved.obeys` is the induction over
a run.
-/

set_option autoImplicit false

namespace MichiServer.Interleave

/-- The tasks of a pool: how a call enters it, how a task goes on, what the background does. -/
structure Machine (Call Task Env Tick World : Type) where
  enter : Call → Task
  step : Task → Env → World → List Task × World
  tick : Tick → World → World

/-- The tasks that are there, and their world. -/
structure Pool (Task World : Type) where
  tasks : List Task
  world : World

inductive PoolMove (Call Env Tick : Type) where
  | arrive (c : Call)
  | act (i : ℕ) (env : Env)
  | drop (i : ℕ)
  | tick (t : Tick)

variable {Call Task Env Tick World : Type}

namespace Pool

variable (m : Machine Call Task Env Tick World)

/-- One move. A move of a task that is not there changes nothing. -/
def step (p : Pool Task World) : PoolMove Call Env Tick → Pool Task World
  | .arrive c => { p with tasks := p.tasks ++ [m.enter c] }
  | .act i env =>
    match p.tasks[i]? with
    | some t =>
      let r := m.step t env p.world
      { tasks := p.tasks.take i ++ r.1 ++ p.tasks.drop (i + 1), world := r.2 }
    | none => p
  | .drop i => { p with tasks := p.tasks.eraseIdx i }
  | .tick t => { p with world := m.tick t p.world }

/-- Every move of a run from the pool has the property, in the pool it is made in. -/
abbrev Obeys (Property : Pool Task World → PoolMove Call Env Tick → Prop) (p : Pool Task World)
    (moves : List (PoolMove Call Env Tick)) : Prop :=
  Logic.Trace.Obeys (step m) Property p moves

/-- The pool a run ends in. -/
abbrev run (p : Pool Task World) (moves : List (PoolMove Call Env Tick)) : Pool Task World :=
  Logic.Trace.run (step m) p moves

variable {m}

variable {p : Pool Task World} {i : ℕ} {env : Env}

/-- The list of tasks, around one of them. -/
theorem tasks_eq {t : Task} (h : p.tasks[i]? = some t) :
    p.tasks = p.tasks.take i ++ t :: p.tasks.drop (i + 1) := by
  obtain ⟨hlt, rfl⟩ := List.getElem?_eq_some_iff.mp h
  rw [← List.drop_eq_getElem_cons hlt, List.take_append_drop]

theorem step_world {t : Task} (h : p.tasks[i]? = some t) :
    (p.step m (.act i env)).world = (m.step t env p.world).2 := by
  simp only [step, h]

/-- A task that becomes one other keeps its place. -/
theorem getElem?_step {t t' : Task}
    (h : p.tasks[i]? = some t) (ht' : (m.step t env p.world).1 = [t']) :
    (p.step m (.act i env)).tasks[i]? = some t' := by
  have hi : i < p.tasks.length := (List.getElem?_eq_some_iff.mp h).1
  have hlength : (p.tasks.take i).length = i := by
    rw [List.length_take, Nat.min_eq_left (Nat.le_of_lt hi)]
  simp only [step, h, ht', List.append_assoc]
  rw [List.getElem?_append_right (Nat.le_of_eq hlength), hlength, Nat.sub_self]
  rfl

/-- What a task becomes is in the pool. -/
theorem mem_step_of_next {t t' : Task}
    (h : p.tasks[i]? = some t) (ht' : t' ∈ (m.step t env p.world).1) :
    t' ∈ (p.step m (.act i env)).tasks := by
  grind [step]

/-- The tasks that do not take the step stay. -/
theorem mem_step_of_mem {t u : Task} (h : p.tasks[i]? = some t) (hu : u ∈ p.tasks) :
    u = t ∨ u ∈ (p.step m (.act i env)).tasks := by
  rw [tasks_eq h] at hu
  grind [step]

/-- The tasks that are not dropped stay. -/
theorem mem_drop (i : ℕ) {u : Task} (hu : u ∈ p.tasks) :
    p.tasks[i]? = some u ∨ u ∈ (p.step m (.drop i : PoolMove Call Env Tick)).tasks := by
  cases h : p.tasks[i]? with
  | none =>
    simp only [step, List.eraseIdx_of_length_le (List.getElem?_eq_none_iff.mp h)]
    exact .inr hu
  | some t =>
    rw [tasks_eq h] at hu
    grind [step]

variable (m) in
/-- The task, with no other beside it, becomes the other task in some number of steps. -/
def Alone (env : Env) (t : Task) (w : World) (t' : Task) (w' : World) : Prop :=
  ∃ n, run m ⟨[t], w⟩ (List.replicate n (.act 0 env)) = ⟨[t'], w'⟩

theorem Alone.refl {t : Task} {w : World} : Alone m env t w t w := ⟨0, rfl⟩

theorem Alone.step {t t₁ t' : Task} {w w₁ w' : World} (h : m.step t env w = ([t₁], w₁))
    (h' : Alone m env t₁ w₁ t' w') : Alone m env t w t' w' := by
  obtain ⟨n, hn⟩ := h'
  have hstep : Pool.step m ⟨[t], w⟩ (.act 0 env) = ⟨[t₁], w₁⟩ := by simp [Pool.step, h]
  refine ⟨n + 1, ?_⟩
  rw [List.replicate_succ, run, Logic.Trace.run, List.foldl_cons, hstep]
  exact hn

end Pool

/-- An invariant of a pool: of the world, of each task, and of each two of them. -/
structure Invariant (Task World : Type) where
  Inv : World → Prop
  Good : Task → World → Prop
  Apart : Task → Task → Prop
  apart_symm : ∀ t u, Apart t u → Apart u t

namespace Invariant

variable (I : Invariant Task World)

/-- The invariant holds of the pool. -/
def Holds (p : Pool Task World) : Prop :=
  I.Inv p.world ∧ (∀ t ∈ p.tasks, I.Good t p.world) ∧ p.tasks.Pairwise I.Apart

/-- What each kind of move owes the invariant, in runs whose moves are all allowed. -/
structure Preserved (m : Machine Call Task Env Tick World)
    (Allowed : Pool Task World → PoolMove Call Env Tick → Prop) : Prop where
  enter : ∀ c w, I.Inv w → I.Good (m.enter c) w ∧ ∀ u, I.Apart (m.enter c) u
  self : ∀ p i env t, p.tasks[i]? = some t → Allowed p (.act i env) → I.Inv p.world →
    I.Good t p.world → I.Inv (m.step t env p.world).2 ∧
      (∀ t' ∈ (m.step t env p.world).1, I.Good t' (m.step t env p.world).2) ∧
      (m.step t env p.world).1.Pairwise I.Apart
  other : ∀ p i env t u, p.tasks[i]? = some t → u ∈ p.tasks → Allowed p (.act i env) →
    I.Inv p.world → I.Good t p.world → I.Good u p.world → I.Apart t u →
      I.Good u (m.step t env p.world).2 ∧ ∀ t' ∈ (m.step t env p.world).1, I.Apart t' u
  tick : ∀ t w, I.Inv w → I.Inv (m.tick t w) ∧ ∀ u, I.Good u w → I.Good u (m.tick t w)

variable {I} {m : Machine Call Task Env Tick World}
  {Allowed : Pool Task World → PoolMove Call Env Tick → Prop}

variable {p : Pool Task World}

/-- An allowed act of a task keeps the invariant. -/
theorem Preserved.act (h : I.Preserved m Allowed) {i : ℕ} {env : Env}
    (hp : I.Holds p) (hallowed : Allowed p (.act i env)) : I.Holds (p.step m (.act i env)) := by
  obtain ⟨hinv, hgood, hapart⟩ := hp
  cases ht : p.tasks[i]? with
  | none =>
    have hstay : p.step m (.act i env) = p := by simp only [Pool.step, ht]
    rw [hstay]
    exact ⟨hinv, hgood, hapart⟩
  | some t =>
    have htasks := Pool.tasks_eq ht
    have hmem : t ∈ p.tasks := List.mem_of_getElem? ht
    obtain ⟨hinv', hgood', hapart'⟩ := h.self p i env t ht hallowed hinv (hgood t hmem)
    rw [htasks, List.pairwise_append, List.pairwise_cons] at hapart
    obtain ⟨hleft, ⟨hrightT, hright⟩, hacross⟩ := hapart
    have hside : ∀ u ∈ p.tasks.take i ++ p.tasks.drop (i + 1), u ∈ p.tasks ∧ I.Apart t u := by
      intro u hu
      rcases List.mem_append.mp hu with hl | hr
      · exact ⟨List.mem_of_mem_take hl, I.apart_symm _ _ (hacross u hl t (List.mem_cons_self ..))⟩
      · exact ⟨List.mem_of_mem_drop hr, hrightT u hr⟩
    have hother := fun u hu => h.other p i env t u ht (hside u hu).1 hallowed hinv (hgood t hmem)
      (hgood u (hside u hu).1) (hside u hu).2
    simp only [Pool.step, ht, Holds]
    refine ⟨hinv', fun u hu => ?_, ?_⟩
    · grind
    · rw [List.pairwise_append, List.pairwise_append]
      refine ⟨⟨hleft, hapart', fun u hl t' hnew => ?_⟩, hright, fun u hu v hr => ?_⟩
      · exact I.apart_symm _ _ ((hother u (List.mem_append_left _ hl)).2 t' hnew)
      · grind

/-- Each allowed move keeps the invariant. -/
theorem Preserved.step (h : I.Preserved m Allowed)
    {move : PoolMove Call Env Tick} (hp : I.Holds p) (hallowed : Allowed p move) :
    I.Holds (p.step m move) := by
  cases move with
  | arrive c =>
    obtain ⟨hinv, hgood, hapart⟩ := hp
    obtain ⟨hnew, hnew'⟩ := h.enter c p.world hinv
    refine ⟨hinv, fun t ht => ?_, ?_⟩
    · rcases List.mem_append.mp ht with hold | henter
      · exact hgood t hold
      · rw [List.mem_singleton.mp henter]
        exact hnew
    · refine List.pairwise_append.mpr ⟨hapart, List.pairwise_singleton _ _, fun u _ t ht => ?_⟩
      rw [List.mem_singleton.mp ht]
      exact I.apart_symm _ _ (hnew' u)
  | act i env => exact h.act hp hallowed
  | drop i =>
    obtain ⟨hinv, hgood, hapart⟩ := hp
    have hsub : (p.tasks.eraseIdx i).Sublist p.tasks := List.eraseIdx_sublist ..
    exact ⟨hinv, fun t ht => hgood t (hsub.subset ht), hapart.sublist hsub⟩
  | tick t =>
    obtain ⟨hinv, hgood, hapart⟩ := hp
    obtain ⟨hinv', hgood'⟩ := h.tick t p.world hinv
    exact ⟨hinv', fun u hu => hgood' u (hgood u hu), hapart⟩

/-- **Every run.** The invariant holds all along a run of allowed moves, so every move of it has what
the invariant gives an allowed move. -/
theorem Preserved.obeys (h : I.Preserved m Allowed)
    {Property : Pool Task World → PoolMove Call Env Tick → Prop}
    (hproperty : ∀ p move, I.Holds p → Allowed p move → Property p move)
    {moves : List (PoolMove Call Env Tick)} (hp : I.Holds p)
    (hmoves : p.Obeys m Allowed moves) : p.Obeys m Property moves :=
  Logic.Trace.obeys_of_invariant (fun _ _ hp hallowed => h.step hp hallowed) hproperty hp hmoves

end Invariant

end MichiServer.Interleave
