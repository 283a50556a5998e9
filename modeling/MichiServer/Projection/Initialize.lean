import Mathlib
import MichiServer.Interleave.Pool
import MichiServer.Projection.Restarts

/-!
# The clock within a process

`new` starts with a clock of 0 and spawns `initialize_db_state`, which reads the clock, waits for the
database twice, and stores. The calls of the clock are compare-exchange loops that run meanwhile. A
step of a task is one access of the shared atomic, or one answer of the database.
-/

namespace MichiServer.Projection

open Interleave

/-- The atomics of the coordinator, the two rows, and the values that `next_lamport` returned, the
newest first. -/
structure LamportState where
  localLamport : ℕ := 0
  serverEpoch : ℕ
  syncServerLamport : Option ℕ := none
  syncServerEpoch : Option ℕ := none
  returned : List ℕ := []

inductive LoopStage where
  | load
  | compareExchange (current : ℕ)

/-- Where `initialize_db_state` is; `next_lamp` is `initial_lamport` of the row it read and the clock
it loaded. -/
inductive InitStage where
  | getEpoch
  | setEpoch (nextEp : ℕ)
  | storeEpoch (nextEp : ℕ)
  | loadLamport
  | getLamport (currentLamp : ℕ)
  | setLamport (row : Option ℕ) (currentLamp : ℕ)
  | storeLamport (row : Option ℕ) (currentLamp : ℕ)

inductive LamportTask where
  | next (stage : LoopStage)
  | observe (remote : ℕ) (stage : LoopStage)
  | initializeDbState (stage : InitStage)
  | returned (value : ℕ)
  | initialized

inductive LamportCall where
  | nextLamport
  | observeLamport (remote : ℕ)

/-- What a step meets: the time, whether the database answers, and whether a weak compare-exchange
fails without cause. -/
structure LamportEnv where
  nowSecs : ℕ := 0
  database : Bool := true
  spurious : Bool := false

/-- The clock that `initialize_db_state` stores, of the clock it loaded and the row it read. -/
def initialLamport (row : Option ℕ) (currentLamp : ℕ) : ℕ :=
  match row with
  | some lastLamp => saturatingAdd (max lastLamp currentLamp) lamportBlock
  | none => saturatingAdd currentLamp lamportBlock

def initialEpoch (row : Option ℕ) (nowSecs : ℕ) : ℕ :=
  match row with
  | some lastEp => max (saturatingAdd lastEp 1) nowSecs
  | none => nowSecs

def nextStep (env : LamportEnv) (w : LamportState) : LoopStage → List LamportTask × LamportState
  | .load => ([.next (.compareExchange w.localLamport)], w)
  | .compareExchange current =>
    if w.localLamport = current ∧ env.spurious = false then
      ([.returned (nextLamport current)],
        { w with
          localLamport := nextLamport current
          returned := nextLamport current :: w.returned })
    else ([.next (.compareExchange w.localLamport)], w)

def observeStep (remote : ℕ) (env : LamportEnv) (w : LamportState) :
    LoopStage → List LamportTask × LamportState
  | .load =>
    if nearOverflow remote then ([.returned w.localLamport], w)
    else ([.observe remote (.compareExchange w.localLamport)], w)
  | .compareExchange current =>
    if w.localLamport = current ∧ env.spurious = false then
      ([.returned (advanceLamport current remote)],
        { w with localLamport := advanceLamport current remote })
    else ([.observe remote (.compareExchange w.localLamport)], w)

/-- A step of `initialize_db_state`. A failed read of the lamport row is taken as no row, and a failed
write is ignored. -/
def initializeStep (env : LamportEnv) (w : LamportState) :
    InitStage → List LamportTask × LamportState
  | .getEpoch =>
    if env.database then
      ([.initializeDbState (.setEpoch (initialEpoch w.syncServerEpoch env.nowSecs))], w)
    else ([.initializeDbState .loadLamport], w)
  | .setEpoch nextEp =>
    ([.initializeDbState (.storeEpoch nextEp)],
      if env.database then { w with syncServerEpoch := some nextEp } else w)
  | .storeEpoch nextEp => ([.initializeDbState .loadLamport], { w with serverEpoch := nextEp })
  | .loadLamport => ([.initializeDbState (.getLamport w.localLamport)], w)
  | .getLamport currentLamp =>
    ([.initializeDbState (.setLamport (if env.database then w.syncServerLamport else none)
      currentLamp)], w)
  | .setLamport row currentLamp =>
    ([.initializeDbState (.storeLamport row currentLamp)],
      if env.database then
        { w with syncServerLamport := some (initialLamport row currentLamp) }
      else w)
  | .storeLamport row currentLamp =>
    ([.initialized], { w with localLamport := initialLamport row currentLamp })

def coordinator : Machine LamportCall LamportTask LamportEnv Empty LamportState where
  enter
    | .nextLamport => .next .load
    | .observeLamport remote => .observe remote .load
  step
    | .next stage, env, w => nextStep env w stage
    | .observe remote stage, env, w => observeStep remote env w stage
    | .initializeDbState stage, env, w => initializeStep env w stage
    | .returned value, _, w => ([.returned value], w)
    | .initialized, _, w => ([.initialized], w)
  tick t := nomatch t

abbrev LamportPool := Pool LamportTask LamportState

abbrev LamportMove := PoolMove LamportCall LamportEnv Empty

/-- `PlaybackProjectionCoordinator::new`, on whatever the database holds. -/
def LamportPool.new (nowSecs : ℕ) (syncServerLamport syncServerEpoch : Option ℕ) :
    LamportPool where
  tasks := [.initializeDbState .getEpoch]
  world :=
    { serverEpoch := nowSecs
      syncServerLamport := syncServerLamport
      syncServerEpoch := syncServerEpoch }

/-! ## Forward -/

def Below (p : LamportPool) (move : LamportMove) : Prop :=
  (p.step coordinator move).world.localLamport < u64Max

/-- If the task is to store the initial clock, the clock is at most 10 000 above the row that was read
and the clock that was loaded. -/
def LamportTask.WithinBlock (w : LamportState) : LamportTask → Prop
  | .initializeDbState (.storeLamport row currentLamp) =>
    w.localLamport ≤ max (row.getD 0) currentLamp + lamportBlock
  | _ => True

/-- A move that keeps the clock below its largest value, and stores within the block. -/
def Calm (p : LamportPool) (move : LamportMove) : Prop :=
  Below p move ∧
    match move with
    | .act i _ => ∀ t ∈ p.tasks[i]?, t.WithinBlock p.world
    | _ => True

/-- The move does not take the clock back, and no value has been returned twice after it. -/
def Forward (p : LamportPool) (move : LamportMove) : Prop :=
  p.world.localLamport ≤ (p.step coordinator move).world.localLamport ∧
    (p.step coordinator move).world.returned.Nodup

instance (w : LamportState) (t : LamportTask) : Decidable (t.WithinBlock w) := by
  unfold LamportTask.WithinBlock
  split <;> infer_instance

instance (p : LamportPool) (move : LamportMove) : Decidable (Below p move) :=
  inferInstanceAs (Decidable (_ < _))

instance (p : LamportPool) (move : LamportMove) : Decidable (Calm p move) := by
  cases move <;> unfold Calm <;> infer_instance

instance (p : LamportPool) (move : LamportMove) : Decidable (Forward p move) :=
  inferInstanceAs (Decidable (_ ∧ _))

/-- The clock is at least every value that was returned, and these are distinct. -/
def LamportState.Fresh (w : LamportState) : Prop :=
  (∀ v ∈ w.returned, v ≤ w.localLamport) ∧ w.returned.Nodup

/-- A step of a task stores the next clock and returns it, or leaves both. -/
theorem step_lamport (t : LamportTask) (env : LamportEnv) (w : LamportState) :
    ((coordinator.step t env w).2.localLamport = w.localLamport ∧
        (coordinator.step t env w).2.returned = w.returned) ∨
      ((coordinator.step t env w).2.localLamport = nextLamport w.localLamport ∧
        (coordinator.step t env w).2.returned = nextLamport w.localLamport :: w.returned) ∨
      (∃ remote, (coordinator.step t env w).2.localLamport = advanceLamport w.localLamport remote ∧
        (coordinator.step t env w).2.returned = w.returned) ∨
      ∃ row currentLamp, t = .initializeDbState (.storeLamport row currentLamp) ∧
        (coordinator.step t env w).2.localLamport = initialLamport row currentLamp ∧
        (coordinator.step t env w).2.returned = w.returned := by
  cases t with
  | next stage =>
    cases stage with
    | load => exact .inl ⟨rfl, rfl⟩
    | compareExchange current =>
      by_cases hswap : w.localLamport = current ∧ env.spurious = false
      · right; left
        obtain ⟨rfl, hstrong⟩ := hswap
        simp [coordinator, nextStep, hstrong]
      · left
        simp [coordinator, nextStep, hswap]
  | observe remote stage =>
    cases stage with
    | load =>
      left
      simp only [coordinator, observeStep]
      split <;> exact ⟨rfl, rfl⟩
    | compareExchange current =>
      by_cases hswap : w.localLamport = current ∧ env.spurious = false
      · right; right; left
        obtain ⟨rfl, hstrong⟩ := hswap
        exact ⟨remote, by simp [coordinator, observeStep, hstrong]⟩
      · left
        simp [coordinator, observeStep, hswap]
  | initializeDbState stage =>
    cases stage with
    | storeLamport row currentLamp =>
      exact .inr (.inr (.inr ⟨row, currentLamp, rfl, rfl, rfl⟩))
    | getEpoch =>
      left
      simp only [coordinator, initializeStep]
      split <;> exact ⟨rfl, rfl⟩
    | setEpoch nextEp | setLamport row currentLamp =>
      left
      simp only [coordinator, initializeStep]
      split <;> exact ⟨rfl, rfl⟩
    | storeEpoch nextEp | loadLamport | getLamport currentLamp => exact .inl ⟨rfl, rfl⟩
  | returned value | initialized => exact .inl ⟨rfl, rfl⟩

/-- A store within its block takes the clock forward. -/
theorem step_forward {t : LamportTask} {env : LamportEnv} {w : LamportState} (h : w.Fresh)
    (hmax : (coordinator.step t env w).2.localLamport < u64Max)
    (hstore : t.WithinBlock w) :
    w.localLamport ≤ (coordinator.step t env w).2.localLamport ∧
      (coordinator.step t env w).2.Fresh := by
  obtain ⟨hle, hnodup⟩ := h
  have hgrow : ∀ {clock}, w.localLamport ≤ clock → ∀ v ∈ w.returned, v ≤ clock :=
    fun hclock v hv => Nat.le_trans (hle v hv) hclock
  unfold LamportState.Fresh
  rcases step_lamport t env w with ⟨hlocal, hreturned⟩ | ⟨hlocal, hreturned⟩ |
    ⟨remote, hlocal, hreturned⟩ | ⟨row, currentLamp, rfl, hlocal, hreturned⟩
  · rw [hlocal, hreturned]
    exact ⟨Nat.le_refl _, hle, hnodup⟩
  · grind [nextLamport, saturatingAdd]
  · grind [advanceLamport, saturatingAdd]
  · have hforward : w.localLamport ≤ initialLamport row currentLamp := by
      have hblock : w.localLamport ≤ max (row.getD 0) currentLamp + lamportBlock := hstore
      rw [hlocal] at hmax
      cases row with
      | none | some lastLamp =>
        simp only [initialLamport, saturatingAdd, Option.getD_none, Option.getD_some] at *
        omega
    rw [hlocal, hreturned]
    exact ⟨hforward, hgrow hforward, hnodup⟩

theorem Calm.forward {p : LamportPool} {move : LamportMove} (hp : p.world.Fresh)
    (h : Calm p move) :
    p.world.localLamport ≤ (p.step coordinator move).world.localLamport ∧
      (p.step coordinator move).world.Fresh := by
  cases move with
  | act i env =>
    obtain ⟨hmax, hstore⟩ := h
    grind [Below, Pool.step, step_forward]
  | arrive c | drop i => exact ⟨Nat.le_refl _, hp⟩
  | tick t => cases t

/-- **The clock goes forward.** In every run of the calls of a process beside the initialization in
which each move is calm, no move takes the clock back, and `next_lamport` returns no value twice. -/
theorem clock_goes_forward (nowSecs : ℕ) (syncServerLamport syncServerEpoch : Option ℕ)
    (moves : List LamportMove)
    (h : (LamportPool.new nowSecs syncServerLamport syncServerEpoch).Obeys coordinator Calm
      moves) :
    (LamportPool.new nowSecs syncServerLamport syncServerEpoch).Obeys coordinator Forward
      moves := by
  have hnew : (LamportPool.new nowSecs syncServerLamport syncServerEpoch).world.Fresh := by
    simp [LamportPool.new, LamportState.Fresh]
  have hstep : ∀ (p : LamportPool) (move : LamportMove), p.world.Fresh → Calm p move →
      (p.step coordinator move).world.Fresh :=
    fun p move hp hcalm => (hcalm.forward hp).2
  refine Logic.Trace.obeys_of_invariant hstep (fun p move hp hcalm => ?_) hnew h
  exact ⟨(hcalm.forward hp).1, (hcalm.forward hp).2.2⟩

def sampleSteps (i n : ℕ) : List LamportMove := List.replicate n (.act i {})

set_option maxRecDepth 10000 in
/-- A value is issued while the initialization waits for the database. -/
theorem clock_goes_forward_sample :
    (LamportPool.new 0 (some 7) none).Obeys coordinator Forward
      (sampleSteps 0 4 ++ [.arrive .nextLamport] ++ sampleSteps 1 2 ++ sampleSteps 0 3) :=
  clock_goes_forward 0 (some 7) none _ (by decide)

set_option maxRecDepth 10000 in
/-- A remote clock is observed while the initialization waits for the database, and the store takes the
clock back below it. -/
theorem initialize_takes_clock_back :
    ¬ ∀ nowSecs syncServerLamport syncServerEpoch moves,
      (LamportPool.new nowSecs syncServerLamport syncServerEpoch).Obeys coordinator Below moves →
        (LamportPool.new nowSecs syncServerLamport syncServerEpoch).Obeys coordinator Forward
          moves := by
  intro h
  have hrun := h 0 none none
    (sampleSteps 0 4 ++ [.arrive (.observeLamport 50000)] ++ sampleSteps 1 2 ++ sampleSteps 0 3)
    (by decide)
  revert hrun
  decide

end MichiServer.Projection
