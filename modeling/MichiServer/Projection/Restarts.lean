import MichiServer.Logic.Trace

/-!
# The Lamport clock

The clock of `PlaybackProjectionCoordinator`: the operations on the counter, and the row of the
`server_config` table that carries it over a restart. A row is what `parse::<u64>().unwrap_or(0)`
reads in it.
-/

namespace MichiServer.Projection

section

def u64Max : ℕ := 18446744073709551615

def saturatingAdd (a b : ℕ) : ℕ := min (a + b) u64Max

def lamportBlock : ℕ := 10000

def nextLamport (clock : ℕ) : ℕ := saturatingAdd clock 1

def nearOverflow (remote : ℕ) : Prop := remote ≥ u64Max - 100000

instance (remote : ℕ) : Decidable (nearOverflow remote) := inferInstanceAs (Decidable (_ ≥ _))

/-- The clock that `observe_lamport` leaves, of a remote clock that it does not reject. -/
def advanceLamport (clock remote : ℕ) : ℕ := saturatingAdd (max clock remote) 1

def observeLamport (clock remote : ℕ) : ℕ :=
  if nearOverflow remote then clock else advanceLamport clock remote

variable {clock remote : ℕ}

theorem lt_nextLamport (h : clock < u64Max) : clock < nextLamport clock := by
  unfold nextLamport saturatingAdd
  omega

theorem nextLamport_le_max (clock : ℕ) : nextLamport clock ≤ u64Max := Nat.min_le_right ..

theorem le_advanceLamport (h : clock ≤ u64Max) : clock ≤ advanceLamport clock remote := by
  unfold advanceLamport saturatingAdd
  omega

theorem advanceLamport_le_max (clock remote : ℕ) : advanceLamport clock remote ≤ u64Max :=
  Nat.min_le_right ..

theorem le_observeLamport (h : clock ≤ u64Max) : clock ≤ observeLamport clock remote := by
  grind [observeLamport, le_advanceLamport]

theorem observeLamport_le_max (h : clock ≤ u64Max) : observeLamport clock remote ≤ u64Max := by
  unfold observeLamport
  split
  · exact h
  · exact advanceLamport_le_max ..

end

/-!
## The clock across restarts

A server starts from the row `sync_server_lamport`, adds 10 000 to it and stores it again, so what a
process issues is above the row it found as long as it stays within 10 000 of it. The row is written
once more by `flush_shutdown`. A process that goes further and ends without the flush leaves a row
from which the next one issues its values again.

A call of the clock is the compare-exchange in it that succeeds; `Initialize` has the loops.
-/

open Logic

/-- A value that `next_lamport` returned, and the process it did so in. -/
structure Issued where
  process : ℕ
  value : ℕ
deriving DecidableEq

/-- The database row, and the clock of the process that runs, if one does. Processes are numbered by
their starts, and what they issued is kept, the newest first. -/
structure LamportServer where
  syncServerLamport : Option ℕ := none
  localLamport : Option ℕ := none
  process : ℕ := 0
  issued : List Issued := []

/-- What happens to a server. A read or a write of the database may fail, and a process may end at any
time; an orderly end is one after `flush_shutdown`. -/
inductive LamportEvent where
  | newWithDbEpoch (read write : Bool)
  | nextLamport
  | observeLamport (remote : ℕ)
  | flushShutdown (write : Bool)
  | crash

namespace LamportServer

def setRow (s : LamportServer) (write : Bool) (value : ℕ) : LamportServer :=
  if write then { s with syncServerLamport := some value } else s

def startLamport (row : Option ℕ) : ℕ :=
  match row with
  | some lastLamp => saturatingAdd lastLamp lamportBlock
  | none => lamportBlock

/-- One event. Only one process runs at a time, and the clock is called only while one does. -/
def step (s : LamportServer) : LamportEvent → LamportServer
  | .newWithDbEpoch read write =>
    match s.localLamport with
    | some _ => s
    | none =>
      let lamport := startLamport (if read then s.syncServerLamport else none)
      { s.setRow write lamport with localLamport := some lamport, process := s.process + 1 }
  | .nextLamport =>
    match s.localLamport with
    | none => s
    | some clock =>
      { s with
        localLamport := some (Projection.nextLamport clock)
        issued := ⟨s.process, Projection.nextLamport clock⟩ :: s.issued }
  | .observeLamport remote =>
    { s with localLamport := s.localLamport.map fun clock => Projection.observeLamport clock remote }
  | .flushShutdown write =>
    match s.localLamport with
    | none => s
    | some clock => s.setRow write clock
  | .crash => { s with localLamport := none }

/-- The process keeps to the block it reserved: it ends while its clock is at most 10 000 above the
row, the row can be read when a process starts, and the clock is called below its largest value. -/
def Reserved (s : LamportServer) : LamportEvent → Prop
  | .newWithDbEpoch read _ => read = true
  | .nextLamport => ∀ clock ∈ s.localLamport, clock < u64Max
  | .crash => ∀ clock ∈ s.localLamport, clock ≤ s.syncServerLamport.getD 0 + lamportBlock
  | _ => True

instance (s : LamportServer) (e : LamportEvent) : Decidable (s.Reserved e) := by
  cases e <;> unfold Reserved <;> infer_instance

/-- Every value issued by a process is above those that earlier processes issued. -/
def Monotone (s : LamportServer) : Prop :=
  ∀ earlier ∈ s.issued, ∀ later ∈ s.issued, earlier.process < later.process →
    earlier.value < later.value

/-- What holds between processes and in them: the next clock, which is the one that runs or the one
that the row gives, is at least everything issued, and above everything an earlier process issued. -/
structure Ahead (s : LamportServer) : Prop where
  clock : ∀ clock ∈ s.localLamport, clock ≤ u64Max ∧ ∀ v ∈ s.issued, v.value ≤ clock
  stopped : s.localLamport = none → ∀ v ∈ s.issued, v.value ≤ startLamport s.syncServerLamport
  process : ∀ v ∈ s.issued, v.process ≤ s.process
  monotone : s.Monotone

variable {s : LamportServer}

theorem startLamport_le_max (row : Option ℕ) : startLamport row ≤ u64Max := by
  cases row with
  | some lastLamp => exact Nat.min_le_right ..
  | none => decide

theorem le_startLamport {row : Option ℕ} {clock : ℕ} (hmax : clock ≤ u64Max)
    (h : clock ≤ row.getD 0 + lamportBlock) : clock ≤ startLamport row := by
  cases row with
  | some lastLamp => exact Nat.le_min.mpr ⟨h, hmax⟩
  | none => simpa [startLamport] using h

theorem setRow_eq (s : LamportServer) (write : Bool) (value : ℕ) :
    (s.setRow write value).localLamport = s.localLamport ∧
      (s.setRow write value).process = s.process ∧ (s.setRow write value).issued = s.issued := by
  cases write <;> simp [setRow]

theorem Ahead.start (h : s.Ahead) (hstopped : s.localLamport = none) (write : Bool) :
    (s.step (.newWithDbEpoch true write)).Ahead := by
  obtain ⟨-, -, hissued⟩ := s.setRow_eq write (startLamport s.syncServerLamport)
  simp only [step, hstopped, if_true]
  constructor
  · intro clock hclock
    cases hclock
    refine ⟨startLamport_le_max _, fun v hv => ?_⟩
    rw [hissued] at hv
    exact h.stopped hstopped v hv
  · intro hnone
    cases hnone
  · intro v hv
    rw [hissued] at hv
    exact Nat.le_succ_of_le (h.process v hv)
  · intro earlier hearlier later hlater
    rw [hissued] at hearlier hlater
    exact h.monotone earlier hearlier later hlater

/-- A clock that is issued stays below the row. -/
theorem Ahead.next {clock : ℕ} (h : s.Ahead) (hclock : s.localLamport = some clock)
    (hmax : clock < u64Max) : (s.step .nextLamport).Ahead := by
  obtain ⟨-, hle⟩ := h.clock clock hclock
  have hlt : clock < Projection.nextLamport clock := lt_nextLamport hmax
  simp only [step, hclock]
  constructor
  · grind [nextLamport_le_max, clock]
  · intro hnone
    cases hnone
  · intro v hv
    rcases List.mem_cons.mp hv with rfl | hv
    · exact Nat.le_refl _
    · exact h.process v hv
  · intro earlier hearlier later hlater hprocess
    rcases List.mem_cons.mp hearlier with rfl | hearlier
    · -- the newest value is of the newest process, so it is earlier than none
      rcases List.mem_cons.mp hlater with rfl | hlater
      · exact absurd hprocess (Nat.lt_irrefl _)
      · exact absurd (h.process later hlater) (Nat.not_le.mpr hprocess)
    · rcases List.mem_cons.mp hlater with rfl | hlater
      · exact Nat.lt_of_le_of_lt (hle earlier hearlier) hlt
      · exact h.monotone earlier hearlier later hlater hprocess

/-- Each reserved event keeps the row ahead. -/
theorem Ahead.step (h : s.Ahead) {e : LamportEvent} (he : s.Reserved e) : (s.step e).Ahead := by
  cases hrunning : s.localLamport with
  | none =>
    cases e with
    | newWithDbEpoch read write =>
      cases he
      exact h.start hrunning write
    | nextLamport | flushShutdown write => simpa [LamportServer.step, hrunning] using h
    | observeLamport remote =>
      have hstay : s.step (.observeLamport remote) = s := by
        cases s
        simp_all [LamportServer.step]
      rw [hstay]
      exact h
    | crash =>
      have hstay : s.step .crash = s := by
        cases s
        simp_all [LamportServer.step]
      rw [hstay]
      exact h
  | some clock =>
    obtain ⟨hmax, hle⟩ := h.clock clock hrunning
    cases e with
    | newWithDbEpoch read write => simpa [LamportServer.step, hrunning] using h
    | nextLamport => exact h.next hrunning (he clock hrunning)
    | observeLamport remote =>
      simp only [LamportServer.step, hrunning]
      refine ⟨fun clock' hclock' => ?_, by simp, h.process, h.monotone⟩
      grind [observeLamport_le_max, le_observeLamport]
    | flushShutdown write =>
      obtain ⟨hlocal, hprocess, hissued⟩ := s.setRow_eq write clock
      simp only [LamportServer.step, hrunning]
      constructor
      · rw [hlocal, hissued]
        exact h.clock
      · rw [hlocal, hrunning]
        intro hnone
        cases hnone
      · rw [hprocess, hissued]
        exact h.process
      · unfold Monotone
        rw [hissued]
        exact h.monotone
    | crash =>
      refine ⟨by simp [LamportServer.step], fun _ v hv => ?_, h.process, h.monotone⟩
      exact Nat.le_trans (hle v hv) (le_startLamport hmax (he clock hrunning))

/-- **Monotonicity across restarts.** In every run in which each process keeps to the block it
reserved, every value issued after a restart is above every value issued before it. -/
theorem issued_after_restart_is_above (row : Option ℕ) (events : List LamportEvent)
    (h : Trace.Obeys step Reserved { syncServerLamport := row } events) :
    (Trace.run step { syncServerLamport := row } events).Monotone := by
  have hfresh : Ahead { syncServerLamport := row } := by
    constructor <;> simp [Monotone]
  exact (Trace.run_invariant (fun _ _ hs he => hs.step he) hfresh h).monotone

/-- Two processes, the first of which observes a clock of the block and is not flushed. -/
theorem issued_after_restart_is_above_sample :
    (Trace.run step { syncServerLamport := some 7 }
      [.newWithDbEpoch true true, .nextLamport, .observeLamport 15000, .nextLamport, .crash,
        .newWithDbEpoch true true, .nextLamport]).Monotone :=
  issued_after_restart_is_above (some 7) _ (by decide)

/-- A process observes a remote clock far ahead, issues a value above it, and ends without its flush:
the next one issues a value below. -/
theorem observed_clock_is_lost :
    ¬ ∀ row events, (Trace.run step { syncServerLamport := row } events).Monotone := by
  intro h
  have hrun := h none [.newWithDbEpoch true true, .observeLamport 50000, .nextLamport, .crash,
    .newWithDbEpoch true true, .nextLamport]
  exact absurd (hrun ⟨1, 50002⟩ (by decide) ⟨2, 20001⟩ (by decide)) (by decide)

end LamportServer

end MichiServer.Projection
