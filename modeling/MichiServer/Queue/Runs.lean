import MichiServer.Queue.Mirror

/-!
# Runs of queue requests

A run is requests to the queue routes, one after the other, with whatever the engine does between
them and whatever becomes of the library. `Keeps` is what a step must meet for the mirror to stand.
Of a request it asks nothing that the environment does not promise, with three exceptions, where a
handler trusts what it does not check: `queue_reorder_handler` pushes the queue it reordered, active
or not; `queue_delete_handler` empties the engine for every queue of the active queue's name; and a
push of stored tracks fails, after the commit, when one of them no longer resolves.
-/

namespace MichiServer.Queue

open MichiServer.Playback MichiServer.Logic.Handler

/-- What happens in a run: a request, a turn of the engine's loop, or a change of the library. -/
inductive QueueEvent where
  | request (env : RequestEnv) (request : QueueRequest)
  | engine (turn : EngineTurn)
  | library (library : Library)

/-- The state an event leaves; a turn that panics ends the engine task. -/
def AppState.step (s : AppState) : QueueEvent → AppState
  | .request env request => ((request.handle env).exec s).2
  | .engine turn =>
    { s with
      playbackEngine := (s.playbackEngine.turn turn).getD
        { s.playbackEngine with running := false } }
  | .library library => { s with library := library }

def AppState.run (s : AppState) (events : List QueueEvent) : AppState := events.foldl AppState.step s

/-- What a request must meet for the engine to go on mirroring the active queue. -/
def QueueRequest.MirrorSafe (env : RequestEnv) (s : AppState) : QueueRequest → Prop
  | .items _ => env.Fair s.db ∧ s.AllResolve
  | .transfer _ => env.Fair s.db
  | .reorder _ queueId => env.Fair s.db ∧ s.AllResolve ∧ ∀ q ∈ queueId, s.db.IsActive q
  | .delete q => ∀ row ∈ s.db.queues, row.id = q → row.name = activeQueueName →
      s.db.LeavesNoOther q
  | .jump _ _ | .clear _ => True

/-- What an event must meet for the engine to go on mirroring the active queue: a turn neither ends
the engine nor brings another queue, and a change of the library is none for the active tracks. -/
def QueueEvent.Keeps (s : AppState) : QueueEvent → Prop
  | .request env r => r.MirrorSafe env s
  | .engine turn => turn.ends = false ∧
      turn.queueAfter s.playbackEngine.engine.queue = s.playbackEngine.engine.queue
  | .library lib => ∀ id ∈ s.db.activeTracks,
      (lib.getTrack id).toOption = (s.library.getTrack id).toOption

def AppState.KeptBy (s : AppState) : List QueueEvent → Prop
  | [] => True
  | event :: rest => event.Keeps s ∧ (s.step event).KeptBy rest

variable {s : AppState}

theorem request_mirrored {env : RequestEnv} {request : QueueRequest} (hs : s.Mirrored)
    (hsafe : request.MirrorSafe env s) : ((request.handle env).exec s).2.Mirrored := by
  have hkeeps : KeepsMirror (request.handle env) s := by
    cases request with
    | items trackIds => exact items_keeps_mirror hs hsafe.1 hsafe.2
    | jump queueId index => exact jump_keeps_mirror hs
    | transfer body => exact transfer_keeps_mirror hs hsafe
    | reorder itemIds queueId => exact reorder_keeps_mirror hs hsafe.1 hsafe.2.2 hsafe.2.1
    | clear queueId => exact clear_keeps_mirror hs
    | delete queueId => exact delete_keeps_mirror hs hsafe
  unfold KeepsMirror Leaves at hkeeps
  split at hkeeps
  next heq => rwa [heq]
  next heq => rwa [heq]

/-- Each event that keeps to the condition keeps the engine on the active queue. -/
theorem step_mirrored {event : QueueEvent} (hs : s.Mirrored) (hkeeps : event.Keeps s) :
    (s.step event).Mirrored := by
  cases event with
  | request env request => exact request_mirrored hs hkeeps
  | engine turn =>
    obtain ⟨hends, hsame⟩ := hkeeps
    obtain ⟨task, hturn, hholds, hrunning⟩ := EngineTask.turn_holds hs.1 hs.2 turn
    have hstep : s.step (.engine turn) = { s with playbackEngine := task } := by
      simp only [AppState.step, hturn, Option.getD_some]
    rw [hstep]
    refine ⟨?_, ?_⟩
    · show task.running = true
      rw [hrunning, hends]
      rfl
    · show task.engine.Holds (s.library.resolvable s.db.activeTracks)
      rw [hs.2.1] at hsame
      rwa [hsame] at hholds
  | library library =>
    have hsame : library.resolvable s.db.activeTracks =
        s.library.resolvable s.db.activeTracks := List.filterMap_congr hkeeps
    show s.playbackEngine.Serves (library.resolvable s.db.activeTracks)
    rw [hsame]
    exact hs

theorem run_mirrored {events : List QueueEvent} (hs : s.Mirrored) (hkept : s.KeptBy events) :
    (s.run events).Mirrored := by
  induction events generalizing s with
  | nil => exact hs
  | cons event rest ih => exact ih (step_mirrored hs hkept.1) hkept.2

theorem keptBy_of_append {before rest : List QueueEvent} (hkept : s.KeptBy (before ++ rest)) :
    s.KeptBy before := by
  induction before generalizing s with
  | nil => trivial
  | cons event others ih => exact ⟨hkept.1, ih hkept.2⟩

/-- **The engine mirrors the active queue.** In a run whose steps all meet what `Keeps` asks, the
engine's queue is, after every step, the tracks of the active queue that resolve, in position
order. -/
theorem engine_mirrors_active_queue {before rest : List QueueEvent} (hs : s.Mirrored)
    (hkept : s.KeptBy (before ++ rest)) :
    (s.run before).playbackEngine.engine.queue =
      (s.run before).library.resolvable (s.run before).db.activeTracks :=
  (run_mirrored hs (keptBy_of_append hkept)).2.1

def AppState.fresh (library : Library) (now : ℕ) : AppState where
  library := library
  playbackEngine := { engine := .new {} now }

theorem mirrored_fresh (library : Library) (now : ℕ) : (AppState.fresh library now).Mirrored :=
  ⟨rfl, rfl, PlaybackEngine.queueInv_of_empty rfl rfl⟩

def sampleLibrary : Library where
  tracks id := .ok (if id < 10 then some { id := id, filePath := "track.flac" } else none)

def sampleUuid (n : ℕ) : Drawn → ℕ
  | .queue => 1000 * n
  | .savedQueue => 1000 * n + 1
  | .session => 1000 * n + 2
  | .item i => 1000 * n + 3 + 2 * i
  | .savedItem i => 1000 * n + 4 + 2 * i

def sampleEnv (n : ℕ) : RequestEnv where
  now := n
  uuid := sampleUuid n
  engine _ := { now := n }

theorem le_sampleUuid (n : ℕ) (d : Drawn) : 1000 * n ≤ sampleUuid n d := by
  cases d <;> simp only [sampleUuid] <;> omega

theorem fair_sampleEnv {n : ℕ} {db : QueueTables}
    (hqueues : ∀ id ∈ db.queues.map QueueRow.id, id < 1000 * n)
    (hitems : ∀ id ∈ db.queueItems.map QueueItem.id, id < 1000 * n) : (sampleEnv n).Fair db where
  answers _ _ := rfl
  distinct := by
    intro a b hab
    change sampleUuid n a = sampleUuid n b at hab
    cases a <;> cases b <;> simp only [sampleUuid, Drawn.item.injEq, Drawn.savedItem.injEq] at hab ⊢
      <;> omega
  new_queue d hmem := Nat.not_lt.mpr (le_sampleUuid n d) (hqueues _ hmem)
  new_item d hmem := Nat.not_lt.mpr (le_sampleUuid n d) (hitems _ hmem)

def handOver : QueueRequest := .transfer ⟨[1], 0, 0, "phone", by decide⟩

def addTrack : QueueRequest := .items [2]

def reorderActive : QueueRequest := .reorder [2003, 1003] none

def reorderSaved : QueueRequest := .reorder [1004] (some 1001)

theorem allResolve_of_lt {s : AppState} (hlibrary : s.library = sampleLibrary)
    (hlt : ∀ id ∈ s.db.activeTracks, id < 10) : s.AllResolve := by
  intro id hid
  rw [hlibrary]
  simp [Library.getTrack, sampleLibrary, hlt id hid]

set_option maxRecDepth 20000 in
/-- A queue is handed over, a track is added and the two are reordered; the engine holds them in the new
order. -/
theorem engine_mirrors_active_queue_sample :
    ((AppState.fresh sampleLibrary 0).run [.request (sampleEnv 1) handOver,
        .request (sampleEnv 2) addTrack,
        .request (sampleEnv 3) reorderActive]).playbackEngine.engine.queue =
      sampleLibrary.resolvable [2, 1] :=
  @engine_mirrors_active_queue _ _ [] (mirrored_fresh sampleLibrary 0)
    ⟨fair_sampleEnv (by decide) (by decide),
      ⟨fair_sampleEnv (by decide) (by decide), allResolve_of_lt rfl (by decide)⟩,
      ⟨fair_sampleEnv (by decide) (by decide), allResolve_of_lt rfl (by decide), by simp⟩, trivial⟩

set_option maxRecDepth 20000 in
/-- The mirror does not survive every request that succeeds: a reorder of the saved queue leaves the
engine with its one track, where the active queue has two. -/
theorem reorder_saved_breaks_mirror :
    ¬ ∀ (s : AppState) (requests : List (RequestEnv × QueueRequest)) (env : RequestEnv)
      (request : QueueRequest) (response : QueueResponse) (s' : AppState), s.Mirrored →
      (request.handle env).exec (s.run (requests.map fun r => .request r.1 r.2)) =
        (.ok response, s') →
      s'.playbackEngine.engine.queue = s'.library.resolvable s'.db.activeTracks := by
  intro h
  have hsame := h (AppState.fresh sampleLibrary 0)
    [(sampleEnv 1, handOver), (sampleEnv 2, addTrack)] (sampleEnv 3) reorderSaved
    (.reordered 1) _ (mirrored_fresh sampleLibrary 0) (Prod.ext (by decide) rfl)
  exact absurd hsame (by decide)

end MichiServer.Queue
