import MichiServer.Sync.Apply

/-!
# Applying an event once

The server remembers the ids of the events it has applied, and refuses one that it remembers. The
memory is bounded: the event that finds more than 10 000 ids in it empties it first, and a restart of
the process begins with an empty one. So an id is applied once in each period of the memory, and a
period that was not ended by a restart is full.

An id of an earlier period is applied again, unless the order of its peer's sequence numbers or the
precedence of the current state stops it; an event without a sequence number and a clock can pass both.
-/

namespace MichiServer.Sync

open MichiServer.Logic MichiServer.Playback
open MichiServer.Logic.Handler (Leaves)

/-- What happens to a server, as far as its memory goes: a message, anything else, or a restart. -/
inductive SyncEvent
  | message (env : SyncEnv) (m : RemoteState)
  | meanwhile (s : SyncServer)
  | restart (s : SyncServer)

inductive PeriodEnd
  | emptied | restarted

/-- A server, and beside it the ids it applied: those of this period of its memory, the newest first,
and those of the periods before. -/
structure SyncRun where
  server : SyncServer
  current : List Uuid := []
  past : List (PeriodEnd × List Uuid) := []

namespace SyncRun

def start (s : SyncServer) : SyncRun where
  server := { s with processedEvents := ∅ }

def appliedIds (r : SyncRun) : List Uuid := r.current ++ r.past.flatMap Prod.snd

/-- The event of this id was applied, and the server is as that left it. -/
def applied (r : SyncRun) (s : SyncServer) (eventId : Uuid) : SyncRun :=
  if r.server.processedEvents.card > 10000 then
    { server := s, current := [eventId], past := (.emptied, r.current) :: r.past }
  else { r with server := s, current := eventId :: r.current }

def received (r : SyncRun) (env : SyncEnv) (m : RemoteState) : SyncRun :=
  match (applyRemotePlaybackState env m).exec r.server with
  | (.ok (), s) => m.eventId.elim { r with server := s } (r.applied s)
  | (.error _, s) => { r with server := s }

/-- One event. What else the server does leaves the processed ids alone. -/
def step (r : SyncRun) : SyncEvent → SyncRun
  | .message env m => r.received env m
  | .meanwhile s => { r with server := { s with processedEvents := r.server.processedEvents } }
  | .restart s =>
    { server := { s with processedEvents := ∅ }, past := (.restarted, r.current) :: r.past }

theorem processed_of_applied {env : SyncEnv} {m : RemoteState} {s s' : SyncServer}
    (h : (applyRemotePlaybackState env m).exec s = (.ok (), s')) :
    (∀ id ∈ m.eventId, id ∉ s.processedEvents) ∧
      s'.processedEvents =
        m.eventId.elim s.processedEvents (SyncServer.recordProcessedEvent s.processedEvents) := by
  have hleaves : Leaves (applyRemotePlaybackState env m) s _ _ := apply_leaves
  unfold Leaves at hleaves
  rw [h] at hleaves
  obtain ⟨hadmits, issued, t, -, -, rfl⟩ := hleaves
  exact ⟨hadmits.fresh, rfl⟩

theorem processed_of_not_applied {env : SyncEnv} {m : RemoteState} {s s' : SyncServer}
    {why : NotApplied} (h : (applyRemotePlaybackState env m).exec s = (.error why, s')) :
    s'.processedEvents = s.processedEvents := by
  have hleaves : Leaves (applyRemotePlaybackState env m) s _ _ := apply_leaves
  unfold Leaves at hleaves
  rw [h] at hleaves
  exact congrArg (fun c => c.2.1) hleaves.1

/-! ## The law -/

/-- The ids of a period are different, and a period that the memory's bound ended has 10 001. -/
structure Period (ended : PeriodEnd) (ids : List Uuid) : Prop where
  nodup : ids.Nodup
  full : ended = .emptied → ids.length = 10001

/-- The memory holds the ids of this period, which are different and at most 10 001, and the periods
before were periods. -/
structure OnceEach (r : SyncRun) : Prop where
  remembered : r.server.processedEvents = r.current.toFinset
  nodup : r.current.Nodup
  bounded : r.current.length ≤ 10001
  past : ∀ p ∈ r.past, Period p.1 p.2

variable {r : SyncRun} {s : SyncServer} {eventId : Uuid}

theorem OnceEach.card (h : r.OnceEach) : r.server.processedEvents.card = r.current.length := by
  rw [h.remembered, List.toFinset_card_of_nodup h.nodup]

/-- An event that was not processed is applied once. -/
theorem OnceEach.applied (h : r.OnceEach) (hnew : eventId ∉ r.server.processedEvents)
    (hprocessed : s.processedEvents =
      SyncServer.recordProcessedEvent r.server.processedEvents eventId) :
    (r.applied s eventId).OnceEach := by
  unfold SyncRun.applied
  unfold SyncServer.recordProcessedEvent at hprocessed
  have hcard := h.card
  have hbounded := h.bounded
  split
  · rename_i hfull
    rw [if_pos hfull] at hprocessed
    have hlength : r.current.length = 10001 := by omega
    refine ⟨by simpa using hprocessed, List.nodup_singleton _, by simp, ?_⟩
    rintro p (_ | ⟨_, hp⟩)
    · exact ⟨h.nodup, fun _ => hlength⟩
    · exact h.past p hp
  · rename_i hroom
    rw [if_neg hroom, h.remembered] at hprocessed
    rw [h.remembered, List.mem_toFinset] at hnew
    refine ⟨by simpa using hprocessed, List.nodup_cons.mpr ⟨hnew, h.nodup⟩, ?_, h.past⟩
    rw [List.length_cons]
    omega

theorem OnceEach.received (h : r.OnceEach) (env : SyncEnv) (m : RemoteState) :
    (r.received env m).OnceEach := by
  unfold SyncRun.received
  split
  next s hexec =>
    obtain ⟨hnew, hprocessed⟩ := processed_of_applied hexec
    cases hid : m.eventId with
    | none =>
      rw [hid] at hprocessed
      exact ⟨hprocessed.trans h.remembered, h.nodup, h.bounded, h.past⟩
    | some id =>
      rw [hid] at hprocessed
      exact h.applied (hnew id hid) hprocessed
  next why s hexec =>
    exact ⟨(processed_of_not_applied hexec).trans h.remembered, h.nodup, h.bounded, h.past⟩

theorem onceEach_step (r : SyncRun) (event : SyncEvent) (h : r.OnceEach) : (r.step event).OnceEach := by
  cases event with
  | message env m => exact h.received env m
  | meanwhile s => exact ⟨h.remembered, h.nodup, h.bounded, h.past⟩
  | restart s =>
    refine ⟨rfl, List.nodup_nil, Nat.zero_le _, ?_⟩
    rintro p (_ | ⟨_, hp⟩)
    · exact ⟨h.nodup, nofun⟩
    · exact h.past p hp

theorem onceEach_start (s : SyncServer) : (start s).OnceEach :=
  ⟨rfl, List.nodup_nil, Nat.zero_le _, fun _ hp => absurd hp List.not_mem_nil⟩

/-- **Once in each period.** In every run, whatever messages come and however the server is changed and
restarted between them, no id is applied twice in one period of the memory, and a period ends by a
restart or after 10 001 ids. -/
theorem applied_once_each_period (s : SyncServer) (events : List SyncEvent) :
    (Trace.run step (start s) events).current.Nodup ∧
      (Trace.run step (start s) events).current.length ≤ 10001 ∧
      ∀ p ∈ (Trace.run step (start s) events).past, Period p.1 p.2 := by
  have honce := Trace.run_kept onceEach_step (onceEach_start s) events
  exact ⟨honce.nodup, honce.bounded, honce.past⟩

/-! ## A memory that is full -/

def Quiet (t : EngineTask) : Prop :=
  t.running = true ∧ t.engine.sinks = [] ∧ t.engine.state.isPlaying = false

variable {t : EngineTask} (env : EngineEnv) (origin : CommandOrigin)

theorem quiet_seek (h : Quiet t) (positionMs : ℕ) :
    ∃ t', t.issue env (.seek positionMs origin) = (t', .ok ()) ∧ Quiet t' := by
  obtain ⟨hrunning, hsinks, hstopped⟩ := h
  have hhandled : ∃ e, t.engine.handleCommand env (.seek positionMs origin) =
      some (e, .done (.ok ()), true) ∧ e.sinks = [] ∧ e.state.isPlaying = false := by
    simp [PlaybackEngine.handleCommand, PlaybackEngine.handleCommandInner,
      PlaybackEngine.handleSeek, PlaybackEngine.takeTimeline, hstopped, PlaybackEngine.respond,
      PlaybackEngine.emitEvent, hsinks]
  obtain ⟨e, he, hquiet⟩ := hhandled
  exact ⟨{ engine := e }, EngineTask.issue_of_handled hrunning he, rfl, hquiet⟩

theorem quiet_pause (h : Quiet t) : ∃ t', t.issue env (.pause origin) = (t', .ok ()) ∧ Quiet t' := by
  obtain ⟨hrunning, hsinks, -⟩ := h
  have hhandled : ∃ e, t.engine.handleCommand env (.pause origin) =
      some (e, .done (.ok ()), true) ∧ e.sinks = [] ∧ e.state.isPlaying = false := by
    simp [PlaybackEngine.handleCommand, PlaybackEngine.handleCommandInner,
      PlaybackEngine.handlePause, PlaybackEngine.takeTimeline, PlaybackEngine.respond,
      PlaybackEngine.emitEvent, hsinks, PlaybackLifecycle.isPlaying]
  obtain ⟨e, he, hquiet⟩ := hhandled
  exact ⟨{ engine := e }, EngineTask.issue_of_handled hrunning he, rfl, hquiet⟩

theorem quiet_setVolume (h : Quiet t) (volume : ℕ) :
    ∃ t', t.issue env (.setVolume volume origin) = (t', .ok ()) ∧ Quiet t' := by
  obtain ⟨hrunning, hsinks, hstopped⟩ := h
  have hhandled : ∃ e, t.engine.handleCommand env (.setVolume volume origin) =
      some (e, .done (.ok ()), true) ∧ e.sinks = [] ∧ e.state.isPlaying = false := by
    simp [PlaybackEngine.handleCommand, PlaybackEngine.handleCommandInner,
      PlaybackEngine.handleSetVolume, PlaybackEngine.respond, PlaybackEngine.emitEvent, hsinks,
      hstopped]
  obtain ⟨e, he, hquiet⟩ := hhandled
  exact ⟨{ engine := e }, EngineTask.issue_of_handled hrunning he, rfl, hquiet⟩

/-- A server that nothing stops from applying a paused state without a track. -/
structure Idle (s : SyncServer) : Prop where
  enabled : s.disabledModules = []
  state : s.playbackState = sampleServer.playbackState
  quiet : Quiet s.playbackEngine

def numbered (id : Uuid) : RemoteState where
  updatedAt := 1
  eventId := some id

/-- A new message is applied, and recorded. -/
theorem numbered_applied (h : Idle s) {id : Uuid} (hnew : id ∉ s.processedEvents) :
    ∃ s', (applyRemotePlaybackState sampleEnv (numbered id)).exec s = (.ok (), s') ∧ Idle s' ∧
      s'.processedEvents = SyncServer.recordProcessedEvent s.processedEvents id := by
  have hadmits : s.Admits (numbered id) := by
    refine ⟨by rw [h.enabled]; rfl, nofun, ?_, rfl, ?_⟩
    · rintro _ ⟨⟩
      exact hnew
    · rw [h.state]
      rfl
  obtain ⟨t₁, hseek, hquiet₁⟩ := quiet_seek sampleEnv.start ((numbered id).commandOrigin sampleEnv)
    h.quiet 0
  obtain ⟨t₂, hpause, hquiet₂⟩ :=
    quiet_pause sampleEnv.transition ((numbered id).commandOrigin sampleEnv) hquiet₁
  obtain ⟨t₃, hvolume, hquiet₃⟩ :=
    quiet_setVolume sampleEnv.volume ((numbered id).commandOrigin sampleEnv) hquiet₂ 80
  have hissued : s.commands sampleEnv (numbered id) = .ok
      [(sampleEnv.start, .seek 0 ((numbered id).commandOrigin sampleEnv)),
        (sampleEnv.transition, .pause ((numbered id).commandOrigin sampleEnv)),
        (sampleEnv.volume, .setVolume 80 ((numbered id).commandOrigin sampleEnv))] := rfl
  have hperform : ∀ {issued}, s.commands sampleEnv (numbered id) = .ok issued →
      perform issued s.playbackEngine = (t₃, .ok ()) := by
    grind [perform]
  have hleaves : Leaves (applyRemotePlaybackState sampleEnv (numbered id)) s _ _ := apply_leaves
  unfold Leaves at hleaves
  split at hleaves
  next s' hexec =>
    obtain ⟨-, issued, t, hcommands, ht, rfl⟩ := hleaves
    rw [hperform hcommands] at ht
    cases ht
    exact ⟨_, hexec, ⟨h.enabled, h.state, hquiet₃⟩, rfl⟩
  next why s' hexec =>
    obtain ⟨-, ⟨hrefused | ⟨error, herror⟩, -⟩ | ⟨-, issued, error, hcommands, -, ht⟩⟩ := hleaves
    · exact absurd hadmits hrefused
    · rw [hissued] at herror
      cases herror
    · rw [hperform hcommands] at ht
      cases ht

def messages (ids : List Uuid) : List SyncEvent :=
  (ids.map numbered).map (.message sampleEnv)

theorem step_numbered (h : Idle r.server) {id : Uuid} (hnew : id ∉ r.server.processedEvents) :
    ∃ s', r.step (.message sampleEnv (numbered id)) = r.applied s' id ∧ Idle s' ∧
      s'.processedEvents = SyncServer.recordProcessedEvent r.server.processedEvents id := by
  obtain ⟨s', hexec, hidle, hprocessed⟩ := numbered_applied h hnew
  refine ⟨s', ?_, hidle, hprocessed⟩
  show r.received sampleEnv (numbered id) = _
  rw [received, hexec]
  rfl

theorem idle_sampleServer : Idle (start sampleServer).server := ⟨rfl, rfl, rfl, rfl, rfl⟩

/-- The memory takes ten thousand events in. -/
theorem filled {n : ℕ} (hn : n ≤ 10001) :
    ∃ s, Trace.run step (start sampleServer) (messages (List.range n)) =
        { server := s, current := (List.range n).reverse } ∧ Idle s ∧
      s.processedEvents = Finset.range n := by
  induction n with
  | zero => exact ⟨_, rfl, idle_sampleServer, rfl⟩
  | succ n ih =>
    obtain ⟨s, hrun, hidle, hprocessed⟩ := ih (by omega)
    have hroom : ¬ s.processedEvents.card > 10000 := by
      rw [hprocessed, Finset.card_range]
      omega
    obtain ⟨s', hstep, hidle', hprocessed'⟩ :=
      @step_numbered { server := s, current := (List.range n).reverse } hidle n (by simp [hprocessed])
    refine ⟨s', ?_, hidle', ?_⟩
    · rw [messages, List.range_succ, List.map_append, List.map_append, Trace.run_append]
      rw [messages] at hrun
      rw [hrun]
      refine hstep.trans ?_
      rw [applied, if_neg hroom, List.reverse_append]
      rfl
    · grind [SyncServer.recordProcessedEvent]

/-- One more empties it, and the first message is applied again. -/
theorem emptied {n : ℕ} (hn : n = 10001) :
    ∃ s, Trace.run step (start sampleServer) (messages (List.range n ++ [n, 0])) =
      { server := s, current := [0, n], past := [(.emptied, (List.range n).reverse)] } := by
  obtain ⟨s, hrun, hidle, hprocessed⟩ := filled hn.le
  have hfull : s.processedEvents.card > 10000 := by
    rw [hprocessed, Finset.card_range]
    omega
  obtain ⟨s', hstep, hidle', hprocessed'⟩ :=
    @step_numbered { server := s, current := (List.range n).reverse } hidle n (by simp [hprocessed])
  rw [applied, if_pos hfull] at hstep
  rw [SyncServer.recordProcessedEvent, if_pos hfull] at hprocessed'
  have hroom : ¬ s'.processedEvents.card > 10000 := by
    rw [hprocessed', insert_empty_eq, Finset.card_singleton]
    omega
  obtain ⟨s'', hstep', -, -⟩ := @step_numbered
    { server := s', current := [n], past := [(.emptied, (List.range n).reverse)] } hidle' 0
    (by simp [hprocessed', hn])
  rw [applied, if_neg hroom] at hstep'
  refine ⟨s'', ?_⟩
  rw [messages, List.map_append, List.map_append, Trace.run_append]
  rw [messages] at hrun
  rw [hrun]
  exact (congrArg (fun r => step r _) hstep).trans hstep'

/-- Ten thousand further messages empty the memory, and the first is applied again. -/
theorem applied_again_after_emptying :
    ¬ ∀ (env : SyncEnv) (s : SyncServer) (ms : List RemoteState),
      (Trace.run step (start s) (ms.map (.message env))).appliedIds.Nodup := by
  intro h
  obtain ⟨n, hn⟩ : ∃ n, n = 10001 := ⟨_, rfl⟩
  obtain ⟨s, hrun⟩ := emptied hn
  have hall : (Trace.run step (start sampleServer) (messages (List.range n ++ [n, 0]))).appliedIds.Nodup :=
    h sampleEnv sampleServer ((List.range n ++ [n, 0]).map numbered)
  rw [hrun] at hall
  exact List.disjoint_of_nodup_append hall List.mem_cons_self (by simp [hn])

end SyncRun

end MichiServer.Sync
