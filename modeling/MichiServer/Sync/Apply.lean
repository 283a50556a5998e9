import Mathlib.Data.Finset.Card
import Mathlib.Logic.Function.Basic
import MichiServer.Playback.Handle
import MichiServer.Playback.Resolver
import MichiServer.Projection.Restarts
import MichiServer.Projection.PeerCursor
import MichiServer.Sync.Conflict

/-!
# Applying a remote state

`apply_remote_playback_state`: a peer's message passes five guards, becomes up to three engine
commands, and is committed to the memory of the peers when every command succeeded. The projected state
is not written here; it follows the engine by the events of the commands.

A command that fails ends the call, and nothing takes back what the commands before it did, so the call
may answer false with the peer's track already loaded. `not_applied_outcome` says what it does leave:
nothing is committed, and the engine stands where the commands up to the failed one brought it.
-/

namespace MichiServer.Sync

open MichiServer.Logic MichiServer.Playback MichiServer.Projection
open MichiServer.Logic.Handler (Leaves)

structure SyncState where
  trackId : Option Uuid
  positionMs : ℕ
  playing : Bool
  volume : F64

structure SyncServer where
  serverId : String
  disabledModules : List String := []
  library : Library
  playbackEngine : EngineTask
  playbackState : PlaybackState
  localLamport : ℕ := 0
  processedEvents : Finset Uuid := ∅
  peerVectors : String → Option PeerCursor := fun _ => none
  syncTx : List PlaybackState := []
  tx : List SyncState := []

/-- What one call meets: the id it draws, what the engine meets at each command, and the percentage an
`f64` volume is rounded to. -/
structure SyncEnv where
  newEventId : Uuid
  start : EngineEnv
  transition : EngineEnv
  volume : EngineEnv
  volU8 : F64 → ℕ

inductive NotApplied where
  | disabled
  | echoed
  | duplicate
  | stale
  | retained
  | trackNotFound (error : PlaybackError)
  | failed (error : PlaybackError)
deriving DecidableEq

namespace SyncServer

/-! ## The memory of the peers -/

def isEventProcessed (s : SyncServer) (eventId : Uuid) : Bool := eventId ∈ s.processedEvents

def recordProcessedEvent (events : Finset Uuid) (eventId : Uuid) : Finset Uuid :=
  insert eventId (if events.card > 10000 then ∅ else events)

/-- `is_stale_peer_state`, of a message that names its origin and its sequence number. -/
def isStale (s : SyncServer) (m : RemoteState) : Bool :=
  match m.originDeviceId, m.sequence with
  | some origin, some seq =>
    PeerState.isStalePeerState { peerVector := s.peerVectors origin } m.epoch m.bootId seq
  | _, _ => false

def recordPeer (s : SyncServer) (m : RemoteState) : String → Option PeerCursor :=
  match m.originDeviceId, m.sequence with
  | some origin, some seq =>
    Function.update s.peerVectors origin
      (PeerState.recordPeerState {} m.epoch m.bootId seq).peerVector
  | _, _ => s.peerVectors

def observe (s : SyncServer) (m : RemoteState) : SyncServer :=
  { s with localLamport := m.lamport.elim s.localLamport (observeLamport s.localLamport) }

/-- "Effect verification succeeded": the message is remembered, and the clients are told. -/
def commit (s : SyncServer) (m : RemoteState) : SyncServer :=
  { s with
    processedEvents := m.eventId.elim s.processedEvents (recordProcessedEvent s.processedEvents)
    peerVectors := s.recordPeer m
    tx := s.tx ++ [⟨m.trackId, m.positionMs, m.playing, m.volume⟩] }

def retain (s : SyncServer) : SyncServer :=
  { s with
    syncTx :=
      if s.playbackState.deviceId = some s.serverId then s.syncTx ++ [s.playbackState]
      else s.syncTx }

end SyncServer

/-! ## The call -/

namespace RemoteState

def commandOrigin (env : SyncEnv) (m : RemoteState) : CommandOrigin :=
  .remote (m.originDeviceId.getD "remote_peer") (m.eventId.getD env.newEventId) m.sequence m.epoch
    m.bootId m.lamport

end RemoteState

def command (f : EngineTask → EngineTask × Except PlaybackError Unit) :
    Handler NotApplied SyncServer Unit :=
  Handler.update fun s =>
    let r := f s.playbackEngine
    ({ s with playbackEngine := r.1 }, r.2.mapError .failed)

/-- The first command: the track is loaded at the position, or without a track the position sought. -/
def startMessage (env : SyncEnv) (m : RemoteState) : Handler NotApplied SyncServer Unit := do
  match m.trackId with
  | some tid =>
    let s ← get
    let track ← MonadExcept.ofExcept ((s.library.getTrack tid).mapError .trackNotFound)
    command (EngineTask.loadTrackWithOrigin env.start track m.positionMs (m.commandOrigin env))
  | none => command (EngineTask.seekWithOrigin env.start m.positionMs (m.commandOrigin env))

def transitionMessage (env : SyncEnv) (m : RemoteState) : Handler NotApplied SyncServer Unit :=
  if m.playing then command (EngineTask.resumeWithOrigin env.transition (m.commandOrigin env))
  else command (EngineTask.pauseWithOrigin env.transition (m.commandOrigin env))

/-- The message goes to the engine: the track or the position, then playing or paused, then the
volume. -/
def performMessage (env : SyncEnv) (m : RemoteState) : Handler NotApplied SyncServer Unit := do
  startMessage env m
  transitionMessage env m
  command (EngineTask.setVolumeWithOrigin env.volume (env.volU8 m.volume) (m.commandOrigin env))

def resolveConflictWith (m : RemoteState) (s : SyncServer) : Handler NotApplied SyncServer Unit :=
  if s.playbackState.hasPrecedenceOver m.incomingState then do
    modify SyncServer.retain
    throw .retained
  else pure ()

/-- `apply_remote_playback_state`. It answers true where it ends without an error. -/
def applyRemotePlaybackState (env : SyncEnv) (m : RemoteState) :
    Handler NotApplied SyncServer Unit := do
  let s ← get
  Handler.rejectIf (s.disabledModules.contains "playback") .disabled
  Handler.rejectIf (m.originDeviceId = some s.serverId) .echoed
  modify fun s => s.observe m
  Handler.rejectIf (m.eventId.any s.isEventProcessed) .duplicate
  Handler.rejectIf (s.isStale m) .stale
  resolveConflictWith m s
  performMessage env m
  modify fun s => s.commit m

/-! ## Several commands in a row -/

/-- The commands are issued one after another, up to the first that fails. -/
def perform : List (EngineEnv × EngineCommand) → EngineTask → EngineTask × Except PlaybackError Unit
  | [], t => (t, .ok ())
  | (env, cmd) :: rest, t =>
    match t.issue env cmd with
    | (t', .ok ()) => perform rest t'
    | r => r

/-- A beginning of these commands succeeded, the next one failed with this error, and none was issued
after it. -/
def HaltsIn (issued : List (EngineEnv × EngineCommand)) (t t' : EngineTask) (error : PlaybackError) :
    Prop :=
  ∃ done env cmd rest t₁, issued = done ++ (env, cmd) :: rest ∧ perform done t = (t₁, .ok ()) ∧
    t₁.issue env cmd = (t', .error error)

variable {issued : List (EngineEnv × EngineCommand)} {t t' : EngineTask} {env : EngineEnv}
  {cmd : EngineCommand}

theorem halts_of_perform {error : PlaybackError} (h : perform issued t = (t', .error error)) :
    HaltsIn issued t t' error := by
  induction issued generalizing t with
  | nil => cases h
  | cons head rest ih =>
    obtain ⟨env, cmd⟩ := head
    rw [perform] at h
    split at h
    next t₁ hissue =>
      obtain ⟨done, env', cmd', rest', t₂, rfl, hdone, hfailed⟩ := ih h
      refine ⟨(env, cmd) :: done, env', cmd', rest', t₂, rfl, ?_, hfailed⟩
      rw [perform, hissue]
      exact hdone
    next => exact ⟨[], env, cmd, rest, t, rfl, rfl, h⟩

/-- The engine goes on after the command, and keeps what `f` reads of it. -/
def Keeps {α : Type} (f : PlaybackEngine → α) (cmd : EngineCommand) : Prop :=
  ∀ env e r, PlaybackEngine.handleCommand env cmd e = some r → r.2.2 = true ∧ f r.1 = f e

theorem Keeps.comp {α β : Type} {f : PlaybackEngine → α} (h : Keeps f cmd) (g : α → β) :
    Keeps (g ∘ f) cmd :=
  fun env e r hr => ⟨(h env e r hr).1, congrArg g (h env e r hr).2⟩

theorem issue_keeps {α : Type} {f : PlaybackEngine → α} (h : Keeps f cmd) (env : EngineEnv)
    (t : EngineTask) : f (t.issue env cmd).1.engine = f t.engine := by
  rcases EngineTask.issue_outcome fun r hr => (h env t.engine r hr).1 with ⟨hsame, -⟩ | ⟨r, hr, hengine, -⟩
  · rw [hsame]
  · rw [hengine]
    exact (h env t.engine r hr).2

theorem perform_keeps {α : Type} {f : PlaybackEngine → α} (h : ∀ c ∈ issued, Keeps f c.2)
    (t : EngineTask) : f (perform issued t).1.engine = f t.engine := by
  induction issued generalizing t with
  | nil => rfl
  | cons head rest ih =>
    grind [issue_keeps, perform]

/-! ## What the commands keep of the engine -/

section Keeping

variable (e : PlaybackEngine) (env : EngineEnv) (positionMs : ℕ) (origin : CommandOrigin)

def sound (e : PlaybackEngine) : Option Track × ℕ := (e.currentTrack, e.volume)

theorem volume_cleanupPlayback : (e.cleanupPlayback env).1.volume = e.volume := by
  grind [PlaybackEngine.cleanupPlayback]

theorem sound_startPlaybackInternal {track : Track} (h : e.currentTrack = some track) :
    sound (e.startPlaybackInternal env track positionMs).1 = sound e := by
  unfold PlaybackEngine.startPlaybackInternal
  dsimp only
  split
  · rfl
  · split
    · rfl
    · split
      · rfl
      · exact Prod.ext h.symm rfl

theorem sound_handleResume : sound (e.handleResume env).1 = sound e := by
  unfold PlaybackEngine.handleResume
  dsimp only
  split
  · rfl
  · split
    · split
      next track htrack =>
        refine (sound_startPlaybackInternal _ env _ ?_).trans ?_
        · split <;> exact htrack
        · split <;> rfl
      · rfl
    · split
      · split
        next track htrack => exact sound_startPlaybackInternal _ env _ htrack
        next => rfl
      · rfl

theorem sound_handlePause : sound (e.handlePause env).1 = sound e := by
  unfold PlaybackEngine.handlePause
  dsimp only
  split <;> rfl

theorem sound_handleSeek : sound (e.handleSeek env positionMs).1 = sound e := by
  unfold PlaybackEngine.handleSeek
  dsimp only
  split
  · split
    · split <;> rfl
    · rfl
  · rfl

theorem track_handleSetVolume (volume : ℕ) :
    (e.handleSetVolume env volume).1.currentTrack = e.currentTrack := by
  unfold PlaybackEngine.handleSetVolume
  dsimp only
  split_ifs <;> rfl

theorem handleSetVolume_error {volume : ℕ} {error : PlaybackError}
    (h : (e.handleSetVolume env volume).2 = .error error) : error = .allOutputsFailed := by
  grind [PlaybackEngine.handleSetVolume]

theorem keeps_loadTrack (track : Track) :
    Keeps PlaybackEngine.volume (.loadTrack track positionMs origin) := by
  rintro env e _ ⟨⟩
  exact ⟨rfl, volume_cleanupPlayback _ env⟩

theorem keeps_seek : Keeps sound (.seek positionMs origin) := by
  rintro env e _ ⟨⟩
  exact ⟨rfl, sound_handleSeek _ env positionMs⟩

theorem keeps_resume : Keeps sound (.resume origin) := by
  rintro env e _ ⟨⟩
  exact ⟨rfl, sound_handleResume _ env⟩

theorem keeps_pause : Keeps sound (.pause origin) := by
  rintro env e _ ⟨⟩
  exact ⟨rfl, sound_handlePause _ env⟩

theorem keeps_setVolume (volume : ℕ) :
    Keeps PlaybackEngine.currentTrack (.setVolume volume origin) := by
  rintro env e _ ⟨⟩
  exact ⟨rfl, track_handleSetVolume _ env volume⟩

theorem volume_of_refused {t t' : EngineTask} {volume : ℕ} {error : PlaybackError}
    (h : t.issue env (.setVolume volume origin) = (t', .error error))
    (hsinks : error ≠ .allOutputsFailed) : t'.engine.volume = t.engine.volume := by
  have hgo : ∀ r, t.engine.handleCommand env (.setVolume volume origin) = some r → r.2.2 = true := by
    rintro _ ⟨⟩
    rfl
  rcases EngineTask.issue_outcome hgo with ⟨hsame, -⟩ | ⟨_, ⟨⟩, -, hresult⟩
  · rw [h] at hsame
    exact congrArg PlaybackEngine.volume hsame
  · rw [h] at hresult
    exact absurd (handleSetVolume_error _ env hresult.symm) hsinks

end Keeping

/-! ## What a call that answers false leaves -/

namespace SyncServer

/-- What a call commits, and what it never writes: the projected state, the processed ids, the peers'
cursors, and what the clients were told. -/
def committed (s : SyncServer) :
    PlaybackState × Finset Uuid × (String → Option PeerCursor) × List SyncState :=
  (s.playbackState, s.processedEvents, s.peerVectors, s.tx)

/-- The message passes the guards: the module is enabled, and the message is no echo, no duplicate, not
stale, and not behind the current state. -/
structure Admits (s : SyncServer) (m : RemoteState) : Prop where
  enabled : s.disabledModules.contains "playback" = false
  foreign : m.originDeviceId ≠ some s.serverId
  fresh : ∀ id ∈ m.eventId, id ∉ s.processedEvents
  in_order : s.isStale m = false
  ahead : s.playbackState.hasPrecedenceOver m.incomingState = false

def firstCommand (s : SyncServer) (env : SyncEnv) (m : RemoteState) :
    Except PlaybackError EngineCommand :=
  match m.trackId with
  | some tid =>
    (s.library.getTrack tid).map fun track =>
      .loadTrack track m.positionMs (m.commandOrigin env)
  | none => .ok (.seek m.positionMs (m.commandOrigin env))

def secondCommand (env : SyncEnv) (m : RemoteState) : EngineCommand :=
  if m.playing then .resume (m.commandOrigin env) else .pause (m.commandOrigin env)

def thirdCommand (env : SyncEnv) (m : RemoteState) : EngineCommand :=
  .setVolume (env.volU8 m.volume) (m.commandOrigin env)

def commands (s : SyncServer) (env : SyncEnv) (m : RemoteState) :
    Except PlaybackError (List (EngineEnv × EngineCommand)) :=
  (s.firstCommand env m).map fun first =>
    [(env.start, first), (env.transition, secondCommand env m), (env.volume, thirdCommand env m)]

end SyncServer

variable {senv : SyncEnv} {m : RemoteState} {s : SyncServer}

theorem command_leaves {f : EngineTask → EngineTask × Except PlaybackError Unit}
    {P : Unit → SyncServer → Prop} {E : NotApplied → SyncServer → Prop}
    (hok : ∀ t, f s.playbackEngine = (t, .ok ()) → P () { s with playbackEngine := t })
    (herror : ∀ t error, f s.playbackEngine = (t, .error error) →
      E (.failed error) { s with playbackEngine := t }) : Leaves (command f) s P E := by
  refine .update (fun a ha => hok _ (Prod.ext rfl ?_)) fun e he => ?_
  · exact mapError_eq_ok_iff.mp ha
  · obtain ⟨error, herror', rfl⟩ := mapError_eq_error_iff.mp he
    exact herror _ error (Prod.ext rfl herror')

/-- The first command of a message, if it succeeds. -/
theorem startMessage_leaves :
    Leaves (startMessage senv m) s
      (fun _ s' => ∃ first t, s.firstCommand senv m = .ok first ∧
        s.playbackEngine.issue senv.start first = (t, .ok ()) ∧ s' = { s with playbackEngine := t })
      fun why s' => (∃ error, s.firstCommand senv m = .error error ∧ s' = s) ∨
        ∃ first t error, s.firstCommand senv m = .ok first ∧ why = .failed error ∧
          s.playbackEngine.issue senv.start first = (t, .error error) ∧
          s' = { s with playbackEngine := t } := by
  unfold startMessage
  cases htid : m.trackId with
  | none =>
    have hfirst : s.firstCommand senv m = .ok (.seek m.positionMs (m.commandOrigin senv)) := by
      rw [SyncServer.firstCommand, htid]
    exact command_leaves (fun t ht => ⟨_, t, hfirst, ht, rfl⟩)
      fun t error ht => .inr ⟨_, t, error, hfirst, rfl, ht, rfl⟩
  | some tid =>
    have hfirst : s.firstCommand senv m = (s.library.getTrack tid).map fun track =>
        .loadTrack track m.positionMs (m.commandOrigin senv) := by
      rw [SyncServer.firstCommand, htid]
    refine .bind (.get (.bind (.ofExcept (fun track htrack => ?_) fun error herror => ?_)))
    · rw [mapError_eq_ok_iff.mp htrack] at hfirst
      exact command_leaves (fun t ht => ⟨_, t, hfirst, ht, rfl⟩)
        fun t error ht => .inr ⟨_, t, error, hfirst, rfl, ht, rfl⟩
    · obtain ⟨error, hlibrary, rfl⟩ := mapError_eq_error_iff.mp herror
      rw [hlibrary] at hfirst
      exact .inl ⟨error, hfirst, rfl⟩

theorem transitionMessage_leaves :
    Leaves (transitionMessage senv m) s
      (fun _ s' => ∃ t,
        s.playbackEngine.issue senv.transition (SyncServer.secondCommand senv m) = (t, .ok ()) ∧
          s' = { s with playbackEngine := t })
      fun why s' => ∃ t error, why = .failed error ∧
        s.playbackEngine.issue senv.transition (SyncServer.secondCommand senv m) =
          (t, .error error) ∧ s' = { s with playbackEngine := t } := by
  unfold transitionMessage SyncServer.secondCommand
  refine .ite (fun hplaying => ?_) fun hplaying => ?_
  · rw [if_pos hplaying]
    exact command_leaves (fun t ht => ⟨t, ht, rfl⟩) fun t error ht => ⟨t, error, rfl, ht, rfl⟩
  · rw [if_neg hplaying]
    exact command_leaves (fun t ht => ⟨t, ht, rfl⟩) fun t error ht => ⟨t, error, rfl, ht, rfl⟩

/-- All the commands of a message, if they succeed. -/
theorem performMessage_leaves :
    Leaves (performMessage senv m) s
      (fun _ s' => ∃ issued t, s.commands senv m = .ok issued ∧
        perform issued s.playbackEngine = (t, .ok ()) ∧ s' = { s with playbackEngine := t })
      fun why s' => (∃ error, s.commands senv m = .error error ∧ s' = s) ∨
        ∃ issued t error, s.commands senv m = .ok issued ∧ why = .failed error ∧
          perform issued s.playbackEngine = (t, .error error) ∧
          s' = { s with playbackEngine := t } := by
  have hcommands : ∀ {r}, s.firstCommand senv m = r → s.commands senv m = r.map _ :=
    fun h => congrArg (Except.map _) h
  refine .bind (startMessage_leaves.mono (fun _ s₁ h₁ => ?_) fun why s₁ h₁ => ?_)
  · obtain ⟨first, t₁, hfirst, hstart, rfl⟩ := h₁
    refine .bind (transitionMessage_leaves.mono (fun _ s₂ h₂ => ?_) fun why s₂ h₂ => ?_)
    · obtain ⟨t₂, hsecond, rfl⟩ := h₂
      simp only at hsecond
      refine command_leaves (fun t₃ hthird => ?_) fun t₃ error hthird => ?_
      · refine ⟨_, t₃, hcommands hfirst, ?_, rfl⟩
        have hlast : t₂.issue senv.volume (SyncServer.thirdCommand senv m) = (t₃, .ok ()) := hthird
        simp only [perform, hstart, hsecond, hlast]
      · refine .inr ⟨_, t₃, error, hcommands hfirst, rfl, ?_, rfl⟩
        have hlast : t₂.issue senv.volume (SyncServer.thirdCommand senv m) = (t₃, .error error) :=
          hthird
        simp only [perform, hstart, hsecond, hlast]
    · obtain ⟨t₂, error, rfl, hsecond, rfl⟩ := h₂
      simp only at hsecond
      exact .inr ⟨_, t₂, error, hcommands hfirst, rfl, by simp only [perform, hstart, hsecond], rfl⟩
  · rcases h₁ with ⟨error, hfirst, rfl⟩ | ⟨first, t, error, hfirst, rfl, hstart, rfl⟩
    · exact .inl ⟨error, hcommands hfirst, rfl⟩
    · exact .inr ⟨_, t, error, hcommands hfirst, rfl, by simp only [perform, hstart], rfl⟩

def Refused (env : SyncEnv) (s : SyncServer) (m : RemoteState) : Prop :=
  ¬ s.Admits m ∨ ∃ error, s.commands env m = .error error

/-- A message that is applied was admitted, and all of it was performed. -/
theorem apply_leaves :
    Leaves (applyRemotePlaybackState senv m) s
      (fun _ s' => s.Admits m ∧ ∃ issued t, s.commands senv m = .ok issued ∧
        perform issued s.playbackEngine = (t, .ok ()) ∧
        s' = ({ s.observe m with playbackEngine := t } : SyncServer).commit m)
      fun why s' => s'.committed = s.committed ∧
        (Refused senv s m ∧ s'.playbackEngine = s.playbackEngine ∨
          s.Admits m ∧ ∃ issued error, s.commands senv m = .ok issued ∧ why = .failed error ∧
            perform issued s.playbackEngine = (s'.playbackEngine, .error error)) := by
  refine .bind (.get (.bind (.rejectIf (fun hdisabled => ?_) fun henabled => ?_)))
  · exact ⟨rfl, .inl ⟨.inl fun h => absurd (h.enabled.symm.trans hdisabled) Bool.false_ne_true, rfl⟩⟩
  refine .bind (.rejectIf (fun hecho => ?_) fun hforeign => ?_)
  · exact ⟨rfl, .inl ⟨.inl fun h => h.foreign hecho, rfl⟩⟩
  refine .bind (.modify (.bind (.rejectIf (fun hduplicate => ?_) fun hfresh => ?_)))
  · refine ⟨rfl, .inl ⟨.inl fun h => ?_, rfl⟩⟩
    obtain ⟨id, hid, hprocessed⟩ := (Option.any_eq_true _ _).mp hduplicate
    exact h.fresh id hid (of_decide_eq_true hprocessed)
  refine .bind (.rejectIf (fun hstale => ?_) fun horder => ?_)
  · exact ⟨rfl, .inl ⟨.inl fun h => absurd (h.in_order.symm.trans hstale) Bool.false_ne_true, rfl⟩⟩
  refine .bind (.ite (fun hbehind => .bind (.modify (.throw ?_))) fun hahead => .pure ?_)
  · exact ⟨rfl, .inl ⟨.inl fun h => absurd (h.ahead.symm.trans hbehind) Bool.false_ne_true, rfl⟩⟩
  have hadmits : s.Admits m := by
    refine ⟨(Bool.not_eq_true _).mp henabled, hforeign, fun id hid hprocessed => ?_,
      (Bool.not_eq_true _).mp horder, (Bool.not_eq_true _).mp hahead⟩
    exact hfresh ((Option.any_eq_true _ _).mpr ⟨id, hid, decide_eq_true hprocessed⟩)
  refine .bind (performMessage_leaves.mono (fun _ s₁ h₁ => ?_) fun why s₁ h₁ => ?_)
  · obtain ⟨issued, t, hissued, hperform, rfl⟩ := h₁
    exact .modify ⟨hadmits, issued, t, hissued, hperform, rfl⟩
  · rcases h₁ with ⟨error, herror, rfl⟩ | ⟨issued, t, error, hissued, rfl, hperform, rfl⟩
    · exact ⟨rfl, .inl ⟨.inr ⟨error, herror⟩, rfl⟩⟩
    · exact ⟨rfl, .inr ⟨hadmits, issued, error, hissued, rfl, hperform⟩⟩

variable {issued : List (EngineEnv × EngineCommand)}

theorem commands_eq_ok (h : s.commands senv m = .ok issued) :
    ∃ first, s.firstCommand senv m = .ok first ∧
      issued = [(senv.start, first), (senv.transition, SyncServer.secondCommand senv m),
        (senv.volume, SyncServer.thirdCommand senv m)] := by
  obtain ⟨first, hfirst, rfl⟩ := map_eq_ok_iff.mp h
  exact ⟨first, hfirst, rfl⟩

theorem keeps_firstCommand {first : EngineCommand} (h : s.firstCommand senv m = .ok first) :
    Keeps PlaybackEngine.volume first ∧
      (m.trackId = none → Keeps PlaybackEngine.currentTrack first) := by
  unfold SyncServer.firstCommand at h
  split at h
  next tid htid =>
    obtain ⟨track, -, rfl⟩ := map_eq_ok_iff.mp h
    grind [keeps_loadTrack]
  next =>
    cases h
    exact ⟨(keeps_seek _ _).comp Prod.snd, fun _ => (keeps_seek _ _).comp Prod.fst⟩

theorem keeps_secondCommand : Keeps sound (SyncServer.secondCommand senv m) := by
  unfold SyncServer.secondCommand
  split
  · exact keeps_resume _
  · exact keeps_pause _

theorem track_kept (h : s.commands senv m = .ok issued)
    (hnone : m.trackId = none) (t : EngineTask) :
    (perform issued t).1.engine.currentTrack = t.engine.currentTrack := by
  obtain ⟨first, hfirst, rfl⟩ := commands_eq_ok h
  refine perform_keeps (fun c hc => ?_) t
  simp only [List.mem_cons, List.not_mem_nil, or_false] at hc
  rcases hc with rfl | rfl | rfl
  · exact (keeps_firstCommand hfirst).2 hnone
  · exact keeps_secondCommand.comp Prod.fst
  · exact keeps_setVolume _ _

theorem volume_kept {t t' : EngineTask} {error : PlaybackError} (h : s.commands senv m = .ok issued)
    (hhalt : perform issued t = (t', .error error)) (hsinks : error ≠ .allOutputsFailed) :
    t'.engine.volume = t.engine.volume := by
  obtain ⟨first, hfirst, rfl⟩ := commands_eq_ok h
  let front := [(senv.start, first), (senv.transition, SyncServer.secondCommand senv m)]
  have hfront : (perform front t).1.engine.volume = t.engine.volume := by
    refine perform_keeps (fun c hc => ?_) t
    simp only [front, List.mem_cons, List.not_mem_nil, or_false] at hc
    rcases hc with rfl | rfl
    · exact (keeps_firstCommand hfirst).1
    · exact keeps_secondCommand.comp Prod.snd
  grind [perform, SyncServer.thirdCommand, volume_of_refused]

/-- **A call that answers false** commits nothing, and it leaves the engine alone when the message was
refused; otherwise the engine stands where the commands halted, with everything that those before the
failed one did. The track is the engine's own where the message names none, and the volume where not
every sink refused the new one. -/
theorem not_applied_outcome {why : NotApplied} {s' : SyncServer}
    (h : (applyRemotePlaybackState senv m).exec s = (.error why, s')) :
    s'.committed = s.committed ∧
      (Refused senv s m ∧ s'.playbackEngine = s.playbackEngine ∨
        s.Admits m ∧ ∃ issued error, s.commands senv m = .ok issued ∧ why = .failed error ∧
          HaltsIn issued s.playbackEngine s'.playbackEngine error) ∧
      (m.trackId = none →
        s'.playbackEngine.engine.currentTrack = s.playbackEngine.engine.currentTrack) ∧
      (why ≠ .failed .allOutputsFailed →
        s'.playbackEngine.engine.volume = s.playbackEngine.engine.volume) := by
  have hleaves : Leaves (applyRemotePlaybackState senv m) s _ _ := apply_leaves
  unfold Leaves at hleaves
  rw [h] at hleaves
  obtain ⟨hcommitted, ⟨hrefused, hengine⟩ | ⟨hadmits, issued, error, hissued, rfl, hperform⟩⟩ := hleaves
  · exact ⟨hcommitted, .inl ⟨hrefused, hengine⟩, fun _ => by rw [hengine], fun _ => by rw [hengine]⟩
  · refine ⟨hcommitted, .inr ⟨hadmits, issued, error, hissued, rfl, halts_of_perform hperform⟩,
      fun hnone => ?_, fun hsinks => ?_⟩
    · have hkept := track_kept hissued hnone s.playbackEngine
      rwa [hperform] at hkept
    · exact volume_kept hissued hperform fun herror => hsinks (congrArg NotApplied.failed herror)

/-! ## A resume without an output -/

def sampleLibrary : Library where
  tracks id := if id = 7 then .ok (some { id := 7, filePath := "/music/7.flac" }) else .ok none

def sampleServer : SyncServer where
  serverId := "server-a"
  library := sampleLibrary
  playbackEngine := { engine := PlaybackEngine.new {} 0 }
  playbackState := { updatedAt := 0 }

def sampleEnv : SyncEnv where
  newEventId := 900
  start := { now := 1 }
  transition := { now := 2 }
  volume := { now := 3 }
  volU8 _ := 80

def playingPeer : RemoteState where
  trackId := some 7
  positionMs := 30000
  playing := true
  updatedAt := 5
  originDeviceId := some "server-b"
  eventId := some 41
  sequence := some 1
  lamport := some 9

theorem playingPeer_not_applied :
    ((applyRemotePlaybackState sampleEnv playingPeer).exec sampleServer).1 =
      .error (.failed .noOutputSelected) := by decide +kernel

/-- The track is loaded, the resume fails for want of an output, the call answers false, and the track
stays loaded. -/
theorem remote_state_half_applied :
    ¬ ∀ (env : SyncEnv) (m : RemoteState) (s s' : SyncServer) (why : NotApplied),
      (applyRemotePlaybackState env m).exec s = (.error why, s') → ∀ now : ℕ,
        s'.playbackEngine.engine.currentTrack = s.playbackEngine.engine.currentTrack ∧
        s'.playbackEngine.engine.calculateCurrentPositionMs now =
          s.playbackEngine.engine.calculateCurrentPositionMs now ∧
        s'.playbackEngine.engine.state = s.playbackEngine.engine.state ∧
        s'.playbackEngine.engine.volume = s.playbackEngine.engine.volume ∧
        s'.playbackState = s.playbackState := by
  intro h
  have hsame := h sampleEnv playingPeer sampleServer _ _
    (Prod.ext playingPeer_not_applied rfl) 0
  exact absurd hsame.1 (by decide +kernel)

/-- The volume of the peer is set, and then no output is selected. -/
theorem not_applied_outcome_half_applied :
    ∃ s', (applyRemotePlaybackState sampleEnv playingPeer).exec sampleServer =
        (.error (.failed .noOutputSelected), s') ∧
      s'.committed = sampleServer.committed ∧ s'.playbackEngine.engine.volume = 80 := by
  refine ⟨_, Prod.ext playingPeer_not_applied rfl, ?_⟩
  have houtcome := not_applied_outcome (Prod.ext playingPeer_not_applied rfl)
  exact ⟨houtcome.1, houtcome.2.2.2 (by decide)⟩

end MichiServer.Sync
