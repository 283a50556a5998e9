import MichiServer.Playback.Account
import MichiServer.Playback.QueueInvariant

/-!
# The engine's handle

`PlaybackEngineHandle` of `engine.rs`, as the routes use it: a method sends one command to the engine
task and waits for the answer. A task that has ended, or that panics on the command, drops the
channel, and the caller gets `ChannelClosed`.

What the routes rely on is `setQueue_spec`, that a running task takes every queue it is given, and
`call_serves`, that no other command a route sends changes it.
-/

namespace MichiServer.Playback

open MichiServer.Logic

namespace EngineTask

/-- A command is sent to the task, which answers it; `none` is the closed channel. -/
def call (env : EngineEnv) (cmd : EngineCommand) (t : EngineTask) :
    EngineTask × Option EngineResponse :=
  match t.turn (.recv env cmd) with
  | none => ({ t with running := false }, none)
  | some t' =>
    (t', if t.running then (t.engine.handleCommand env cmd).map fun r => r.2.1 else none)

def result : Option EngineResponse → Except PlaybackError Unit
  | some (.done r) => r
  | _ => .error .channelClosed

def setQueue (env : EngineEnv) (tracks : List Track) (currentIndex : ℕ)
    (currentTrackId : Option Uuid) (t : EngineTask) : EngineTask × Except PlaybackError Unit :=
  (t.call env (.setQueue tracks currentIndex currentTrackId .local)).map id result

def jumpToIndex (env : EngineEnv) (index : ℕ) (t : EngineTask) :
    EngineTask × Except PlaybackError Unit :=
  (t.call env (.jumpToIndex index .local)).map id result

def seek (env : EngineEnv) (positionMs : ℕ) (t : EngineTask) :
    EngineTask × Except PlaybackError Unit :=
  (t.call env (.seek positionMs .local)).map id result

def play (env : EngineEnv) (track : Track) (sinks : List AudioSink)
    (outputDesc : PlaybackOutputDescription) (positionMs : ℕ) (t : EngineTask) :
    EngineTask × Except PlaybackError Unit :=
  (t.call env (.play track sinks outputDesc positionMs .local)).map id result

def loadTrack (env : EngineEnv) (track : Track) (positionMs : ℕ) (t : EngineTask) :
    EngineTask × Except PlaybackError Unit :=
  (t.call env (.loadTrack track positionMs .local)).map id result

def setVolume (env : EngineEnv) (volume : ℕ) (t : EngineTask) :
    EngineTask × Except PlaybackError Unit :=
  (t.call env (.setVolume volume .local)).map id result

def setShuffle (env : EngineEnv) (shuffle : Bool) (t : EngineTask) :
    EngineTask × Except PlaybackError Unit :=
  (t.call env (.setShuffle shuffle .local)).map id result

def setRepeat (env : EngineEnv) (repeatMode : RepeatMode) (t : EngineTask) :
    EngineTask × Except PlaybackError Unit :=
  (t.call env (.setRepeat repeatMode .local)).map id result

def snapshot (env : EngineEnv) (t : EngineTask) : EngineTask × Except PlaybackError EngineSnapshot :=
  (t.call env .getSnapshot).map id fun
    | some (.snapshot s) => .ok s
    | _ => .error .channelClosed

def issue (env : EngineEnv) (cmd : EngineCommand) (t : EngineTask) :
    EngineTask × Except PlaybackError Unit :=
  (t.call env cmd).map id result

def loadTrackWithOrigin (env : EngineEnv) (track : Track) (positionMs : ℕ)
    (origin : CommandOrigin) (t : EngineTask) : EngineTask × Except PlaybackError Unit :=
  t.issue env (.loadTrack track positionMs origin)

def seekWithOrigin (env : EngineEnv) (positionMs : ℕ) (origin : CommandOrigin) (t : EngineTask) :
    EngineTask × Except PlaybackError Unit :=
  t.issue env (.seek positionMs origin)

def resumeWithOrigin (env : EngineEnv) (origin : CommandOrigin) (t : EngineTask) :
    EngineTask × Except PlaybackError Unit :=
  t.issue env (.resume origin)

def pauseWithOrigin (env : EngineEnv) (origin : CommandOrigin) (t : EngineTask) :
    EngineTask × Except PlaybackError Unit :=
  t.issue env (.pause origin)

def setVolumeWithOrigin (env : EngineEnv) (volume : ℕ) (origin : CommandOrigin) (t : EngineTask) :
    EngineTask × Except PlaybackError Unit :=
  t.issue env (.setVolume volume origin)

def Serves (t : EngineTask) (tracks : List Track) : Prop :=
  t.running = true ∧ t.engine.Holds tracks

variable {t : EngineTask} {tracks : List Track} (env : EngineEnv)

theorem call_serves (h : t.Serves tracks) (cmd : EngineCommand) (hends : cmd.ends = false) :
    (t.call env cmd).1.Serves (cmd.queueAfter tracks) := by
  obtain ⟨t', hturn, hholds, hrun⟩ := turn_holds h.1 h.2 (.recv env cmd)
  have hcall : (t.call env cmd).1 = t' := by
    unfold call
    rw [hturn]
  rw [hcall]
  refine ⟨?_, hholds⟩
  rw [hrun]
  show (!cmd.ends) = true
  rw [hends]
  rfl

theorem jumpToIndex_serves (h : t.Serves tracks) (index : ℕ) :
    (t.jumpToIndex env index).1.Serves tracks :=
  call_serves env h (.jumpToIndex index .local) rfl

theorem seek_serves (h : t.Serves tracks) (positionMs : ℕ) :
    (t.seek env positionMs).1.Serves tracks :=
  call_serves env h (.seek positionMs .local) rfl

theorem snapshot_of_running (h : t.running = true) :
    (t.snapshot env).1.running = true ∧ (t.snapshot env).2 = .ok (t.engine.snapshot env) := by
  simp [snapshot, call, turn, h, PlaybackEngine.handleCommand,
    PlaybackEngine.handleCommandInner, PlaybackEngine.snapshot, PlaybackEngine.trackId,
    PlaybackEngine.calculateCurrentPositionMs]

theorem snapshot_spec (h : t.Serves tracks) :
    (t.snapshot env).1.Serves tracks ∧ (t.snapshot env).2 = .ok (t.engine.snapshot env) :=
  ⟨call_serves env h .getSnapshot rfl, (snapshot_of_running env h.1).2⟩

theorem setQueue_of_running (h : t.running = true) (new : List Track) (currentIndex : ℕ)
    (currentTrackId : Option Uuid) :
    (t.setQueue env new currentIndex currentTrackId).2 = .ok () := by
  obtain ⟨r, hr, -, hok⟩ := @PlaybackEngine.handleSetQueue_spec env
    { t.engine with currentCommandOrigin := some .local } new currentIndex currentTrackId
  have hcommand : t.engine.handleCommand env
      (.setQueue new currentIndex currentTrackId .local) =
      some ({ r.1 with currentCommandOrigin := none }, .done (.ok ()), true) := by
    show (({ t.engine with currentCommandOrigin := some .local } :
      PlaybackEngine).handleSetQueue env new currentIndex currentTrackId).map
        PlaybackEngine.respond >>= _ = _
    rw [hr]
    simp [PlaybackEngine.respond, hok]
  simp [setQueue, call, turn, h, hcommand, result]

theorem setQueue_spec (h : t.Serves tracks) (new : List Track) (currentIndex : ℕ)
    (currentTrackId : Option Uuid) :
    (t.setQueue env new currentIndex currentTrackId).1.Serves new ∧
      (t.setQueue env new currentIndex currentTrackId).2 = .ok () :=
  ⟨call_serves env h (.setQueue new currentIndex currentTrackId .local) rfl,
    setQueue_of_running env h.1 new currentIndex currentTrackId⟩

theorem call_of_stopped (h : t.running = false) (cmd : EngineCommand) :
    t.call env cmd = (t, none) := by
  simp [call, turn, h]

variable {env} {cmd : EngineCommand}

theorem issue_of_handled {e : PlaybackEngine} {answer : Except PlaybackError Unit}
    (hrunning : t.running = true)
    (h : t.engine.handleCommand env cmd = some (e, .done answer, true)) :
    t.issue env cmd = ({ engine := e }, answer) := by
  simp [issue, call, turn, hrunning, h, result]

theorem issue_outcome (hgo : ∀ r, t.engine.handleCommand env cmd = some r → r.2.2 = true) :
    (t.issue env cmd).1.engine = t.engine ∧ (t.issue env cmd).2 = .error .channelClosed ∨
      ∃ r, t.engine.handleCommand env cmd = some r ∧ (t.issue env cmd).1.engine = r.1 ∧
        (t.issue env cmd).2 = result (some r.2.1) := by
  cases hrunning : t.running with
  | false => exact .inl (by simp [issue, call_of_stopped, hrunning, result])
  | true =>
    cases hhandled : t.engine.handleCommand env cmd with
    | none => exact .inl (by simp [issue, call, turn, hrunning, hhandled, result])
    | some r =>
      grind [issue, call, turn]

end EngineTask

/-! ## What a success says of the engine -/

namespace PlaybackEngine

variable {e : PlaybackEngine} (env : EngineEnv)

def place (e : PlaybackEngine) : List Track × ℕ := (e.queue, e.queueIndex)

theorem place_recomputePlayOrder (rng : Rng) (currentIdx : ℕ) :
    Returns (e.recomputePlayOrder rng currentIdx) fun e' => e'.place = e.place := by
  refine (recomputePlayOrder_eq rng currentIdx).mono fun e' h => ?_
  obtain ⟨order, pos, rfl⟩ := h
  rfl

theorem getElem?_resolvedIndex {tracks : List Track} {id : Uuid} (currentIndex : ℕ)
    (h : id ∈ tracks.map Track.id) :
    (tracks.map Track.id)[min (resolvedIndex tracks currentIndex (some id)) (tracks.length - 1)]? =
      some id := by
  obtain ⟨track, hmem, hid⟩ := List.mem_map.mp h
  obtain ⟨j, hj⟩ : ∃ j, tracks.findIdx? (fun t => t.id = id) = some j := by
    rw [← Option.isSome_iff_exists, List.findIdx?_isSome, List.any_eq_true]
    exact ⟨track, hmem, by simp [hid]⟩
  obtain ⟨hlt, hid, -⟩ := List.findIdx?_eq_some_iff_getElem.mp hj
  grind [resolvedIndex]

theorem place_handleSetQueue (tracks : List Track) (currentIndex : ℕ)
    (currentTrackId : Option Uuid) :
    Returns (e.handleSetQueue env tracks currentIndex currentTrackId) fun r =>
      r.1.place =
        (tracks, min (resolvedIndex tracks currentIndex currentTrackId) (tracks.length - 1)) := by
  refine (place_recomputePlayOrder env.rng _).bind fun e' he' => .some ?_
  refine Eq.trans (b := e'.place) ?_ he'
  dsimp only
  split_ifs <;> rfl

theorem place_cleanupPlayback (e : PlaybackEngine) :
    (e.cleanupPlayback env).1.place = e.place :=
  view_cleanupPlayback place (fun _ _ => rfl) env e

theorem startPlaybackInternal_ok {track : Track} {positionMs : ℕ}
    (h : (e.startPlaybackInternal env track positionMs).2 = .ok ()) :
    (e.startPlaybackInternal env track positionMs).1.currentTrack = some track ∧
      (e.startPlaybackInternal env track positionMs).1.place = e.place := by
  unfold startPlaybackInternal at h ⊢
  dsimp only at h ⊢
  split at h
  · cases h
  next hsinks =>
    rw [if_neg hsinks]
    split at h
    · cases h
    next hprepared =>
      rw [if_neg hprepared]
      cases hdecoder : env.decoderStart with
      | error err =>
        rw [hdecoder] at h
        cases h
      | ok u => exact ⟨rfl, rfl⟩

theorem handlePlay_ok {track : Track} {sinks : List AudioSink}
    {outputDesc : PlaybackOutputDescription} {positionMs : ℕ}
    (h : (e.handlePlay env track sinks outputDesc positionMs).2 = .ok ()) :
    (e.handlePlay env track sinks outputDesc positionMs).1.currentTrack = some track ∧
      (e.handlePlay env track sinks outputDesc positionMs).1.place = e.place := by
  unfold handlePlay at h ⊢
  dsimp only at h ⊢
  split at h
  · cases h
  next hsinks =>
    rw [if_neg hsinks]
    obtain ⟨htrack, hplace⟩ := startPlaybackInternal_ok env h
    exact ⟨htrack, hplace.trans (place_cleanupPlayback env e.takeTimeline)⟩

theorem handleLoadTrack_ok (e : PlaybackEngine) (track : Track) (positionMs : ℕ) :
    (e.handleLoadTrack env track positionMs).1.currentTrack = some track ∧
      (e.handleLoadTrack env track positionMs).1.place = e.place :=
  ⟨rfl, place_cleanupPlayback env e.takeTimeline⟩

end PlaybackEngine

namespace EngineTask

variable {t : EngineTask} (env : EngineEnv)

/-- What holds after the command holds after a call that succeeds. -/
theorem call_ok {cmd : EngineCommand} {P : PlaybackEngine → Prop}
    (hcmd : Returns (t.engine.handleCommand env cmd) fun r =>
      r.2.2 = true ∧ (r.2.1 = .done (.ok ()) → P r.1))
    (h : result (t.call env cmd).2 = .ok ()) : P (t.call env cmd).1.engine := by
  unfold call at h ⊢
  cases hrunning : t.running with
  | false => simp [turn, hrunning, result] at h
  | true =>
    cases hhandled : t.engine.handleCommand env cmd with
    | none => simp [turn, hrunning, hhandled, result] at h
    | some r =>
      obtain ⟨hgo, hP⟩ := hcmd r hhandled
      have hturn : t.turn (.recv env cmd) = some { engine := r.1 } := by
        simp [turn, hrunning, hhandled, hgo]
      simp only [hturn, hrunning, hhandled, Option.map_some, if_true] at h ⊢
      refine hP ?_
      cases hresp : r.2.1 with
      | done res =>
        rw [hresp] at h
        exact congrArg EngineResponse.done h
      | snapshot s =>
        rw [hresp] at h
        cases h
      | terminated =>
        rw [hresp] at h
        cases h

theorem setQueue_ok {tracks : List Track} {currentIndex : ℕ} {currentTrackId : Option Uuid}
    (h : (t.setQueue env tracks currentIndex currentTrackId).2 = .ok ()) :
    (t.setQueue env tracks currentIndex currentTrackId).1.engine.place =
      (tracks, min (PlaybackEngine.resolvedIndex tracks currentIndex currentTrackId)
        (tracks.length - 1)) := by
  refine call_ok env (P := fun e => e.place = (tracks,
    min (PlaybackEngine.resolvedIndex tracks currentIndex currentTrackId)
      (tracks.length - 1))) ?_ h
  refine Returns.bind ((PlaybackEngine.place_handleSetQueue env tracks currentIndex
    currentTrackId).map fun r hr => ?_) fun r hr => .some hr
  exact ⟨rfl, fun _ => hr⟩

theorem play_ok {track : Track} {sinks : List AudioSink} {outputDesc : PlaybackOutputDescription}
    {positionMs : ℕ} (h : (t.play env track sinks outputDesc positionMs).2 = .ok ()) :
    (t.play env track sinks outputDesc positionMs).1.engine.currentTrack = some track ∧
      (t.play env track sinks outputDesc positionMs).1.engine.place = t.engine.place := by
  refine call_ok env (P := fun e => e.currentTrack = some track ∧ e.place = t.engine.place) ?_ h
  refine Returns.bind (.some ?_) fun r hr => .some hr
  refine ⟨rfl, fun hok => ?_⟩
  exact PlaybackEngine.handlePlay_ok env (EngineResponse.done.inj hok)

theorem loadTrack_ok {track : Track} {positionMs : ℕ}
    (h : (t.loadTrack env track positionMs).2 = .ok ()) :
    (t.loadTrack env track positionMs).1.engine.currentTrack = some track ∧
      (t.loadTrack env track positionMs).1.engine.place = t.engine.place := by
  refine call_ok env (P := fun e => e.currentTrack = some track ∧ e.place = t.engine.place) ?_ h
  refine Returns.bind (.some ?_) fun r hr => .some hr
  exact ⟨rfl, fun _ => PlaybackEngine.handleLoadTrack_ok env _ track positionMs⟩

end EngineTask

end MichiServer.Playback
