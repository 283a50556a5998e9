import MichiServer.Queue.Routes

/-!
# Restoring a playback session

`restore_playback_state_handler` and `auto_restore_playback_state` of `routes/v1/playback.rs`: each
brings the latest persisted session into the engine. The handler is a request and answers with an
error; the task at the start gives up silently. They load the queue differently: the handler falls back
to the active queue and then to the current track alone, the task does not.
-/

namespace MichiServer.Queue

open MichiServer.Logic MichiServer.Playback

/-- `PlaybackSessionDb`, as far as a restore uses it. Of the volume a restore takes the percentage,
`(volume * 100.0).round().clamp(0.0, 100.0) as u8`, which stands here in its place. -/
structure PlaybackSessionDb where
  id : Uuid
  queueId : Option Uuid
  currentIndex : ℤ
  currentTrackId : Option Uuid
  positionMs : ℕ
  repeatMode : String
  shuffle : Bool
  volume : ℕ
  resumePolicy : String
  restored : Bool

def Keyed (library : Library) : Prop :=
  ∀ id track, library.tracks id = .ok (some track) → track.id = id

/-- What a restore finds: the tables, the latest session, the library and the engine. -/
structure RestoreState where
  disabledModules : List String := []
  db : QueueTables
  session : Option PlaybackSessionDb
  library : Library
  keyed : Keyed library
  playbackEngine : EngineTask

inductive RestoreCall where
  | latest | items | active | activeItems | update

/-- What a restore meets: the clock and the ids of a queue that it makes, the environments of its engine
commands, the database calls that fail, and whether the server is shutting down. -/
structure RestoreEnv where
  request : RequestEnv
  setVolume : EngineEnv
  setShuffle : EngineEnv
  setRepeat : EngineEnv
  loadTrack : EngineEnv
  fault : RestoreCall → Option String := fun _ => none
  shutdown : Bool := false

inductive RestoreError where
  | currentTrackMissing (trackId : Uuid)
  | invalidCurrentIndex (index : ℤ) (queueLen : ℕ)
  | emptyQueue

protected def RestoreError.toString : RestoreError → String
  | .currentTrackMissing trackId =>
    "persisted current track " ++ toString trackId ++ " is missing from validated queue"
  | .invalidCurrentIndex index queueLen =>
    "persisted current index " ++ toString index ++ " is out of bounds for queue length " ++
      toString queueLen
  | .emptyQueue => "no tracks available in restored queue"

def resolveRestoreIndex (tracks : List Track) (currentTrackId : Option Uuid)
    (persistedIndex : ℤ) : Except RestoreError ℕ :=
  if tracks.isEmpty then .error .emptyQueue
  else
    match currentTrackId with
    | some curTid =>
      match tracks.findIdx? fun t => t.id = curTid with
      | some index => .ok index
      | none => .error (.currentTrackMissing curTid)
    | none =>
      if persistedIndex < 0 ∨ persistedIndex.toNat ≥ tracks.length then
        .error (.invalidCurrentIndex persistedIndex tracks.length)
      else .ok persistedIndex.toNat

def repeatOf (repeatMode : String) : RepeatMode :=
  if repeatMode = "one" then .one else if repeatMode = "all" then .all else .off

def positionIn (session : PlaybackSessionDb) (track : Track) : ℕ :=
  match track.durationMs with
  | some d => min session.positionMs d
  | none => session.positionMs

section

variable {ε α : Type} (env : RestoreEnv)

def RestoreState.send (f : EngineTask → EngineTask × Except PlaybackError α) (s : RestoreState) :
    RestoreState × Except PlaybackError α :=
  let r := f s.playbackEngine
  ({ s with playbackEngine := r.1 }, r.2)

def engineCommand (f : EngineTask → EngineTask × Except PlaybackError α)
    (onError : PlaybackError → ε) : Handler ε RestoreState α :=
  Handler.update fun s => (s.send f).map id fun r => r.mapError onError

def ignoring (f : EngineTask → EngineTask × Except PlaybackError α) : Handler ε RestoreState Unit :=
  modify fun s => (s.send f).1

def getLatestPlaybackSession (onError : String → ε) :
    Handler ε RestoreState (Option PlaybackSessionDb) := do
  let s ← get
  match env.fault .latest with
  | some text => throw (onError text)
  | none => pure s.session

/-- `get_queue_items` and `validate_and_load_tracks`: every track of the queue, or none. -/
def loadQueue (call : RestoreCall) (queueId : Uuid) (s : RestoreState) :
    Except ApiError (List Track) :=
  match env.fault call with
  | some text => .error (databaseError text)
  | none => s.library.loadAll validationFailed (s.db.tracksOf queueId)

def markRestored (session : PlaybackSessionDb) (s : RestoreState) :
    RestoreState × Except String Unit :=
  match env.fault .update with
  | some text => (s, .error text)
  | none => ({ s with session := some { session with restored := true } }, .ok ())

inductive RestoreResponse where
  | restored (sessionId : Uuid) (trackId : Option Uuid) (positionMs volume : ℕ) (shuffle : Bool)
      (repeatMode : RepeatMode) (resumePolicy : String)
  | notFound

def invalidRestoreState (e : RestoreError) : ApiError :=
  v1Error 422 "INVALID_RESTORE_STATE" e.toString

def sessionQueue (session : PlaybackSessionDb) (s : RestoreState) : List Track :=
  match session.queueId with
  | some queueId => (loadQueue env .items queueId s).toOption.getD []
  | none => []

def activeQueue : Handler ApiError RestoreState (List Track) := do
  let s ← get
  match env.fault .active with
  | some _ => pure []
  | none =>
    match findOrCreate env.request s.db with
    | .error _ => pure []
    | .ok (db, activeQueueId) => do
      let s := { s with db := db }
      set s
      pure ((loadQueue env .activeItems activeQueueId s).toOption.getD [])

def currentTrackAlone (session : PlaybackSessionDb) (s : RestoreState) : List Track :=
  match session.currentTrackId with
  | some trackId => (s.library.loadAll validationFailed [trackId]).toOption.getD []
  | none => []

def tracksToRestore (session : PlaybackSessionDb) : Handler ApiError RestoreState (List Track) := do
  let s ← get
  let queued := sessionQueue env session s
  let tracks ← if queued.isEmpty then activeQueue env else pure queued
  let s ← get
  pure (if tracks.isEmpty then currentTrackAlone session s else tracks)

/-- The current track is loaded at the session's position in it; the answer is that position. -/
def loadCurrent (session : PlaybackSessionDb) (tracks : List Track) (curIdx : ℕ)
    (onError : PlaybackError → ε) : Handler ε RestoreState ℕ :=
  match tracks[curIdx]? with
  | some curTrack => do
    let posMs := positionIn session curTrack
    engineCommand (EngineTask.loadTrack env.loadTrack curTrack posMs) onError
    pure posMs
  | none => pure session.positionMs

/-- The handler's commands to the engine, once it has the tracks and the index, and its answer. -/
def restoreSession (session : PlaybackSessionDb) (tracks : List Track) (curIdx : ℕ) :
    Handler ApiError RestoreState RestoreResponse := do
  engineCommand (EngineTask.setQueue (env.request.engine .setQueue) tracks curIdx
    session.currentTrackId) fun e => runtimeSyncFailed e.toString
  engineCommand (EngineTask.setVolume env.setVolume session.volume) commandFailed
  engineCommand (EngineTask.setShuffle env.setShuffle session.shuffle) commandFailed
  engineCommand (EngineTask.setRepeat env.setRepeat (repeatOf session.repeatMode)) commandFailed
  let positionMs ← loadCurrent env session tracks curIdx commandFailed
  let snap ← engineCommand (EngineTask.snapshot (env.request.engine .snapshot))
    fun e => v1Error 500 "ENGINE_ERROR" e.toString
  Handler.update fun s => (markRestored env session s).map id fun r => r.mapError fun text =>
    databaseError ("failed to update restored flag: " ++ text)
  pure (.restored session.id snap.trackId positionMs snap.volume snap.shuffle snap.repeatMode
    session.resumePolicy)

def restorePlaybackStateHandler : Handler ApiError RestoreState RestoreResponse := do
  let s ← get
  Handler.rejectIf (s.disabledModules.contains "playback")
    (v1Error 503 "MODULE_DISABLED" "playback module is disabled")
  match ← getLatestPlaybackSession env fun text => v1Error 500 "INTERNAL_ERROR" text with
  | none => pure .notFound
  | some session =>
    let tracks ← tracksToRestore env session
    let curIdx ← MonadExcept.ofExcept ((resolveRestoreIndex tracks session.currentTrackId
      session.currentIndex).mapError invalidRestoreState)
    restoreSession env session tracks curIdx

/-- `auto_restore_playback_state`. It has no answer: where it gives up it just ends. -/
def autoRestorePlaybackState : Handler Unit RestoreState Unit := do
  Handler.rejectIf (env.shutdown = true) ()
  match ← getLatestPlaybackSession env fun _ => () with
  | none => pure ()
  | some session =>
    match session.queueId with
    | none => pure ()
    | some queueId => do
      let s ← get
      let tracks ← MonadExcept.ofExcept ((loadQueue env .items queueId s).mapError fun _ => ())
      let curIdx ← MonadExcept.ofExcept ((resolveRestoreIndex tracks session.currentTrackId
        session.currentIndex).mapError fun _ => ())
      engineCommand (EngineTask.setQueue (env.request.engine .setQueue) tracks curIdx
        session.currentTrackId) fun _ => ()
      ignoring (EngineTask.setVolume env.setVolume session.volume)
      ignoring (EngineTask.setShuffle env.setShuffle session.shuffle)
      ignoring (EngineTask.setRepeat env.setRepeat (repeatOf session.repeatMode))
      let _ ← loadCurrent env session tracks curIdx fun _ => ()
      modify fun s => (markRestored env session s).1

end

end MichiServer.Queue
