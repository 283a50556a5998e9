import Mathlib.Algebra.Group.Nat.Defs
import MichiServer.Order.Cycles
import MichiServer.Playback.Model

/-!
# The playback engine

`PlaybackEngine` of `engine.rs`: the state of the engine task, and the functions that change it. A
function takes the environment of the step and the engine, and returns the engine it leaves; one
that indexes a vector returns an option, and `none` is the panic of an index out of bounds.

The events the engine broadcasts are kept in `events`, oldest first, with the origin they are sent
with. A sink that is dropped from the fan-out is stopped by a task of its own, which the engine does
not wait for; the model leaves that task out.
-/

namespace MichiServer.Playback

open MichiServer.Order

def playingEvidenceThresholdMs : ℕ := 100

def maxFailedSinkSnapshots : ℕ := 32

def elapsedMs (now started : ℕ) : ℕ := (now - started) / 1000000

/-- A started `FfmpegPcmDecoder`: the file it decodes and where it was started. -/
structure FfmpegPcmDecoder where
  filePath : String
  startPositionMs : ℕ
deriving DecidableEq

structure PlaybackEngine where
  format : PcmFormat
  state : PlaybackLifecycle := .idle
  generationId : ℕ := 0
  currentTrack : Option Track := none
  queue : List Track := []
  queueIndex : ℕ := 0
  playOrder : List ℕ := []
  playOrderPos : ℕ := 0
  basePositionMs : ℕ := 0
  playingStartedAt : Option ℕ := none
  volume : ℕ := 80
  shuffle : Bool := false
  repeatMode : RepeatMode := .off
  outputDesc : Option PlaybackOutputDescription := none
  sinks : List AudioSink := []
  failedSinks : List SinkSnapshot := []
  decoder : Option FfmpegPcmDecoder := none
  trackBytesDecoded : ℕ := 0
  trackPcmTimelineBytes : ℕ := 0
  networkBytesSentTotal : ℕ := 0
  outputHealth : String := "none"
  lastError : Option String := none
  events : List TrackedEngineEvent := []
  lastCheckpoint : ℕ
  currentCommandOrigin : Option CommandOrigin := none
  currentTimelineOrigin : CommandOrigin := .local

structure EngineSnapshot where
  lifecycle : PlaybackLifecycle
  generationId : ℕ
  trackId : Option Uuid
  currentTrack : Option Track
  positionMs : ℕ
  durationMs : Option ℕ
  volume : ℕ
  shuffle : Bool
  repeatMode : RepeatMode
  output : Option PlaybackOutputDescription
  sinks : List SinkSnapshot
  failedSinks : List SinkSnapshot
  trackBytesDecoded : ℕ
  trackPcmTimelineBytes : ℕ
  networkBytesSentTotal : ℕ
  bytesDecoded : ℕ
  bytesDelivered : ℕ
  outputHealth : String
  lastError : Option String
  timelineOrigin : CommandOrigin

inductive EngineResponse where
  | done (result : Except PlaybackError Unit)
  | snapshot (s : EngineSnapshot)
  | terminated

namespace PlaybackEngine

def new (format : PcmFormat) (now : ℕ) : PlaybackEngine where
  format := format
  lastCheckpoint := now

def trackId (e : PlaybackEngine) : Option Uuid := e.currentTrack.map Track.id

def emitEvent (e : PlaybackEngine) (event : EngineEvent) : PlaybackEngine :=
  { e with events := e.events ++
      [⟨event, e.currentCommandOrigin.getD e.currentTimelineOrigin⟩] }

def recomputePlayOrder (rng : Rng) (currentIdx : ℕ) (e : PlaybackEngine) :
    Option PlaybackEngine :=
  if e.queue.isEmpty then
    some { e with playOrder := [], playOrderPos := 0 }
  else if e.shuffle then
    let order := rng.shuffle (List.range e.queue.length)
    match order.idxOf? currentIdx with
    | some pos => do
      let order ← swap? order 0 pos
      some { e with playOrder := order, playOrderPos := 0 }
    | none => some { e with playOrder := order, playOrderPos := 0 }
  else
    some { e with
      playOrder := List.range e.queue.length
      playOrderPos := min currentIdx (e.queue.length - 1) }

def recomputePlayOrderNewCycle (rng : Rng) (justFinishedIdx : ℕ) (e : PlaybackEngine) :
    Option PlaybackEngine :=
  if e.queue.isEmpty then
    some { e with playOrder := [], playOrderPos := 0 }
  else if e.shuffle then
    let order := rng.shuffle (List.range e.queue.length)
    if e.queue.length > 1 then do
      let first ← order[0]?
      if first = justFinishedIdx then
        let swapIdx := rng.genRange 1 e.queue.length
        let order ← swap? order 0 swapIdx
        some { e with playOrder := order, playOrderPos := 0 }
      else
        some { e with playOrder := order, playOrderPos := 0 }
    else
      some { e with playOrder := order, playOrderPos := 0 }
  else
    some { e with playOrder := List.range e.queue.length, playOrderPos := 0 }

/-- The sum of two `u64`, which wraps. -/
def calculateCurrentPositionMs (now : ℕ) (e : PlaybackEngine) : ℕ :=
  match e.playingStartedAt with
  | some started => (e.basePositionMs + elapsedMs now started) % 2 ^ 64
  | none => e.basePositionMs

def snapshot (env : EngineEnv) (e : PlaybackEngine) : EngineSnapshot where
  lifecycle := e.state
  generationId := e.generationId
  trackId := e.trackId
  currentTrack := e.currentTrack
  positionMs := e.calculateCurrentPositionMs env.now
  durationMs := e.currentTrack.bind Track.durationMs
  volume := e.volume
  shuffle := e.shuffle
  repeatMode := e.repeatMode
  output := e.outputDesc
  sinks := (List.range e.sinks.length).map env.sinkSnapshot
  failedSinks := e.failedSinks
  trackBytesDecoded := e.trackBytesDecoded
  trackPcmTimelineBytes := e.trackPcmTimelineBytes
  networkBytesSentTotal := e.networkBytesSentTotal
  bytesDecoded := e.trackBytesDecoded
  bytesDelivered := e.networkBytesSentTotal
  outputHealth := e.outputHealth
  lastError := e.lastError
  timelineOrigin := e.currentTimelineOrigin

/-! ## Failure, and starting a track -/

/-- The two events of a failure: the error, then the lifecycle it leaves. -/
def emitFailure (error : String) (lifecycle : PlaybackLifecycle) (trackId : Option Uuid)
    (e : PlaybackEngine) : PlaybackEngine :=
  (e.emitEvent (.failed error)).emitEvent (.lifecycleChanged lifecycle trackId)

def failPlayback (err : PlaybackError) (e : PlaybackEngine) : PlaybackEngine :=
  emitFailure err.toString .failed e.trackId
    { e with
      decoder := none
      state := .failed
      lastError := some err.toString
      playingStartedAt := none }

def preparedSinks (env : EngineEnv) (sinks : List AudioSink) : List AudioSink :=
  (sinks.zipIdx.filter fun s => env.prepare s.2).map Prod.fst

def startPlaybackInternal (env : EngineEnv) (track : Track) (positionMs : ℕ)
    (e : PlaybackEngine) : PlaybackEngine × Except PlaybackError Unit :=
  let e := { e with failedSinks := [] }
  if e.sinks.isEmpty then
    (emitFailure "no output sinks available" .failed (some track.id)
      { e with
        state := .failed
        outputHealth := "none"
        lastError := some "no output sinks available" },
      .error .noOutputSelected)
  else
    let prepared := preparedSinks env e.sinks
    if prepared.isEmpty then
      (emitFailure "all output sinks failed to prepare" .failed (some track.id)
        { e with
          sinks := []
          state := .failed
          outputHealth := "failed"
          lastError := some "all output sinks failed to prepare" },
        .error (.outputUnavailable "none of the selected sinks are available"))
    else
      let outputHealth := if prepared.length = e.sinks.length then "healthy" else "partial"
      match env.decoderStart with
      | .error err =>
        (emitFailure err.toString .idle (some track.id)
          { e with
            sinks := []
            state := .idle
            outputHealth := "none"
            lastError := some err.toString },
          .error err)
      | .ok () =>
        let e := { e with
          sinks := prepared
          outputHealth := outputHealth
          generationId := e.generationId + 1
          trackBytesDecoded := 0
          trackPcmTimelineBytes := 0
          decoder := some ⟨track.filePath, positionMs⟩
          currentTrack := some track
          basePositionMs := positionMs
          playingStartedAt := none
          state := .preparing
          lastError := none
          lastCheckpoint := env.now }
        let e := e.emitEvent (.lifecycleChanged e.state e.trackId)
        let e := e.emitEvent (.trackChanged e.trackId e.queueIndex)
        let e := e.emitEvent (.outputChanged e.outputHealth)
        (e, .ok ())

/-- Starting a track where nobody waits for the answer: a failure fails the playback. -/
def startOrFail (env : EngineEnv) (track : Track) (e : PlaybackEngine) : PlaybackEngine :=
  match e.startPlaybackInternal env track 0 with
  | (e, .ok ()) => e
  | (e, .error err) => e.failPlayback err

def cleanupPlayback (env : EngineEnv) (e : PlaybackEngine) :
    PlaybackEngine × Except PlaybackError Unit :=
  let errors := (List.range e.sinks.length).filterMap env.stop
  let e := { e with decoder := none, playingStartedAt := none }
  if e.sinks.length > 0 ∧ errors.length = e.sinks.length then
    ({ e with outputHealth := "failed" },
      .error (errors.head?.getD (.playbackFailed "all sinks failed to stop")))
  else if errors.length > 0 then
    ({ e with outputHealth := "partial" }, .ok ())
  else
    (e, .ok ())

def cleanup (env : EngineEnv) (e : PlaybackEngine) : PlaybackEngine :=
  { (e.cleanupPlayback env).1 with sinks := [], state := .stopped }

/-! ## What these leave alone -/

/-- Cleaning up drops the decoder, stops the clock and says how the outputs are; that is all. -/
theorem cleanupPlayback_eq (env : EngineEnv) (e : PlaybackEngine) :
    ∃ outputHealth, (e.cleanupPlayback env).1 =
      { e with decoder := none, playingStartedAt := none, outputHealth } := by
  unfold cleanupPlayback
  dsimp only
  split
  · exact ⟨_, rfl⟩
  · split
    · exact ⟨_, rfl⟩
    · exact ⟨e.outputHealth, rfl⟩

/-- A view of the engine in which the decoder, the clock and the health of the outputs do not show. -/
theorem view_cleanupPlayback {View : Type} (view : PlaybackEngine → View)
    (hview : ∀ (e : PlaybackEngine) outputHealth,
      view { e with decoder := none, playingStartedAt := none, outputHealth } = view e)
    (env : EngineEnv) (e : PlaybackEngine) : view (e.cleanupPlayback env).1 = view e := by
  obtain ⟨outputHealth, h⟩ := cleanupPlayback_eq env e
  rw [h, hview]

/-- What holds after a start, and what a failure keeps, holds after a start where nobody waits. -/
theorem startOrFail_of {P : PlaybackEngine → Prop} {env : EngineEnv} {track : Track}
    {e : PlaybackEngine} (hstart : P (e.startPlaybackInternal env track 0).1)
    (hfail : ∀ err e', P e' → P (failPlayback err e')) : P (e.startOrFail env track) := by
  unfold startOrFail
  split
  · next heq => rwa [heq] at hstart
  · next heq =>
    rw [heq] at hstart
    exact hfail _ _ hstart

end PlaybackEngine

end MichiServer.Playback
