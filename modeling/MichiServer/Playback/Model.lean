import Mathlib.Data.List.Perm.Basic
import MichiServer.Basic

/-!
# The playback engine's data

The types of `model.rs`, `error.rs` and `sink.rs` that the engine reads and writes, and the
environment a step of the engine consults: the clock, the random generator, the sinks and the
decoder. A sink is a trait object in the source, so the model keeps its identity and takes the
outcome of each call from the environment, by the sink's place in the engine's list.
-/

namespace MichiServer.Playback

inductive PlaybackLifecycle where
  | idle | preparing | buffering | audioFlowing | playing | paused | stopping | stopped | ended
  | failed
deriving DecidableEq

def PlaybackLifecycle.isPlaying : PlaybackLifecycle → Bool
  | .audioFlowing | .playing => true
  | _ => false

inductive RepeatMode where
  | off | all | one
deriving DecidableEq

structure PcmFormat where
  sampleRate : ℕ := 48000
  channels : ℕ := 2
  bitDepth : ℕ := 16
deriving DecidableEq

def PcmFormat.bytesPerFrame (f : PcmFormat) : ℕ := f.channels * (f.bitDepth / 8)

def PcmFormat.bytesForDurationMs (f : PcmFormat) (ms : ℕ) : ℕ :=
  f.sampleRate * ms * f.bytesPerFrame / 1000

structure Track where
  id : Uuid
  filePath : String
  durationMs : Option ℕ := none
deriving DecidableEq

inductive SinkKind where
  | receiver | roomGroup | chain | «local»

inductive SinkState where
  | preparing | ready | audioFlowing | paused | failed | stopped

structure SinkSnapshot where
  sinkId : String
  kind : SinkKind
  state : SinkState
  bytesReceived : ℕ
  bytesSentToTransport : ℕ
  muted : Bool
  lastError : Option String

structure AudioSink where
  id : String
  kind : SinkKind

structure PlaybackOutputDescription where
  targetId : String
  targetName : String
  kind : String
  receiverCount : ℕ

/-- `PlaybackError`; the two wrapped errors are carried as their texts. -/
inductive PlaybackError where
  | noOutputSelected
  | outputNotFound (target : String)
  | outputUnavailable (reason : String)
  | trackNotFound (id : Uuid)
  | trackFileMissing (path : String)
  | decoderUnavailable (reason : String)
  | decoderFailed (reason : String)
  | invalidMedia (reason : String)
  | playbackFailed (reason : String)
  | allOutputsFailed
  | receiverNotPaired (receiver : String)
  | receiverOffline (receiver : String)
  | invalidSeek (positionMs : ℕ)
  | invalidVolume (volume : ℕ)
  | trackOutsideLibrary (path : String)
  | queueEmpty
  | queueIndexInvalid (index : ℕ)
  | noTrackSelected
  | engineUnavailable
  | channelClosed
  | io (text : String)
  | database (text : String)
deriving DecidableEq

def PlaybackError.errorCode : PlaybackError → String
  | .noOutputSelected => "NO_OUTPUT_SELECTED"
  | .outputNotFound _ => "OUTPUT_NOT_FOUND"
  | .outputUnavailable _ => "OUTPUT_UNAVAILABLE"
  | .trackNotFound _ => "TRACK_NOT_FOUND"
  | .trackFileMissing _ => "TRACK_FILE_MISSING"
  | .trackOutsideLibrary _ => "TRACK_OUTSIDE_LIBRARY"
  | .queueEmpty => "QUEUE_EMPTY"
  | .queueIndexInvalid _ => "QUEUE_INDEX_INVALID"
  | .noTrackSelected => "NO_TRACK_SELECTED"
  | .engineUnavailable => "ENGINE_UNAVAILABLE"
  | .decoderUnavailable _ => "DECODER_UNAVAILABLE"
  | .decoderFailed _ => "DECODER_FAILED"
  | .invalidMedia _ => "INVALID_MEDIA"
  | .playbackFailed _ => "PLAYBACK_FAILED"
  | .allOutputsFailed => "ALL_OUTPUTS_FAILED"
  | .receiverNotPaired _ => "RECEIVER_NOT_PAIRED"
  | .receiverOffline _ => "RECEIVER_OFFLINE"
  | .invalidSeek _ => "INVALID_SEEK"
  | .invalidVolume _ => "INVALID_VOLUME"
  | .channelClosed => "CHANNEL_CLOSED"
  | .io _ => "IO_ERROR"
  | .database _ => "DATABASE_ERROR"

def PlaybackError.detail : PlaybackError → String
  | .noOutputSelected => "no playback output target selected"
  | .outputNotFound t => "output '" ++ t ++ "' was not found"
  | .outputUnavailable t => "output '" ++ t ++ "' is unavailable"
  | .trackNotFound id => "track '" ++ toString id ++ "' was not found"
  | .trackFileMissing p => "track audio file '" ++ p ++ "' does not exist on disk"
  | .decoderUnavailable r => "ffmpeg decoder is not available: " ++ r
  | .decoderFailed r => "decoding failed: " ++ r
  | .invalidMedia r => "invalid media file: " ++ r
  | .playbackFailed r => "playback failed: " ++ r
  | .allOutputsFailed => "all output sinks failed to render audio"
  | .receiverNotPaired r => "receiver '" ++ r ++ "' is not paired"
  | .receiverOffline r => "receiver '" ++ r ++ "' is offline"
  | .invalidSeek p => "requested seek position " ++ toString p ++ "ms is invalid"
  | .invalidVolume v => "volume " ++ toString v ++ " is out of valid range 0..=100"
  | .trackOutsideLibrary p =>
    "track file '" ++ p ++ "' is outside permitted music library paths"
  | .queueEmpty => "playback queue is empty"
  | .queueIndexInvalid i => "queue index " ++ toString i ++ " is out of bounds"
  | .noTrackSelected => "no track was selected for playback"
  | .engineUnavailable => "playback engine is unavailable"
  | .channelClosed => "playback engine command channel closed"
  | .io t => t
  | .database t => t

protected def PlaybackError.toString (e : PlaybackError) : String := e.errorCode ++ ": " ++ e.detail

inductive CommandOrigin where
  | «local»
  | remote (originDeviceId : String) (eventId : Uuid) (sequence epoch : Option ℕ)
      (bootId : Option Uuid) (lamport : Option ℕ)
deriving DecidableEq

inductive EngineEvent where
  | lifecycleChanged (lifecycle : PlaybackLifecycle) (trackId : Option Uuid)
  | trackChanged (trackId : Option Uuid) (index : ℕ)
  | positionCheckpoint (trackId : Option Uuid) (positionMs : ℕ)
  | paused (trackId : Option Uuid) (positionMs : ℕ)
  | stopped
  | seeked (trackId : Option Uuid) (positionMs : ℕ)
  | ended (trackId : Option Uuid)
  | failed (error : String)
  | volumeChanged (volume : ℕ)
  | shuffleChanged (shuffle : Bool)
  | repeatChanged (repeatMode : RepeatMode)
  | queueChanged (len : ℕ)
  | outputChanged (outputHealth : String)
deriving DecidableEq

structure TrackedEngineEvent where
  event : EngineEvent
  origin : CommandOrigin
deriving DecidableEq

inductive EngineCommand where
  | play (track : Track) (sinks : List AudioSink) (outputDesc : PlaybackOutputDescription)
      (positionMs : ℕ) (origin : CommandOrigin)
  | loadTrack (track : Track) (positionMs : ℕ) (origin : CommandOrigin)
  | jumpToIndex (index : ℕ) (origin : CommandOrigin)
  | pause (origin : CommandOrigin)
  | resume (origin : CommandOrigin)
  | seek (positionMs : ℕ) (origin : CommandOrigin)
  | «next» (origin : CommandOrigin)
  | previous (origin : CommandOrigin)
  | stop (origin : CommandOrigin)
  | setVolume (volume : ℕ) (origin : CommandOrigin)
  | setShuffle (shuffle : Bool) (origin : CommandOrigin)
  | setRepeat (repeatMode : RepeatMode) (origin : CommandOrigin)
  | setQueue (tracks : List Track) (currentIndex : ℕ) (currentTrackId : Option Uuid)
      (origin : CommandOrigin)
  | getSnapshot
  | shutdown

def EngineCommand.origin : EngineCommand → CommandOrigin
  | .play _ _ _ _ o | .loadTrack _ _ o | .jumpToIndex _ o | .pause o | .resume o | .seek _ o
  | .next o | .previous o | .stop o | .setVolume _ o | .setShuffle _ o | .setRepeat _ o
  | .setQueue _ _ _ o => o
  | .getSnapshot | .shutdown => .local

/-- The random generator, for one step: `SliceRandom::shuffle` permutes, `gen_range` stays in its
range. -/
structure Rng where
  shuffle : List ℕ → List ℕ
  genRange : ℕ → ℕ → ℕ
  shuffle_perm : ∀ l, (shuffle l).Perm l
  gen_range_mem : ∀ lo hi, lo < hi → lo ≤ genRange lo hi ∧ genRange lo hi < hi

/-- A generator that leaves the order as it is and draws the lower bound. -/
def Rng.still : Rng where
  shuffle := id
  genRange lo _ := lo
  shuffle_perm _ := List.Perm.refl _
  gen_range_mem _ _ h := ⟨Nat.le_refl _, h⟩

inductive WriteOutcome where
  | written (n : ℕ)
  | failed (error : PlaybackError)
  | timedOut

/-- The environment of one step of the engine. `now` is the monotonic clock in nanoseconds. A sink
call is looked up by the sink's place in the engine's list at that moment; `none` is success. -/
structure EngineEnv where
  now : ℕ
  rng : Rng := Rng.still
  prepare : ℕ → Bool := fun _ => true
  write : ℕ → WriteOutcome := fun _ => .written 0
  pause : ℕ → Option PlaybackError := fun _ => none
  resume : ℕ → Option PlaybackError := fun _ => none
  setVolume : ℕ → Option PlaybackError := fun _ => none
  stop : ℕ → Option PlaybackError := fun _ => none
  sinkSnapshot : ℕ → SinkSnapshot := fun _ => ⟨"", .local, .ready, 0, 0, false, none⟩
  decoderStart : Except PlaybackError Unit := .ok ()
  readPcm : Except PlaybackError ℕ := .ok 0

end MichiServer.Playback
