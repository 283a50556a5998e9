import Mathlib
import MichiServer.Playback.Engine

/-!
# The engine task

What the engine does with an audio chunk, at the end of a track and on a command, and the loop of
`run` that alternates between the two. The arms of `handle_command_inner` are one definition each.
-/

namespace MichiServer.Playback

open MichiServer.Order

namespace PlaybackEngine

/-! ## Audio -/

def chunkSize (e : PlaybackEngine) : ℕ := max (e.format.bytesForDurationMs 10) 1920

def recordFailedSink (failedSinks : List SinkSnapshot) (snap : SinkSnapshot) :
    List SinkSnapshot :=
  if failedSinks.length ≥ maxFailedSinkSnapshots then failedSinks.tail ++ [snap]
  else failedSinks ++ [snap]

structure FanOut where
  deliveredBytes : ℕ := 0
  survivingSinks : List AudioSink := []
  failedSinks : List SinkSnapshot

def FanOut.collect (env : EngineEnv) (f : FanOut) (sink : AudioSink × ℕ) : FanOut :=
  let failed error := { env.sinkSnapshot sink.2 with state := .failed, lastError := some error }
  match env.write sink.2 with
  | .written n =>
    { f with
      deliveredBytes := f.deliveredBytes + n
      survivingSinks := f.survivingSinks ++ [sink.1] }
  | .failed err =>
    { f with failedSinks := recordFailedSink f.failedSinks (failed err.toString) }
  | .timedOut =>
    { f with
      failedSinks := recordFailedSink f.failedSinks (failed "write timed out after 250ms") }

def fanOut (env : EngineEnv) (e : PlaybackEngine) : FanOut :=
  e.sinks.zipIdx.foldl (FanOut.collect env) { failedSinks := e.failedSinks }

/-- The timeline moves by a chunk of `n` bytes that some sink took: the first one starts the audio,
enough of them are evidence of playing, and the position is reported every 2.5 seconds. -/
def advanceTimeline (now n : ℕ) (e : PlaybackEngine) : PlaybackEngine :=
  let e := { e with trackPcmTimelineBytes := e.trackPcmTimelineBytes + n }
  let e :=
    if e.state = .preparing ∨ e.state = .buffering then
      { e with
        state := .audioFlowing
        playingStartedAt := some (e.playingStartedAt.getD now) }
    else e
  let e :=
    if e.state = .audioFlowing ∧
        e.trackPcmTimelineBytes ≥
          e.format.bytesForDurationMs playingEvidenceThresholdMs then
      { e with state := .playing }.emitEvent (.lifecycleChanged .playing e.trackId)
    else e
  if (e.state = .playing ∨ e.state = .audioFlowing) ∧ now - e.lastCheckpoint ≥ 2500000000 then
    let e := { e with lastCheckpoint := now }
    e.emitEvent (.positionCheckpoint e.trackId (e.calculateCurrentPositionMs now))
  else e

def deliverChunk (env : EngineEnv) (n : ℕ) (e : PlaybackEngine) : PlaybackEngine :=
  let e := { e with trackBytesDecoded := e.trackBytesDecoded + n }
  let f := e.fanOut env
  let totalSinks := e.sinks.length
  let e := { e with failedSinks := f.failedSinks }
  if f.survivingSinks.isEmpty then
    emitFailure "all output sinks failed" .failed e.trackId
      { e with
        sinks := []
        state := .failed
        outputHealth := "failed"
        lastError := some "all output sinks failed"
        decoder := none
        playingStartedAt := none }
  else
    let e :=
      if f.survivingSinks.length < totalSinks then
        { e with outputHealth := "partial" }.emitEvent (.outputChanged "partial")
      else e
    let e := { e with
      sinks := f.survivingSinks
      networkBytesSentTotal := e.networkBytesSentTotal + f.deliveredBytes }
    if f.deliveredBytes > 0 then e.advanceTimeline env.now n else e

def decoderFailed (err : PlaybackError) (e : PlaybackEngine) : PlaybackEngine :=
  emitFailure err.toString .failed e.trackId
    { e with
      state := .failed
      outputHealth := "failed"
      lastError := some err.toString
      decoder := none
      playingStartedAt := none }

/-- Going to the place `pos` of the play order: the index there, and the track at that index. -/
def playOrderAt (pos : ℕ) (e : PlaybackEngine) : Option (PlaybackEngine × Track) := do
  let index ← e.playOrder[pos]?
  let track ← e.queue[index]?
  some ({ e with playOrderPos := pos, queueIndex := index }, track)

def endOfQueue (e : PlaybackEngine) : PlaybackEngine :=
  { e with state := .ended }.emitEvent (.lifecycleChanged .ended none)

/-- The block `handle_eof` and `Next` share at the end of a cycle: a shuffled order is drawn anew, any
other is begun again. -/
def beginCycle (rng : Rng) (e : PlaybackEngine) : Option PlaybackEngine :=
  if e.shuffle then e.recomputePlayOrderNewCycle rng e.queueIndex
  else some { e with playOrderPos := 0 }

/-- What `handle_eof` does after it has announced the end: the track again, the next one of the
order, or the end of the queue. -/
def afterEof (env : EngineEnv) (e : PlaybackEngine) : Option PlaybackEngine :=
  match e.repeatMode with
  | .one =>
    match e.currentTrack with
    | some track => some (e.startOrFail env track)
    | none => some e.endOfQueue
  | .all =>
    if e.queue.isEmpty then some e.endOfQueue
    else if e.playOrderPos + 1 ≥ e.playOrder.length then do
      let e ← e.beginCycle env.rng
      let r ← e.playOrderAt e.playOrderPos
      some (r.1.startOrFail env r.2)
    else do
      let r ← e.playOrderAt (e.playOrderPos + 1)
      some (r.1.startOrFail env r.2)
  | .off =>
    if ¬ e.queue.isEmpty ∧ e.playOrderPos + 1 < e.playOrder.length then do
      let r ← e.playOrderAt (e.playOrderPos + 1)
      some (r.1.startOrFail env r.2)
    else some e.endOfQueue

def handleEof (env : EngineEnv) (e : PlaybackEngine) : Option PlaybackEngine :=
  ({ e with decoder := none }.emitEvent (.ended e.trackId)).afterEof env

/-- `process_audio_chunk`. A read never returns more than the buffer holds. -/
def processAudioChunk (env : EngineEnv) (e : PlaybackEngine) : Option PlaybackEngine :=
  match e.decoder with
  | none => some { e with state := .stopped }
  | some _ =>
    match env.readPcm with
    | .ok 0 => e.handleEof env
    | .ok (n + 1) => some (e.deliverChunk env (min (n + 1) e.chunkSize))
    | .error err => some (e.decoderFailed err)

/-! ## Commands -/

/-- A command moves the timeline: its origin is the timeline's from now on. -/
def takeTimeline (e : PlaybackEngine) : PlaybackEngine :=
  { e with currentTimelineOrigin := e.currentCommandOrigin.getD .local }

def handlePlay (env : EngineEnv) (track : Track) (sinks : List AudioSink)
    (outputDesc : PlaybackOutputDescription) (positionMs : ℕ) (e : PlaybackEngine) :
    PlaybackEngine × Except PlaybackError Unit :=
  let e := e.takeTimeline
  if sinks.isEmpty then (e, .error .noOutputSelected)
  else
    let e := (e.cleanupPlayback env).1
    { e with sinks := sinks, outputDesc := some outputDesc }.startPlaybackInternal
      env track positionMs

def handleLoadTrack (env : EngineEnv) (track : Track) (positionMs : ℕ) (e : PlaybackEngine) :
    PlaybackEngine × Except PlaybackError Unit :=
  let e := (e.takeTimeline.cleanupPlayback env).1
  let e := { e with
    currentTrack := some track
    basePositionMs := positionMs
    state := .paused }
  let e := e.emitEvent (.trackChanged e.trackId e.queueIndex)
  let e := e.emitEvent (.paused e.trackId positionMs)
  (e.emitEvent (.lifecycleChanged e.state e.trackId), .ok ())

def handleJumpToIndex (env : EngineEnv) (index : ℕ) (e : PlaybackEngine) :
    Option (PlaybackEngine × Except PlaybackError Unit) :=
  let e := e.takeTimeline
  if e.queue.isEmpty ∨ index ≥ e.queue.length then some (e, .error (.queueIndexInvalid index))
  else do
    let e := { e with
      queueIndex := index
      playOrderPos := (e.playOrder.idxOf? index).getD 0 }
    let targetTrack ← e.queue[index]?
    if (e.state.isPlaying ∨ e.state = .preparing) ∧ ¬ e.sinks.isEmpty then
      some (e.startPlaybackInternal env targetTrack 0)
    else
      let e := { e with
        generationId := e.generationId + 1
        trackBytesDecoded := 0
        trackPcmTimelineBytes := 0
        currentTrack := some targetTrack
        basePositionMs := 0 }
      some (e.emitEvent (.trackChanged e.trackId e.queueIndex), .ok ())

def sinkErrors (call : ℕ → Option PlaybackError) (e : PlaybackEngine) : ℕ :=
  ((List.range e.sinks.length).filterMap call).length

def handlePause (env : EngineEnv) (e : PlaybackEngine) :
    PlaybackEngine × Except PlaybackError Unit :=
  let e := e.takeTimeline
  let pos := e.calculateCurrentPositionMs env.now
  let e := { e with decoder := none, playingStartedAt := none, basePositionMs := pos }
  let e :=
    if e.sinkErrors env.pause = e.sinks.length ∧ ¬ e.sinks.isEmpty then
      { e with outputHealth := "failed" }
    else e
  let e := { e with state := .paused }
  let e := e.emitEvent (.paused e.trackId pos)
  (e.emitEvent (.lifecycleChanged e.state e.trackId), .ok ())

def handleResume (env : EngineEnv) (e : PlaybackEngine) :
    PlaybackEngine × Except PlaybackError Unit :=
  let e := e.takeTimeline
  if e.sinks.isEmpty then (e, .error .noOutputSelected)
  else if e.state = .paused then
    match e.currentTrack with
    | some track =>
      let e :=
        if e.sinkErrors env.resume = e.sinks.length then { e with outputHealth := "failed" }
        else e
      e.startPlaybackInternal env track e.basePositionMs
    | none => (e, .error (.playbackFailed "no track to resume"))
  else if e.state = .idle ∨ e.state = .stopped then
    match e.currentTrack with
    | some track => e.startPlaybackInternal env track e.basePositionMs
    | none => (e, .error (.playbackFailed "no track loaded"))
  else (e, .ok ())

def handleSeek (env : EngineEnv) (positionMs : ℕ) (e : PlaybackEngine) :
    PlaybackEngine × Except PlaybackError Unit :=
  let e := e.takeTimeline
  if e.state.isPlaying then
    match e.currentTrack with
    | some track =>
      let e := { e with
        decoder := none
        generationId := e.generationId + 1
        trackBytesDecoded := 0
        trackPcmTimelineBytes := 0
        failedSinks := []
        playingStartedAt := none
        state := .preparing }
      match env.decoderStart with
      | .ok () =>
        let e := { e with
          decoder := some ⟨track.filePath, positionMs⟩
          basePositionMs := positionMs }
        let e := e.emitEvent (.seeked (some track.id) positionMs)
        (e.emitEvent (.lifecycleChanged e.state (some track.id)), .ok ())
      | .error err =>
        (emitFailure err.toString .failed (some track.id)
          { e with state := .failed, decoder := none, lastError := some err.toString },
          .error err)
    | none => (e, .ok ())
  else
    let e := { e with basePositionMs := positionMs }
    (e.emitEvent (.seeked e.trackId positionMs), .ok ())

/-- What `Next` and `Previous` do with the track they moved to: it is started, or with no sinks only
selected. -/
def moveTo (env : EngineEnv) (track : Track) (e : PlaybackEngine) :
    PlaybackEngine × Except PlaybackError Unit :=
  if e.sinks.isEmpty then
    let e := { e with
      generationId := e.generationId + 1
      trackBytesDecoded := 0
      trackPcmTimelineBytes := 0
      currentTrack := some track
      basePositionMs := 0
      playingStartedAt := none }
    (e.emitEvent (.trackChanged e.trackId e.queueIndex), .ok ())
  else e.startPlaybackInternal env track 0

def handleNext (env : EngineEnv) (e : PlaybackEngine) :
    Option (PlaybackEngine × Except PlaybackError Unit) :=
  if ¬ e.queue.isEmpty ∧ e.playOrderPos + 1 < e.playOrder.length then do
    let r ← e.playOrderAt (e.playOrderPos + 1)
    some (r.1.moveTo env r.2)
  else if e.repeatMode = .all ∧ ¬ e.queue.isEmpty then do
    let e ← e.beginCycle env.rng
    -- the source reads `play_order[0]` and leaves the position where the branch above put it
    let index ← e.playOrder[0]?
    let nextTrack ← e.queue[index]?
    some ({ e with queueIndex := index }.moveTo env nextTrack)
  else
    let e := { (e.cleanupPlayback env).1 with state := .ended }
    let e := e.emitEvent (.ended e.trackId)
    some (e.emitEvent (.lifecycleChanged .ended none), .ok ())

/-- What `Previous` does when it stays on the current track: it is started again, or with no sinks
only rewound. -/
def restartCurrent (env : EngineEnv) (e : PlaybackEngine) :
    PlaybackEngine × Except PlaybackError Unit :=
  match e.currentTrack with
  | some track =>
    if e.sinks.isEmpty then
      ({ e with basePositionMs := 0, playingStartedAt := none }, .ok ())
    else e.startPlaybackInternal env track 0
  | none => (e, .ok ())

def handlePrevious (env : EngineEnv) (e : PlaybackEngine) :
    Option (PlaybackEngine × Except PlaybackError Unit) :=
  if e.basePositionMs > 3000 ∨
      e.playingStartedAt.any fun started => elapsedMs env.now started > 3000 then
    some (e.restartCurrent env)
  else if e.playOrderPos > 0 ∧ ¬ e.queue.isEmpty then do
    let r ← e.playOrderAt (e.playOrderPos - 1)
    some (r.1.moveTo env r.2)
  else some (e.restartCurrent env)

def handleStop (env : EngineEnv) (e : PlaybackEngine) :
    PlaybackEngine × Except PlaybackError Unit :=
  let (e, res) := { e with currentTimelineOrigin := .local }.cleanupPlayback env
  let e := { e with basePositionMs := 0, state := .stopped }
  let e := e.emitEvent .stopped
  (e.emitEvent (.lifecycleChanged e.state none), res)

def handleSetVolume (env : EngineEnv) (volume : ℕ) (e : PlaybackEngine) :
    PlaybackEngine × Except PlaybackError Unit :=
  let e := { e with volume := min volume 100 }
  let e := e.emitEvent (.volumeChanged e.volume)
  if e.sinks.isEmpty then (e, .ok ())
  else if e.sinkErrors env.setVolume = e.sinks.length then
    ({ e with outputHealth := "failed" }, .error .allOutputsFailed)
  else if e.sinkErrors env.setVolume > 0 then ({ e with outputHealth := "partial" }, .ok ())
  else (e, .ok ())

def handleSetShuffle (env : EngineEnv) (shuffle : Bool) (e : PlaybackEngine) :
    Option (PlaybackEngine × Except PlaybackError Unit) := do
  let e ← { e with shuffle := shuffle }.recomputePlayOrder env.rng e.queueIndex
  some (e.emitEvent (.shuffleChanged e.shuffle), .ok ())

def handleSetRepeat (repeatMode : RepeatMode) (e : PlaybackEngine) :
    PlaybackEngine × Except PlaybackError Unit :=
  let e := { e with repeatMode := repeatMode }
  (e.emitEvent (.repeatChanged e.repeatMode), .ok ())

/-- The index `SetQueue` starts from: the first track with the wanted id, or the index given. -/
def resolvedIndex (tracks : List Track) (currentIndex : ℕ) (currentTrackId : Option Uuid) :
    ℕ :=
  match currentTrackId with
  | some targetId => (tracks.findIdx? fun t => t.id = targetId).getD currentIndex
  | none => currentIndex

def handleSetQueue (env : EngineEnv) (tracks : List Track) (currentIndex : ℕ)
    (currentTrackId : Option Uuid) (e : PlaybackEngine) :
    Option (PlaybackEngine × Except PlaybackError Unit) := do
  let index := min (resolvedIndex tracks currentIndex currentTrackId) (tracks.length - 1)
  let e ← { e with queue := tracks, queueIndex := index }.recomputePlayOrder env.rng index
  let e :=
    if ¬ e.state.isPlaying ∧ e.currentTrack.isNone then
      { e with currentTrack := e.queue[e.queueIndex]? }
    else e
  let e := e.emitEvent (.queueChanged e.queue.length)
  some (e.emitEvent (.trackChanged e.trackId e.queueIndex), .ok ())

def respond (r : PlaybackEngine × Except PlaybackError Unit) :
    PlaybackEngine × EngineResponse × Bool :=
  (r.1, .done r.2, true)

/-- `handle_command_inner`: the engine, the answer, and whether the task goes on. -/
def handleCommandInner (env : EngineEnv) (cmd : EngineCommand) (e : PlaybackEngine) :
    Option (PlaybackEngine × EngineResponse × Bool) :=
  match cmd with
  | .play track sinks outputDesc positionMs _ =>
    some (respond (e.handlePlay env track sinks outputDesc positionMs))
  | .loadTrack track positionMs _ => some (respond (e.handleLoadTrack env track positionMs))
  | .jumpToIndex index _ => (e.handleJumpToIndex env index).map respond
  | .pause _ => some (respond (e.handlePause env))
  | .resume _ => some (respond (e.handleResume env))
  | .seek positionMs _ => some (respond (e.handleSeek env positionMs))
  | .next _ => (e.handleNext env).map respond
  | .previous _ => (e.handlePrevious env).map respond
  | .stop _ => some (respond (e.handleStop env))
  | .setVolume volume _ => some (respond (e.handleSetVolume env volume))
  | .setShuffle shuffle _ => (e.handleSetShuffle env shuffle).map respond
  | .setRepeat repeatMode _ => some (respond (e.handleSetRepeat repeatMode))
  | .setQueue tracks currentIndex currentTrackId _ =>
    (e.handleSetQueue env tracks currentIndex currentTrackId).map respond
  | .getSnapshot => some (e, .snapshot (e.snapshot env), true)
  | .shutdown => some (e.cleanup env, .terminated, false)

def handleCommand (env : EngineEnv) (cmd : EngineCommand) (e : PlaybackEngine) :
    Option (PlaybackEngine × EngineResponse × Bool) := do
  let (e, response, go) ←
    { e with currentCommandOrigin := some cmd.origin }.handleCommandInner env cmd
  some ({ e with currentCommandOrigin := none }, response, go)

end PlaybackEngine

/-! ## The loop -/

/-- One turn of the loop of `run`: a command is received, the channel is found closed, or the audio
branch is taken. -/
inductive EngineTurn where
  | recv (env : EngineEnv) (cmd : EngineCommand)
  | closed (env : EngineEnv)
  | audio (env : EngineEnv)

structure EngineTask where
  engine : PlaybackEngine
  running : Bool := true

namespace EngineTask

/-- The loop decodes audio, besides receiving commands, in these states. -/
def takesAudio (e : PlaybackEngine) : Bool :=
  e.state.isPlaying || e.state = .preparing || e.state = .buffering

/-- One turn of the loop. After the loop the engine is cleaned up, and nothing runs any more; the
audio branch is there only in the states that decode. -/
def turn (t : EngineTask) (input : EngineTurn) : Option EngineTask :=
  if ¬ t.running then some t
  else
    match input with
    | .recv env cmd => do
      let (e, _, go) ← t.engine.handleCommand env cmd
      if go then some { engine := e } else some { engine := e.cleanup env, running := false }
    | .closed env => some { engine := t.engine.cleanup env, running := false }
    | .audio env =>
      if takesAudio t.engine then do
        let e ← t.engine.processAudioChunk env
        some { engine := e }
      else some t

/-- `run`: the loop over the turns it takes, from the engine as it was made. -/
def run (t : EngineTask) (turns : List EngineTurn) : Option EngineTask := turns.foldlM turn t

end EngineTask

end MichiServer.Playback
