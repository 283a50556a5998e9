import MichiServer.Playback.Deck

/-!
# The events of a turn

An event carries the origin of the command in hand or, outside of commands, that of the timeline.
`Tells` says of a step that it leaves both origins alone, that the events it sends carry the one of that
moment, and that each change of the track among them has a given property. A lemma says it of each of
the engine's functions. The commands that move the timeline take its origin first (`takeTimeline`), and
for those the step starts after that.
-/

namespace MichiServer.Playback

open MichiServer.Logic

def EngineEvent.change : EngineEvent → Option (Option Uuid × ℕ)
  | .trackChanged id index => some (id, index)
  | _ => none

namespace PlaybackEngine

def origin (e : PlaybackEngine) : CommandOrigin :=
  e.currentCommandOrigin.getD e.currentTimelineOrigin

/-- The step keeps the origins and sends events with the one of the moment; those that say the track
has changed have the property. -/
structure Tells (P : Option Uuid → ℕ → Prop) (e e' : PlaybackEngine) : Prop where
  command : e'.currentCommandOrigin = e.currentCommandOrigin
  timeline : e'.currentTimelineOrigin = e.currentTimelineOrigin
  events : ∃ sent : List EngineEvent, e'.events = e.events ++ sent.map (⟨·, e.origin⟩) ∧
    ∀ id index, .trackChanged id index ∈ sent → P id index

variable {P : Option Uuid → ℕ → Prop} {env : EngineEnv} {e e' e'' : PlaybackEngine}

theorem Tells.origin_eq (h : e.Tells P e') : e'.origin = e.origin := by
  rw [origin, h.command, h.timeline, origin]

theorem Tells.trans (h : e.Tells P e') (h' : e'.Tells P e'') : e.Tells P e'' := by
  obtain ⟨sent, hsent, hP⟩ := h.events
  obtain ⟨sent', hsent', hP'⟩ := h'.events
  refine ⟨h'.command.trans h.command, h'.timeline.trans h.timeline, sent ++ sent', ?_, ?_⟩
  · rw [hsent', hsent, h.origin_eq, List.map_append, List.append_assoc]
  · grind

theorem tells_of_eq (hcommand : e'.currentCommandOrigin = e.currentCommandOrigin)
    (htimeline : e'.currentTimelineOrigin = e.currentTimelineOrigin)
    (hevents : e'.events = e.events) : e.Tells P e' :=
  ⟨hcommand, htimeline, [], by simpa using hevents, nofun⟩

theorem Tells.refl (e : PlaybackEngine) : e.Tells P e := tells_of_eq rfl rfl rfl

theorem Tells.of_eq (h : e'.Tells P e'')
    (hcommand : e'.currentCommandOrigin = e.currentCommandOrigin)
    (htimeline : e'.currentTimelineOrigin = e.currentTimelineOrigin)
    (hevents : e'.events = e.events) : e.Tells P e'' :=
  (tells_of_eq hcommand htimeline hevents).trans h

theorem Tells.emit {event : EngineEvent} (h : e.Tells P e') (hquiet : event.change = none) :
    e.Tells P (e'.emitEvent event) := by
  refine h.trans ⟨rfl, rfl, [event], rfl, ?_⟩
  intro id index hmem
  rw [← List.mem_singleton.mp hmem] at hquiet
  cases hquiet

theorem Tells.emitFailure {error : String} {lifecycle : PlaybackLifecycle} {trackId : Option Uuid}
    (h : e.Tells P e') : e.Tells P (e'.emitFailure error lifecycle trackId) :=
  by
  have herror : e.Tells P (e'.emitEvent (.failed error)) := h.emit rfl
  exact herror.emit rfl

theorem Tells.announce {id : Option Uuid} {index : ℕ} (h : e.Tells P e') (hP : P id index) :
    e.Tells P (e'.emitEvent (.trackChanged id index)) := by
  refine h.trans ⟨rfl, rfl, [.trackChanged id index], rfl, ?_⟩
  intro id' index' hmem
  cases List.mem_singleton.mp hmem
  exact hP

/-! ## Starting, failing and ending -/

theorem tells_failPlayback (err : PlaybackError) : e.Tells P (e.failPlayback err) := by
  apply Tells.emitFailure
  exact tells_of_eq rfl rfl rfl

theorem tells_startPlaybackInternal (env : EngineEnv) {track : Track} (positionMs : ℕ)
    (hP : e.sinks ≠ [] → P (some track.id) e.queueIndex) :
    e.Tells P (e.startPlaybackInternal env track positionMs).1 := by
  unfold startPlaybackInternal
  dsimp only
  split
  · apply Tells.emitFailure
    exact tells_of_eq rfl rfl rfl
  · rename_i hsome
    replace hP := hP fun hnil => hsome (List.isEmpty_iff.mpr hnil)
    split
    · apply Tells.emitFailure
      exact tells_of_eq rfl rfl rfl
    · split
      · apply Tells.emitFailure
        exact tells_of_eq rfl rfl rfl
      · refine Tells.emit (Tells.announce (Tells.emit (tells_of_eq ?_ ?_ ?_) rfl) hP) rfl <;> rfl

theorem tells_startOrFail (env : EngineEnv) {track : Track}
    (hP : e.sinks ≠ [] → P (some track.id) e.queueIndex) :
    e.Tells P (e.startOrFail env track) :=
  startOrFail_of (tells_startPlaybackInternal env 0 hP) fun _ _ h => h.trans (tells_failPlayback _)

def sayings (e : PlaybackEngine) : Option CommandOrigin × CommandOrigin × List TrackedEngineEvent :=
  (e.currentCommandOrigin, e.currentTimelineOrigin, e.events)

theorem sayings_cleanupPlayback (env : EngineEnv) (e : PlaybackEngine) :
    (e.cleanupPlayback env).1.sayings = e.sayings :=
  view_cleanupPlayback sayings (fun _ _ => rfl) env e

theorem tells_of_sayings (h : e'.sayings = e.sayings) : e.Tells P e' :=
  tells_of_eq (congrArg (·.1) h) (congrArg (·.2.1) h) (congrArg (·.2.2) h)

theorem tells_cleanupPlayback (env : EngineEnv) (e : PlaybackEngine) :
    e.Tells P (e.cleanupPlayback env).1 :=
  tells_of_sayings (sayings_cleanupPlayback env e)

theorem tells_cleanup (env : EngineEnv) (e : PlaybackEngine) : e.Tells P (e.cleanup env) :=
  tells_of_sayings (sayings_cleanupPlayback env e)

/-! ## Audio -/

theorem tells_beginFlow (now : ℕ) (e : PlaybackEngine) : e.Tells P (e.beginFlow now) := by
  unfold beginFlow
  split <;> exact tells_of_eq rfl rfl rfl

theorem tells_promote (e : PlaybackEngine) : e.Tells P e.promote := by
  unfold promote
  split
  · apply Tells.emit _ rfl
    exact tells_of_eq rfl rfl rfl
  · exact .refl e

theorem tells_checkpoint (now : ℕ) (e : PlaybackEngine) : e.Tells P (e.checkpoint now) := by
  unfold checkpoint
  split
  · apply Tells.emit _ rfl
    exact tells_of_eq rfl rfl rfl
  · exact .refl e

theorem tells_advanceTimeline (now n : ℕ) (e : PlaybackEngine) :
    e.Tells P (e.advanceTimeline now n) := by
  rw [advanceTimeline_eq]
  have hcounted : e.Tells P
      { e with trackPcmTimelineBytes := e.trackPcmTimelineBytes + n } := tells_of_eq rfl rfl rfl
  exact hcounted.trans ((tells_beginFlow now _).trans ((tells_promote _).trans
    (tells_checkpoint now _)))

theorem tells_afterFanOut (env : EngineEnv) (n : ℕ) (e : PlaybackEngine) :
    e.Tells P (e.afterFanOut env n) := by
  unfold afterFanOut
  dsimp only
  split
  · exact ⟨rfl, rfl, [.outputChanged "partial"], rfl, by simp⟩
  · exact tells_of_eq rfl rfl rfl

theorem tells_deliverChunk (env : EngineEnv) (n : ℕ) (e : PlaybackEngine) :
    e.Tells P (e.deliverChunk env n) := by
  by_cases hsinks : (e.fanOut env).survivingSinks = []
  · unfold deliverChunk
    dsimp only
    split
    · apply Tells.emitFailure
      exact tells_of_eq rfl rfl rfl
    · rename_i hsome
      exact absurd (List.isEmpty_iff.mpr hsinks) hsome
  · rw [deliverChunk_eq env n hsinks]
    split
    · exact (tells_afterFanOut env n e).trans (tells_advanceTimeline env.now n _)
    · exact tells_afterFanOut env n e

theorem tells_decoderFailed (err : PlaybackError) : e.Tells P (e.decoderFailed err) := by
  apply Tells.emitFailure
  exact tells_of_eq rfl rfl rfl

theorem tells_endOfQueue (e : PlaybackEngine) : e.Tells P e.endOfQueue := by
  apply Tells.emit _ rfl
  exact tells_of_eq rfl rfl rfl

/-- What is announced of the queue has the property: a track at its index, and the current one, while
there is a sink to start it on, at the index the engine is at. -/
structure Covers (P : Option Uuid → ℕ → Prop) (e : PlaybackEngine) : Prop where
  queued : ∀ track index, e.queue[index]? = some track → P (some track.id) index
  current : e.sinks ≠ [] → ∀ track, e.currentTrack = some track → P (some track.id) e.queueIndex

theorem Recued.tells (h : e.Recued e') : e.Tells P e' := by
  obtain ⟨_, _, _, rfl⟩ := h
  exact tells_of_eq rfl rfl rfl

theorem playOrderAt_track (pos : ℕ) :
    Returns (e.playOrderAt pos) fun r => e.Recued r.1 ∧ r.1.queue[r.1.queueIndex]? = some r.2 := by
  refine .skip fun index => .knowing fun track htrack => .some ⟨?_, htrack⟩
  exact ⟨e.playOrder, pos, index, rfl⟩

theorem Recued.queue_eq (h : e.Recued e') : e'.queue = e.queue := by
  obtain ⟨_, _, _, rfl⟩ := h
  rfl

/-- What is told at the end of a track. -/
theorem tells_afterEof (env : EngineEnv) (hP : Covers P e) :
    Returns (e.afterEof env) fun e' => e.Tells P e' := by
  have hat : ∀ (e₁ : PlaybackEngine) (pos : ℕ), e.Recued e₁ → Returns
      (e₁.playOrderAt pos >>= fun r => some (r.1.startOrFail env r.2)) fun e' => e.Tells P e' := by
    intro e₁ pos h₁
    refine (playOrderAt_track pos).bind fun r hr => .some ?_
    have hrecued : e.Recued r.1 := h₁.trans hr.1
    exact hrecued.tells.trans (tells_startOrFail env fun _ =>
      hP.queued r.2 r.1.queueIndex (hrecued.queue_eq ▸ hr.2))
  unfold afterEof
  cases e.repeatMode with
  | one =>
    dsimp only
    cases htrack : e.currentTrack with
    | none => exact .some (tells_endOfQueue e)
    | some track => exact .some (tells_startOrFail env fun hsinks => hP.current hsinks track htrack)
  | all =>
    refine .ite (fun _ => .some (tells_endOfQueue e)) fun _ => .ite (fun _ => ?_) fun _ =>
      hat e _ ⟨_, _, _, rfl⟩
    exact (recued_beginCycle env.rng).bind fun e₁ h₁ => hat e₁ _ h₁
  | off =>
    exact .ite (fun _ => hat e _ ⟨_, _, _, rfl⟩) fun _ => .some (tells_endOfQueue e)

theorem tells_handleEof (env : EngineEnv) (hP : Covers P e) :
    Returns (e.handleEof env) fun e' => e.Tells P e' := by
  have hended : e.Tells P ({ e with decoder := none }.emitEvent (.ended e.trackId)) := by
    apply Tells.emit _ rfl
    exact tells_of_eq rfl rfl rfl
  have hcovers : Covers P ({ e with decoder := none }.emitEvent (.ended e.trackId)) :=
    ⟨hP.queued, hP.current⟩
  exact (tells_afterEof env hcovers).mono fun e' he' => hended.trans he'

theorem tells_processAudioChunk (env : EngineEnv) (hP : Covers P e) :
    Returns (e.processAudioChunk env) fun e' => e.Tells P e' := by
  unfold processAudioChunk
  split
  · exact .some (tells_of_eq rfl rfl rfl)
  · split
    · exact tells_handleEof env hP
    · exact .some (tells_deliverChunk env _ e)
    · exact .some (tells_decoderFailed _)

/-! ## Commands -/

theorem tells_handlePlay (env : EngineEnv) {track : Track} (sinks : List AudioSink)
    (outputDesc : PlaybackOutputDescription) (positionMs : ℕ)
    (hP : P (some track.id) e.queueIndex) :
    e.takeTimeline.Tells P (e.handlePlay env track sinks outputDesc positionMs).1 := by
  unfold handlePlay
  dsimp only
  split
  · exact .refl _
  · have hindex : (e.takeTimeline.cleanupPlayback env).1.queueIndex = e.queueIndex :=
      congrArg (fun s => s.2.index) (standing_cleanupPlayback env e.takeTimeline)
    refine (tells_cleanupPlayback env e.takeTimeline).trans ?_
    refine Tells.of_eq (tells_startPlaybackInternal env positionMs fun _ => ?_) rfl rfl rfl
    dsimp only
    rw [hindex]
    exact hP

theorem tells_handleLoadTrack (env : EngineEnv) {track : Track} (positionMs : ℕ)
    (hP : P (some track.id) e.queueIndex) :
    e.takeTimeline.Tells P (e.handleLoadTrack env track positionMs).1 := by
  have hindex : (e.takeTimeline.cleanupPlayback env).1.queueIndex = e.queueIndex :=
    congrArg (fun s => s.2.index) (standing_cleanupPlayback env e.takeTimeline)
  refine (tells_cleanupPlayback env e.takeTimeline).trans ?_
  refine Tells.emit (Tells.emit (Tells.announce (tells_of_eq ?_ ?_ ?_) ?_) rfl) rfl
  · rfl
  · rfl
  · rfl
  · dsimp only
    rw [hindex]
    exact hP

theorem tells_handleJumpToIndex (env : EngineEnv) (index : ℕ) (hP : Covers P e) :
    Returns (e.handleJumpToIndex env index) fun r => e.takeTimeline.Tells P r.1 := by
  refine .ite (fun _ => .some (.refl _)) fun _ => .knowing fun track htrack => ?_
  have hannounced : P (some track.id) index := hP.queued track index htrack
  refine .ite (fun _ => .some ?_) fun _ => .some ?_
  · exact Tells.of_eq (tells_startPlaybackInternal env 0 fun _ => hannounced) rfl rfl rfl
  · exact Tells.announce (tells_of_eq rfl rfl rfl) hannounced

theorem tells_handlePause (env : EngineEnv) (e : PlaybackEngine) :
    e.takeTimeline.Tells P (e.handlePause env).1 := by
  unfold handlePause
  dsimp only
  split
  · refine Tells.emit (Tells.emit (tells_of_eq ?_ ?_ ?_) rfl) rfl <;> rfl
  · refine Tells.emit (Tells.emit (tells_of_eq ?_ ?_ ?_) rfl) rfl <;> rfl

/-- What is told of a resume. -/
theorem tells_handleResume (env : EngineEnv) (hP : Covers P e) :
    e.takeTimeline.Tells P (e.handleResume env).1 := by
  unfold handleResume
  dsimp only
  split
  · exact .refl _
  · split
    · split
      · rename_i track htrack
        have hannounced := fun hsinks => hP.current hsinks track htrack
        split
        · exact Tells.of_eq (tells_startPlaybackInternal env _ hannounced) rfl rfl rfl
        · exact tells_startPlaybackInternal env _ hannounced
      · exact .refl _
    · split
      · split
        · rename_i track htrack
          exact tells_startPlaybackInternal env _ fun hsinks => hP.current hsinks track htrack
        · exact .refl _
      · exact .refl _

theorem tells_handleSeek (env : EngineEnv) (e : PlaybackEngine) (positionMs : ℕ) :
    e.takeTimeline.Tells P (e.handleSeek env positionMs).1 := by
  unfold handleSeek
  dsimp only
  split
  · split
    · split
      · refine Tells.emit (Tells.emit (tells_of_eq ?_ ?_ ?_) rfl) rfl <;> rfl
      · apply Tells.emitFailure
        exact tells_of_eq rfl rfl rfl
    · exact .refl _
  · refine Tells.emit (tells_of_eq ?_ ?_ ?_) rfl <;> rfl

theorem tells_moveTo (env : EngineEnv) {track : Track} (hP : P (some track.id) e.queueIndex) :
    e.Tells P (e.moveTo env track).1 := by
  unfold moveTo
  split
  · exact Tells.announce (tells_of_eq rfl rfl rfl) hP
  · exact tells_startPlaybackInternal env 0 fun _ => hP

theorem tells_handleNext (env : EngineEnv) (hP : Covers P e) :
    Returns (e.handleNext env) fun r => e.Tells P r.1 := by
  refine .ite (fun _ => ?_) fun _ => .ite (fun _ => ?_) fun _ => .some ?_
  · refine (playOrderAt_track _).bind fun r hr => .some (hr.1.tells.trans (tells_moveTo env ?_))
    exact hP.queued r.2 _ (hr.1.queue_eq ▸ hr.2)
  · refine (recued_beginCycle env.rng).bind fun e₁ h₁ => .skip fun index =>
      .knowing fun track htrack => .some ?_
    refine Tells.trans h₁.tells (Tells.of_eq (tells_moveTo env ?_) rfl rfl rfl)
    exact hP.queued track index (h₁.queue_eq ▸ htrack)
  · refine (tells_cleanupPlayback env e).trans ?_
    refine Tells.emit (Tells.emit (tells_of_eq ?_ ?_ ?_) rfl) rfl <;> rfl

theorem tells_restartCurrent (env : EngineEnv) (hP : Covers P e) :
    e.Tells P (e.restartCurrent env).1 := by
  unfold restartCurrent
  split
  · rename_i track htrack
    split
    · exact tells_of_eq rfl rfl rfl
    · exact tells_startPlaybackInternal env 0 fun hsinks => hP.current hsinks track htrack
  · exact .refl e

theorem tells_handlePrevious (env : EngineEnv) (hP : Covers P e) :
    Returns (e.handlePrevious env) fun r => e.Tells P r.1 := by
  refine .ite (fun _ => .some (tells_restartCurrent env hP)) fun _ => .ite (fun _ => ?_) fun _ =>
    .some (tells_restartCurrent env hP)
  refine (playOrderAt_track _).bind fun r hr => .some (hr.1.tells.trans (tells_moveTo env ?_))
  exact hP.queued r.2 _ (hr.1.queue_eq ▸ hr.2)

theorem tells_handleStop (env : EngineEnv) (e : PlaybackEngine) :
    Tells P { e with currentTimelineOrigin := .local } (e.handleStop env).1 := by
  refine (tells_cleanupPlayback env _).trans ?_
  refine Tells.emit (Tells.emit (tells_of_eq ?_ ?_ ?_) rfl) rfl <;> rfl

theorem tells_handleSetVolume (env : EngineEnv) (e : PlaybackEngine) (volume : ℕ) :
    e.Tells P (e.handleSetVolume env volume).1 := by
  have hchanged : e.Tells P
      ({ e with volume := min volume 100 }.emitEvent (.volumeChanged (min volume 100))) := by
    apply Tells.emit _ rfl
    exact tells_of_eq rfl rfl rfl
  unfold handleSetVolume
  dsimp only
  split_ifs <;> exact hchanged.trans (tells_of_eq rfl rfl rfl)

theorem tells_handleSetShuffle (env : EngineEnv) (e : PlaybackEngine) (shuffle : Bool) :
    Returns (e.handleSetShuffle env shuffle) fun r => e.Tells P r.1 := by
  refine (recued_recomputePlayOrder env.rng _).bind fun e₁ h₁ => .some ?_
  apply Tells.emit _ rfl
  exact Tells.of_eq h₁.tells rfl rfl rfl

/-- What is told of a new queue. -/
theorem tells_handleSetQueue (env : EngineEnv) (tracks : List Track) (currentIndex : ℕ)
    (currentTrackId : Option Uuid)
    (hP : P ((e.queuedTrack tracks
      (min (resolvedIndex tracks currentIndex currentTrackId) (tracks.length - 1))).map Track.id)
      (min (resolvedIndex tracks currentIndex currentTrackId) (tracks.length - 1))) :
    Returns (e.handleSetQueue env tracks currentIndex currentTrackId) fun r =>
      e.Tells P r.1 := by
  refine (recomputePlayOrder_eq env.rng _).bind fun e₁ h₁ => .some ?_
  obtain ⟨order, pos, rfl⟩ := h₁
  dsimp only
  unfold queuedTrack at hP
  split
  all_goals
    rename_i hvacant
    refine Tells.announce (Tells.emit (tells_of_eq ?_ ?_ ?_) rfl) ?_
    · rfl
    · rfl
    · rfl
    · first
      | rw [if_pos hvacant] at hP; exact hP
      | rw [if_neg hvacant] at hP; exact hP

end PlaybackEngine

/-- The origin of the timeline after the command: six commands move the timeline to their own, `Stop`
to the local one. -/
def EngineCommand.timelineAfter (before : CommandOrigin) : EngineCommand → CommandOrigin
  | .play _ _ _ _ origin | .loadTrack _ _ origin | .jumpToIndex _ origin | .pause origin
  | .resume origin | .seek _ origin => origin
  | .stop _ => .local
  | _ => before

def EngineCommand.Announces (P : Option Uuid → ℕ → Prop) (e : PlaybackEngine) : EngineCommand → Prop
  | .play track _ _ _ _ | .loadTrack track _ _ => P (some track.id) e.queueIndex
  | .setQueue tracks currentIndex currentTrackId _ =>
    let index := min (PlaybackEngine.resolvedIndex tracks currentIndex currentTrackId)
      (tracks.length - 1)
    P ((e.queuedTrack tracks index).map Track.id) index
  | .jumpToIndex _ _ | .resume _ | .next _ | .previous _ => e.Covers P
  | _ => True

namespace PlaybackEngine

variable {P : Option Uuid → ℕ → Prop} {e e' : PlaybackEngine}

/-- What is told of a command carries its origin. -/
theorem tells_handleCommandInner (env : EngineEnv) {cmd : EngineCommand}
    (horigin : e.currentCommandOrigin = some cmd.origin) (hP : cmd.Announces P e) :
    Returns (e.handleCommandInner env cmd) fun r =>
      Tells P { e with currentTimelineOrigin := cmd.timelineAfter e.currentTimelineOrigin } r.1 := by
  have htaken : e.takeTimeline = { e with currentTimelineOrigin := cmd.origin } := by
    unfold takeTimeline
    rw [horigin]
    rfl
  cases cmd with
  | play track sinks outputDesc positionMs _ =>
    exact .some (htaken ▸ tells_handlePlay env sinks outputDesc positionMs hP)
  | loadTrack track positionMs _ => exact .some (htaken ▸ tells_handleLoadTrack env positionMs hP)
  | jumpToIndex index _ =>
    exact (tells_handleJumpToIndex env index hP).map fun _ hr => htaken ▸ hr
  | pause _ => exact .some (htaken ▸ tells_handlePause env e)
  | resume _ => exact .some (htaken ▸ tells_handleResume env hP)
  | seek positionMs _ => exact .some (htaken ▸ tells_handleSeek env e positionMs)
  | «next» _ => exact (tells_handleNext env hP).map fun _ hr => hr
  | previous _ => exact (tells_handlePrevious env hP).map fun _ hr => hr
  | stop _ => exact .some (tells_handleStop env e)
  | setVolume volume _ => exact .some (tells_handleSetVolume env e volume)
  | setShuffle shuffle _ => exact (tells_handleSetShuffle env e shuffle).map fun _ hr => hr
  | setRepeat repeatMode _ =>
    refine .some (Tells.emit ?_ rfl)
    exact tells_of_eq rfl rfl rfl
  | setQueue tracks currentIndex currentTrackId _ =>
    exact (tells_handleSetQueue env tracks currentIndex currentTrackId hP).map fun _ hr => hr
  | getSnapshot => exact .some (.refl e)
  | shutdown => exact .some (tells_cleanup env e)

/-- What a turn of the loop sends: the origins it leaves, and the events with the one they carry. -/
structure Told (P : Option Uuid → ℕ → Prop) (carried timeline : CommandOrigin)
    (e e' : PlaybackEngine) : Prop where
  command : e'.currentCommandOrigin = none
  timeline : e'.currentTimelineOrigin = timeline
  events : ∃ sent : List EngineEvent, e'.events = e.events ++ sent.map (⟨·, carried⟩) ∧
    ∀ id index, .trackChanged id index ∈ sent → P id index

theorem Told.of_sayings {carried timeline : CommandOrigin} {e'' : PlaybackEngine}
    (h : e.Told P carried timeline e') (heq : e''.sayings = e'.sayings) :
    e.Told P carried timeline e'' := by
  obtain ⟨hcommand, htimeline, hevents⟩ : _ ∧ _ ∧ _ :=
    ⟨congrArg (·.1) heq, congrArg (·.2.1) heq, congrArg (·.2.2) heq⟩
  refine ⟨hcommand.trans h.command, htimeline.trans h.timeline, ?_⟩
  obtain ⟨sent, hsent, hP⟩ := h.events
  exact ⟨sent, hevents.trans hsent, hP⟩

theorem told_handleCommand (env : EngineEnv) {cmd : EngineCommand} (hP : cmd.Announces P e) :
    Returns (e.handleCommand env cmd) fun r =>
      e.Told P cmd.origin (cmd.timelineAfter e.currentTimelineOrigin) r.1 := by
  let begun : PlaybackEngine := { e with currentCommandOrigin := some cmd.origin }
  have hannounces : cmd.Announces P begun := by
    cases cmd with
    | jumpToIndex _ _ => exact ⟨hP.queued, hP.current⟩
    | resume _ => exact ⟨hP.queued, hP.current⟩
    | «next» _ => exact ⟨hP.queued, hP.current⟩
    | previous _ => exact ⟨hP.queued, hP.current⟩
    | _ => exact hP
  refine (tells_handleCommandInner (e := begun) env rfl hannounces).bind fun r hr => .some ?_
  exact ⟨rfl, hr.timeline, hr.events⟩

end PlaybackEngine

def EngineTurn.Announces (P : Option Uuid → ℕ → Prop) (e : PlaybackEngine) : EngineTurn → Prop
  | .recv _ cmd => cmd.Announces P e
  | .audio _ => e.Covers P
  | .closed _ => True

/-- The origin the events of the turn carry: that of its command, or of the timeline. -/
def EngineTurn.carried (timeline : CommandOrigin) : EngineTurn → CommandOrigin
  | .recv _ cmd => cmd.origin
  | .audio _ | .closed _ => timeline

def EngineTurn.timelineAfter (before : CommandOrigin) : EngineTurn → CommandOrigin
  | .recv _ cmd => cmd.timelineAfter before
  | .audio _ | .closed _ => before

namespace EngineTask

open PlaybackEngine

/-- **What a turn sends.** The events of a command carry its origin, those of the audio branch the
timeline's. -/
theorem told_turn {P : Option Uuid → ℕ → Prop} {t : EngineTask} {input : EngineTurn}
    (hrunning : t.running = true) (hcommand : t.engine.currentCommandOrigin = none)
    (hP : input.Announces P t.engine) :
    Returns (t.turn input) fun t' =>
      t.engine.Told P (input.carried t.engine.currentTimelineOrigin)
        (input.timelineAfter t.engine.currentTimelineOrigin) t'.engine := by
  have htold : ∀ e', t.engine.Tells P e' → t.engine.Told P t.engine.currentTimelineOrigin
      t.engine.currentTimelineOrigin e' := by
    intro e' h
    have horigin : t.engine.origin = t.engine.currentTimelineOrigin := by rw [origin, hcommand]; rfl
    exact ⟨h.command.trans hcommand, h.timeline, horigin ▸ h.events⟩
  refine .ite (fun hstopped => absurd hrunning hstopped) fun _ => ?_
  cases input with
  | recv env cmd =>
    refine (told_handleCommand env hP).bind fun r hr => ?_
    exact .ite (fun _ => .some hr) fun _ => .some (hr.of_sayings (sayings_cleanupPlayback env r.1))
  | closed env => exact .some (htold _ (tells_cleanup env t.engine))
  | audio env =>
    refine .ite (fun _ => ?_) fun _ => .some (htold _ (.refl _))
    exact (tells_processAudioChunk env hP).bind fun e he => .some (htold e he)

end EngineTask

end MichiServer.Playback
