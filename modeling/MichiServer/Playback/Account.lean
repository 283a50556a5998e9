import MichiServer.Logic.Succeeds
import MichiServer.Playback.Run

/-!
# The engine's account of what it played

`account` is the part of the engine that says how far the current generation has come: its number, the
bytes decoded and the bytes of the timeline, with the lifecycle and the sinks they belong to. Outside
the delivery of a chunk a step does one of two things to it: it leaves the counters as they are and does
not bring the engine to `Playing`, or it begins a new generation with both counters at zero, which is
not `Playing` yet. `Account.Moves` says so, and a lemma says it of each of the engine's functions.
-/

namespace MichiServer.Playback

open MichiServer.Logic

structure Account where
  format : PcmFormat
  generationId : ℕ
  trackBytesDecoded : ℕ
  trackPcmTimelineBytes : ℕ
  state : PlaybackLifecycle
  sinks : List AudioSink

inductive Account.Moves (a a' : Account) : Prop
  /-- The generation goes on, and is playing only if it was, with sinks if it had some. -/
  | same (format : a'.format = a.format) (generationId : a'.generationId = a.generationId)
      (decoded : a'.trackBytesDecoded = a.trackBytesDecoded)
      (timeline : a'.trackPcmTimelineBytes = a.trackPcmTimelineBytes)
      (playing : a'.state = .playing → a.state = .playing ∧ (a.sinks ≠ [] → a'.sinks ≠ []))
  /-- Another generation has begun. -/
  | reset (format : a'.format = a.format) (generationId : a.generationId < a'.generationId)
      (decoded : a'.trackBytesDecoded = 0) (timeline : a'.trackPcmTimelineBytes = 0)
      (playing : a'.state ≠ .playing)

namespace Account

variable {a b c : Account}

theorem Moves.refl (a : Account) : Moves a a :=
  .same rfl rfl rfl rfl fun h => ⟨h, fun hs => hs⟩

theorem Moves.trans (h₁ : Moves a b) (h₂ : Moves b c) : Moves a c := by
  cases h₂ with
  | reset format generationId decoded timeline playing =>
    cases h₁ with
    | same format' generationId' decoded' timeline' playing' =>
      exact .reset (format.trans format') (generationId' ▸ generationId) decoded timeline playing
    | reset format' generationId' decoded' timeline' playing' =>
      exact .reset (format.trans format') (Nat.lt_trans generationId' generationId) decoded timeline
        playing
  | same format generationId decoded timeline playing =>
    cases h₁ with
    | same format' generationId' decoded' timeline' playing' =>
      refine .same (format.trans format') (generationId.trans generationId') (decoded.trans decoded')
        (timeline.trans timeline') fun hc => ?_
      grind
    | reset format' generationId' decoded' timeline' playing' =>
      exact .reset (format.trans format') (generationId ▸ generationId') (decoded.trans decoded')
        (timeline.trans timeline') fun hc => playing' (playing hc).1

end Account

namespace PlaybackEngine

def account (e : PlaybackEngine) : Account :=
  ⟨e.format, e.generationId, e.trackBytesDecoded, e.trackPcmTimelineBytes, e.state, e.sinks⟩

abbrev Moves (e e' : PlaybackEngine) : Prop := e.account.Moves e'.account

/-- The step keeps the account, or begins another generation, and does not end in `Playing`. -/
def Settles (e e' : PlaybackEngine) : Prop := e.Moves e' ∧ e'.state ≠ .playing

variable {env : EngineEnv} {e e' : PlaybackEngine}

theorem moves_of_eq (h : e'.account = e.account) : e.Moves e' := by
  unfold Moves
  rw [h]
  exact .refl _

theorem settles_of_state (hformat : e'.format = e.format)
    (hgeneration : e'.generationId = e.generationId)
    (hdecoded : e'.trackBytesDecoded = e.trackBytesDecoded)
    (htimeline : e'.trackPcmTimelineBytes = e.trackPcmTimelineBytes)
    (hstate : e'.state ≠ .playing) : e.Settles e' :=
  ⟨.same hformat hgeneration hdecoded htimeline fun h => absurd h hstate, hstate⟩

theorem Moves.settles {e'' : PlaybackEngine} (h : e.Moves e') (h' : e'.Settles e'') : e.Settles e'' :=
  ⟨h.trans h'.1, h'.2⟩

/-! ## Starting, failing and ending -/

theorem settles_failPlayback (err : PlaybackError) : e.Settles (e.failPlayback err) :=
  settles_of_state rfl rfl rfl rfl (by simp [failPlayback, emitFailure, emitEvent])

theorem settles_startPlaybackInternal (env : EngineEnv) (e : PlaybackEngine) (track : Track)
    (positionMs : ℕ) : e.Settles (e.startPlaybackInternal env track positionMs).1 := by
  unfold startPlaybackInternal
  dsimp only
  split
  · exact settles_of_state rfl rfl rfl rfl (by simp [emitFailure, emitEvent])
  · split
    · exact settles_of_state rfl rfl rfl rfl (by simp [emitFailure, emitEvent])
    · split
      · exact settles_of_state rfl rfl rfl rfl (by simp [emitFailure, emitEvent])
      · exact ⟨.reset rfl (Nat.lt_succ_self _) rfl rfl (by simp [account, emitEvent]),
          by simp [emitEvent]⟩

theorem settles_startOrFail (env : EngineEnv) (e : PlaybackEngine) (track : Track) :
    e.Settles (e.startOrFail env track) :=
  startOrFail_of (settles_startPlaybackInternal env e track 0) fun _ _ h =>
    h.1.settles (settles_failPlayback _)

@[simp] theorem account_cleanupPlayback (env : EngineEnv) (e : PlaybackEngine) :
    (e.cleanupPlayback env).1.account = e.account :=
  view_cleanupPlayback account (fun _ _ => rfl) env e

theorem settles_endOfQueue (e : PlaybackEngine) : e.Settles e.endOfQueue :=
  settles_of_state rfl rfl rfl rfl (by simp [endOfQueue, emitEvent])

theorem settles_decoderFailed (err : PlaybackError) : e.Settles (e.decoderFailed err) :=
  settles_of_state rfl rfl rfl rfl (by simp [decoderFailed, emitFailure, emitEvent])

/-! ## The queue -/

/-- Nothing but the play order, the place in it and the index there has changed. -/
def Recued (e e' : PlaybackEngine) : Prop :=
  ∃ order pos index,
    e' = { e with playOrder := order, playOrderPos := pos, queueIndex := index }

theorem Recued.trans {e'' : PlaybackEngine} (h : e.Recued e') (h' : e'.Recued e'') :
    e.Recued e'' := by
  obtain ⟨_, _, _, rfl⟩ := h
  obtain ⟨order, pos, index, rfl⟩ := h'
  exact ⟨order, pos, index, rfl⟩

theorem Recued.account (h : e.Recued e') : e'.account = e.account := by
  obtain ⟨_, _, _, rfl⟩ := h
  rfl

theorem recomputePlayOrder_eq (rng : Rng) (currentIdx : ℕ) :
    Returns (e.recomputePlayOrder rng currentIdx) fun e' =>
      ∃ order pos, e' = { e with playOrder := order, playOrderPos := pos } := by
  refine .ite (fun _ => .some ⟨_, _, rfl⟩) fun _ => .ite (fun _ => ?_) fun _ => .some ⟨_, _, rfl⟩
  dsimp only
  split
  · exact .skip fun _ => .some ⟨_, _, rfl⟩
  · exact .some ⟨_, _, rfl⟩

theorem recued_recomputePlayOrder (rng : Rng) (currentIdx : ℕ) :
    Returns (e.recomputePlayOrder rng currentIdx) fun e' => e.Recued e' :=
  (recomputePlayOrder_eq rng currentIdx).mono fun _ ⟨order, pos, h⟩ =>
    ⟨order, pos, e.queueIndex, h⟩

theorem recued_recomputePlayOrderNewCycle (rng : Rng) (justFinishedIdx : ℕ) :
    Returns (e.recomputePlayOrderNewCycle rng justFinishedIdx) fun e' => e.Recued e' := by
  refine .ite (fun _ => .some ⟨_, _, _, rfl⟩) fun _ => .ite (fun _ => ?_) fun _ =>
    .some ⟨_, _, _, rfl⟩
  refine .ite (fun _ => .skip fun _ => ?_) fun _ => .some ⟨_, _, _, rfl⟩
  exact .ite (fun _ => .skip fun _ => .some ⟨_, _, _, rfl⟩) fun _ => .some ⟨_, _, _, rfl⟩

theorem recued_beginCycle (rng : Rng) : Returns (e.beginCycle rng) fun e' => e.Recued e' :=
  .ite (fun _ => recued_recomputePlayOrderNewCycle rng e.queueIndex)
    fun _ => .some ⟨_, _, _, rfl⟩

theorem recued_playOrderAt (pos : ℕ) :
    Returns (e.playOrderAt pos) fun r => e.Recued r.1 :=
  .skip fun index => .skip fun _ => .some ⟨e.playOrder, pos, index, rfl⟩

theorem settles_afterEof (env : EngineEnv) (e : PlaybackEngine) :
    Returns (e.afterEof env) fun e' => e.Settles e' := by
  have hstart : ∀ r : PlaybackEngine × Track, e.Recued r.1 →
      Returns (some (r.1.startOrFail env r.2)) fun e' => e.Settles e' := fun r hr =>
    .some ((moves_of_eq hr.account).settles (settles_startOrFail env r.1 r.2))
  unfold afterEof
  cases e.repeatMode with
  | one =>
    cases e.currentTrack with
    | none => exact .some (settles_endOfQueue e)
    | some track => exact .some (settles_startOrFail env e track)
  | all =>
    refine .ite (fun _ => .some (settles_endOfQueue e)) fun _ => .ite (fun _ => ?_) fun _ => ?_
    · refine (recued_beginCycle env.rng).bind fun e₁ h₁ => ?_
      exact (recued_playOrderAt e₁.playOrderPos).bind fun r hr => hstart r (h₁.trans hr)
    · exact (recued_playOrderAt _).bind hstart
  | off =>
    exact .ite (fun _ => (recued_playOrderAt _).bind hstart)
      fun _ => .some (settles_endOfQueue e)

theorem settles_handleEof (env : EngineEnv) (e : PlaybackEngine) :
    Returns (e.handleEof env) fun e' => e.Settles e' := by
  have h := settles_afterEof env ({ e with decoder := none }.emitEvent (.ended e.trackId))
  exact h

/-! ## Commands -/

def Sounding (e : PlaybackEngine) : Prop := e.state = .playing → e.sinks ≠ []

theorem moves_of_state (hformat : e'.format = e.format)
    (hgeneration : e'.generationId = e.generationId)
    (hdecoded : e'.trackBytesDecoded = e.trackBytesDecoded)
    (htimeline : e'.trackPcmTimelineBytes = e.trackPcmTimelineBytes)
    (hstate : e'.state ≠ .playing) : e.Moves e' :=
  (settles_of_state hformat hgeneration hdecoded htimeline hstate).1

theorem moves_select (hstate : e'.state = e.state) (hformat : e'.format = e.format)
    (hgeneration : e'.generationId = e.generationId + 1) (hdecoded : e'.trackBytesDecoded = 0)
    (htimeline : e'.trackPcmTimelineBytes = 0) (hplaying : e.state ≠ .playing) : e.Moves e' :=
  .reset hformat (by simp [account, hgeneration]) hdecoded htimeline
    fun h => hplaying (hstate.symm.trans h)

theorem moves_moveTo (env : EngineEnv) (track : Track) (h : e.Sounding) :
    e.Moves (e.moveTo env track).1 := by
  unfold moveTo
  split
  · rename_i hempty
    exact moves_select rfl rfl rfl rfl rfl fun hplaying => h hplaying (List.isEmpty_iff.mp hempty)
  · exact (settles_startPlaybackInternal env e track 0).1

theorem moves_restartCurrent (env : EngineEnv) (e : PlaybackEngine) :
    e.Moves (e.restartCurrent env).1 := by
  unfold restartCurrent
  cases e.currentTrack with
  | none => exact .refl _
  | some track =>
    dsimp only
    split
    · exact .refl _
    · exact (settles_startPlaybackInternal env e track 0).1

theorem moves_handlePlay (env : EngineEnv) (e : PlaybackEngine) (track : Track)
    (sinks : List AudioSink) (outputDesc : PlaybackOutputDescription) (positionMs : ℕ) :
    e.Moves (e.handlePlay env track sinks outputDesc positionMs).1 := by
  unfold handlePlay
  dsimp only
  split
  · exact .refl _
  · rename_i hsinks
    have hcleanup : ((e.takeTimeline.cleanupPlayback env).1).account = e.account :=
      account_cleanupPlayback env e.takeTimeline
    refine .trans (moves_of_eq hcleanup) (.trans ?_ (settles_startPlaybackInternal env _ _ _).1)
    refine .same rfl rfl rfl rfl fun hplaying => ⟨hplaying, fun _ hnil => hsinks ?_⟩
    exact List.isEmpty_iff.mpr hnil

theorem moves_handleLoadTrack (env : EngineEnv) (e : PlaybackEngine) (track : Track)
    (positionMs : ℕ) : e.Moves (e.handleLoadTrack env track positionMs).1 := by
  have hcleanup : ((e.takeTimeline.cleanupPlayback env).1).account = e.account :=
    account_cleanupPlayback env e.takeTimeline
  grind [moves_of_eq, moves_of_state, handleLoadTrack, emitEvent]

theorem moves_handleJumpToIndex (env : EngineEnv) (index : ℕ) (h : e.Sounding) :
    Returns (e.handleJumpToIndex env index) fun r => e.Moves r.1 := by
  refine .ite (fun _ => .some (.refl _)) fun _ => .skip fun track => .ite (fun _ => .some ?_) fun hno =>
    .some ?_
  · have hmoved := settles_startPlaybackInternal env { e.takeTimeline with
      queueIndex := index, playOrderPos := (e.playOrder.idxOf? index).getD 0 } track 0
    exact hmoved.1
  · refine moves_select rfl rfl rfl rfl rfl fun hplaying => hno ⟨.inl ?_, ?_⟩
    · have hstate : e.takeTimeline.state = .playing := hplaying
      simp [hstate, PlaybackLifecycle.isPlaying]
    · have hsinks : e.takeTimeline.sinks ≠ [] := h hplaying
      simpa using hsinks

theorem moves_handlePause (env : EngineEnv) (e : PlaybackEngine) :
    e.Moves (e.handlePause env).1 := by
  unfold handlePause
  dsimp only
  split
  · exact moves_of_state rfl rfl rfl rfl (by simp [emitEvent])
  · exact moves_of_state rfl rfl rfl rfl (by simp [emitEvent])

theorem moves_handleResume (env : EngineEnv) (e : PlaybackEngine) :
    e.Moves (e.handleResume env).1 := by
  unfold handleResume
  dsimp only
  split
  · exact .refl _
  · split
    · split
      · split
        · exact .trans (b := e.account) (.refl _) (settles_startPlaybackInternal env
            { e.takeTimeline with outputHealth := "failed" } _ _).1
        · exact (settles_startPlaybackInternal env e.takeTimeline _ _).1
      · exact .refl _
    · split
      · split
        · exact (settles_startPlaybackInternal env e.takeTimeline _ _).1
        · exact .refl _
      · exact .refl _

theorem moves_handleSeek (env : EngineEnv) (e : PlaybackEngine) (positionMs : ℕ) :
    e.Moves (e.handleSeek env positionMs).1 := by
  unfold handleSeek
  dsimp only
  split
  · split
    · split
      · exact .reset rfl (Nat.lt_succ_self _) rfl rfl (by simp [account, emitEvent])
      · exact .reset rfl (Nat.lt_succ_self _) rfl rfl (by simp [account, emitFailure, emitEvent])
    · exact .refl _
  · exact .refl _

theorem moves_handleNext (env : EngineEnv) (h : e.Sounding) :
    Returns (e.handleNext env) fun r => e.Moves r.1 := by
  have hmove : ∀ (e₁ : PlaybackEngine) (track : Track), e.Recued e₁ →
      e.Moves (e₁.moveTo env track).1 := by
    intro e₁ track h₁
    replace h₁ := h₁.account
    refine .trans (moves_of_eq h₁) (moves_moveTo env track fun hplaying hsinks => ?_)
    have hstate : e₁.state = e.state := congrArg Account.state h₁
    have hsame : e₁.sinks = e.sinks := congrArg Account.sinks h₁
    exact h (hstate ▸ hplaying) (hsame ▸ hsinks)
  refine .ite (fun _ => ?_) fun _ => .ite (fun _ => ?_) fun _ => .some ?_
  · exact (recued_playOrderAt _).bind fun r hr => .some (hmove r.1 r.2 hr)
  · refine (recued_beginCycle env.rng).bind fun e₁ h₁ => .skip fun index => .skip fun track => ?_
    exact .some (hmove { e₁ with queueIndex := index } track (h₁.trans ⟨_, _, _, rfl⟩))
  · grind [moves_of_eq, account_cleanupPlayback, moves_of_state, emitEvent]

theorem moves_handlePrevious (env : EngineEnv) (h : e.Sounding) :
    Returns (e.handlePrevious env) fun r => e.Moves r.1 := by
  refine .ite (fun _ => .some (moves_restartCurrent env e)) fun _ => .ite (fun _ => ?_) fun _ =>
    .some (moves_restartCurrent env e)
  refine (recued_playOrderAt _).bind fun r hrecued => ?_
  have hr : r.1.account = e.account := hrecued.account
  refine .some (.trans (moves_of_eq hr) ?_)
  refine moves_moveTo env r.2 fun hplaying hsinks => ?_
  have hstate : r.1.state = e.state := congrArg Account.state hr
  have hsame : r.1.sinks = e.sinks := congrArg Account.sinks hr
  exact h (hstate ▸ hplaying) (hsame ▸ hsinks)

theorem moves_handleStop (env : EngineEnv) (e : PlaybackEngine) : e.Moves (e.handleStop env).1 := by
  have hcleanup : e.Moves (cleanupPlayback env { e with currentTimelineOrigin := .local }).1 :=
    moves_of_eq (account_cleanupPlayback env { e with currentTimelineOrigin := .local })
  refine hcleanup.trans ?_
  exact moves_of_state rfl rfl rfl rfl (by simp [handleStop, emitEvent])

theorem moves_handleSetVolume (env : EngineEnv) (e : PlaybackEngine) (volume : ℕ) :
    e.Moves (e.handleSetVolume env volume).1 := by
  unfold handleSetVolume
  dsimp only
  split_ifs <;> exact .refl _

theorem moves_handleSetShuffle (env : EngineEnv) (e : PlaybackEngine) (shuffle : Bool) :
    Returns (e.handleSetShuffle env shuffle) fun r => e.Moves r.1 :=
  (recued_recomputePlayOrder env.rng _).bind fun _ h => .some (moves_of_eq h.account)

theorem moves_handleSetQueue (env : EngineEnv) (e : PlaybackEngine) (tracks : List Track)
    (currentIndex : ℕ) (currentTrackId : Option Uuid) :
    Returns (e.handleSetQueue env tracks currentIndex currentTrackId) fun r => e.Moves r.1 := by
  refine (recued_recomputePlayOrder env.rng _).bind fun e' he' => .some ?_
  refine .trans (b := e'.account) (moves_of_eq he'.account) ?_
  dsimp only
  split_ifs <;> exact .refl _

theorem settles_cleanup (env : EngineEnv) (e : PlaybackEngine) : e.Settles (e.cleanup env) := by
  refine (moves_of_eq (account_cleanupPlayback env e)).settles ?_
  exact settles_of_state rfl rfl rfl rfl (by simp [cleanup])

/-- What a command may do to the counts of bytes. -/
theorem moves_handleCommandInner (env : EngineEnv) (cmd : EngineCommand) (h : e.Sounding) :
    Returns (e.handleCommandInner env cmd) fun r => e.Moves r.1 := by
  cases cmd with
  | play track sinks outputDesc positionMs _ =>
    exact .some (moves_handlePlay env e track sinks outputDesc positionMs)
  | loadTrack track positionMs _ => exact .some (moves_handleLoadTrack env e track positionMs)
  | jumpToIndex index _ => exact (moves_handleJumpToIndex env index h).map fun _ hr => hr
  | pause _ => exact .some (moves_handlePause env e)
  | resume _ => exact .some (moves_handleResume env e)
  | seek positionMs _ => exact .some (moves_handleSeek env e positionMs)
  | «next» _ => exact (moves_handleNext env h).map fun _ hr => hr
  | previous _ => exact (moves_handlePrevious env h).map fun _ hr => hr
  | stop _ => exact .some (moves_handleStop env e)
  | setVolume volume _ => exact .some (moves_handleSetVolume env e volume)
  | setShuffle shuffle _ => exact (moves_handleSetShuffle env e shuffle).map fun _ hr => hr
  | setRepeat repeatMode _ => exact .some (.refl _)
  | setQueue tracks currentIndex currentTrackId _ =>
    exact (moves_handleSetQueue env e tracks currentIndex currentTrackId).map fun _ hr => hr
  | getSnapshot => exact .some (.refl _)
  | shutdown => exact .some (settles_cleanup env e).1

theorem moves_handleCommand (env : EngineEnv) (cmd : EngineCommand) (h : e.Sounding) :
    Returns (e.handleCommand env cmd) fun r => e.Moves r.1 := by
  have hinner := moves_handleCommandInner (e := { e with currentCommandOrigin := some cmd.origin })
    env cmd h
  exact hinner.bind fun r hr => .some hr

end PlaybackEngine

end MichiServer.Playback
