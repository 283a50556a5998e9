import MichiServer.Playback.FunctionalTruth

/-!
# What is on the deck

`deck` is the part of the engine that says what is being played and from where: the lifecycle, the
current track, the base position with the clock that runs from it, the decoder, and the sinks. `Turned`
lists what one turn of the loop can do to it, with the circumstances of each case, and a lemma says it
of each function of the engine. What the results about the clock, the decoder and the position need is
read off that list.
-/

namespace MichiServer.Playback

open MichiServer.Logic

def PlaybackLifecycle.decodes : PlaybackLifecycle → Bool
  | .preparing | .buffering | .audioFlowing | .playing => true
  | _ => false

theorem PlaybackLifecycle.decodes_of_isPlaying {s : PlaybackLifecycle} (h : s.isPlaying = true) :
    s.decodes = true := by
  cases s <;> first | rfl | cases h

@[ext] structure Deck where
  state : PlaybackLifecycle
  currentTrack : Option Track
  basePositionMs : ℕ
  playingStartedAt : Option ℕ
  decoder : Option FfmpegPcmDecoder
  sinks : List AudioSink

namespace PlaybackEngine

def deck (e : PlaybackEngine) : Deck :=
  ⟨e.state, e.currentTrack, e.basePositionMs, e.playingStartedAt, e.decoder, e.sinks⟩

/-! ## When a track is started, and when it takes over -/

/-- A track can be started on these sinks: one of them prepares, and the decoder starts. -/
def canStart (env : EngineEnv) (sinks : List AudioSink) : Bool :=
  !(preparedSinks env sinks).isEmpty && env.decoderStart.isOk

/-- There is a track to go on to when a listener asks for the next one. -/
def advances (e : PlaybackEngine) : Bool :=
  !e.queue.isEmpty && (e.playOrderPos + 1 < e.playOrder.length || e.repeatMode = .all)

def follows (e : PlaybackEngine) : Bool :=
  match e.repeatMode with
  | .one => e.currentTrack.isSome
  | .all => !e.queue.isEmpty
  | .off => !e.queue.isEmpty && e.playOrderPos + 1 < e.playOrder.length

/-- The command starts a track over the one that is on the deck, which it does not stop before. -/
def takesOver (e : PlaybackEngine) (cmd : EngineCommand) : Bool :=
  !e.sinks.isEmpty &&
    match cmd with
    | .jumpToIndex index _ =>
      index < e.queue.length && (e.state.isPlaying || e.state = .preparing)
    | .next _ => e.advances
    | .previous _ => true
    | _ => false

/-- The position to which a command sets the deck without starting anything there. -/
def rebased (e : PlaybackEngine) (cmd : EngineCommand) : Option ℕ :=
  match cmd with
  | .seek positionMs _ => if e.state.isPlaying then none else some positionMs
  | .jumpToIndex index _ =>
    if index < e.queue.length ∧ ¬ e.takesOver cmd then some 0 else none
  | .next _ => if e.sinks.isEmpty ∧ e.advances then some 0 else none
  | .previous _ => if e.sinks.isEmpty then some 0 else none
  | _ => none

inductive Turned (e : PlaybackEngine) : EngineTurn → Deck → Prop
  | kept {input : EngineTurn} : Turned e input e.deck
  /-- A track has been started. -/
  | started {input : EngineTurn} (track : Track) (positionMs : ℕ) (sinks : List AudioSink)
      (sounding : sinks ≠ []) :
      Turned e input
        ⟨.preparing, some track, positionMs, none, some ⟨track.filePath, positionMs⟩, sinks⟩
  /-- The decoder has been started again elsewhere in the track. -/
  | sought {input : EngineTurn} (track : Track) (positionMs : ℕ)
      (playing : e.state.isPlaying = true) (trackEq : e.currentTrack = some track) :
      Turned e input { e.deck with
        state := .preparing
        basePositionMs := positionMs
        playingStartedAt := none
        decoder := some ⟨track.filePath, positionMs⟩ }
  /-- The deck has been emptied. -/
  | unloaded {input : EngineTurn} {d : Deck} (silent : d.state.decodes = false)
      (decoder : d.decoder = none) (clock : d.playingStartedAt = none) : Turned e input d
  /-- A track could not be started, and what was on the deck has been left there. -/
  | failed {env : EngineEnv} {cmd : EngineCommand} (state : PlaybackLifecycle)
      (sinks : List AudioSink) (silent : state.decodes = false)
      (freed : e.takesOver cmd = true ∨ e.state.decodes = false)
      (refused : canStart env e.sinks = false) :
      Turned e (.recv env cmd) { e.deck with state := state, sinks := sinks }
  /-- Another track has been chosen, and waits to be started. -/
  | chosen {env : EngineEnv} {cmd : EngineCommand} (track : Track) (clock : Option ℕ)
      (position : e.rebased cmd = some 0) (clockEq : clock = none ∨ clock = e.playingStartedAt)
      (waits : e.sinks = [] ∨ (e.state.isPlaying || e.state = .preparing) = false) :
      Turned e (.recv env cmd) { e.deck with
        currentTrack := some track
        basePositionMs := 0
        playingStartedAt := clock }
  /-- The position has been set and nothing else. -/
  | rebased {env : EngineEnv} {cmd : EngineCommand} (positionMs : ℕ) (clock : Option ℕ)
      (position : e.rebased cmd = some positionMs)
      (clockEq : clock = none ∨ clock = e.playingStartedAt) :
      Turned e (.recv env cmd) { e.deck with
        basePositionMs := positionMs
        playingStartedAt := clock }
  /-- The first track of a new queue has become the current one. -/
  | queued {input : EngineTurn} (track : Option Track) (vacant : e.currentTrack = none) :
      Turned e input { e.deck with currentTrack := track }
  /-- There was nothing to decode. -/
  | silent {env : EngineEnv} (decodes : e.state.decodes = true) (decoder : e.decoder = none) :
      Turned e (.audio env) { e.deck with state := .stopped }
  /-- The queue has ended. -/
  | ended {env : EngineEnv} (read : env.readPcm = .ok 0) (last : e.follows = false) :
      Turned e (.audio env) { e.deck with state := .ended, decoder := none }
  /-- A chunk has been delivered. -/
  | flowed {env : EngineEnv} (state : PlaybackLifecycle) (clock : Option ℕ) (sinks : List AudioSink)
      (decodes : e.state.decodes = true) (sounding : sinks ≠ [])
      (flow : state = e.state ∧ clock = e.playingStartedAt ∨ state.isPlaying = true) :
      Turned e (.audio env) { e.deck with
        state := state
        playingStartedAt := clock
        sinks := sinks }

/-! ## Starting a track -/

variable {env : EngineEnv} {e e' : PlaybackEngine}

theorem Recued.deck (h : e.Recued e') : e'.deck = e.deck := by
  obtain ⟨_, _, _, rfl⟩ := h
  rfl

/-- What a start of a track leaves, and whether it is answered with success. -/
inductive Starts (env : EngineEnv) (d : Deck) (track : Track) (positionMs : ℕ) : Deck → Bool → Prop
  | ok (sinks : List AudioSink) (sounding : sinks ≠ []) (can : canStart env d.sinks = true) :
      Starts env d track positionMs
        ⟨.preparing, some track, positionMs, none, some ⟨track.filePath, positionMs⟩, sinks⟩ true
  | failed (state : PlaybackLifecycle) (sinks : List AudioSink) (silent : state.decodes = false)
      (refused : canStart env d.sinks = false) :
      Starts env d track positionMs { d with state := state, sinks := sinks } false

/-- What a start leaves on the deck, whether it succeeds or not. -/
theorem starts_startPlaybackInternal (env : EngineEnv) (e : PlaybackEngine) (track : Track)
    (positionMs : ℕ) :
    Starts env e.deck track positionMs (e.startPlaybackInternal env track positionMs).1.deck
      (e.startPlaybackInternal env track positionMs).2.isOk := by
  unfold startPlaybackInternal
  dsimp only
  split
  · rename_i hempty
    have hnil : e.sinks = [] := List.isEmpty_iff.mp hempty
    exact .failed .failed e.sinks rfl (by simp [deck, canStart, hnil, preparedSinks])
  · split
    · rename_i hprepared
      exact .failed .failed [] rfl (by simp only [deck, canStart, hprepared]; rfl)
    · rename_i hprepared
      split
      · rename_i err herr
        exact .failed .idle [] rfl (by simp [deck, canStart, herr, Except.isOk, Except.toBool])
      · rename_i hok
        refine .ok _ (fun hnil => hprepared (List.isEmpty_iff.mpr hnil)) ?_
        simp only [deck, canStart, Bool.and_eq_true, Bool.not_eq_true']
        exact ⟨(Bool.not_eq_true _).mp hprepared, by rw [hok]; rfl⟩

variable {input : EngineTurn} {cmd : EngineCommand}

theorem turned_start (track : Track) (positionMs : ℕ) (hdeck : e'.deck = e.deck)
    (hover : e.takesOver cmd = true ∨ e.state.decodes = false) :
    e.Turned (.recv env cmd) (e'.startPlaybackInternal env track positionMs).1.deck := by
  have h := starts_startPlaybackInternal env e' track positionMs
  generalize (e'.startPlaybackInternal env track positionMs).1.deck = d' at h ⊢
  generalize (e'.startPlaybackInternal env track positionMs).2.isOk = answered at h
  cases h with
  | ok sinks sounding _ => exact .started track positionMs sinks sounding
  | failed state sinks silent refused =>
    rw [hdeck] at refused ⊢
    exact .failed state sinks silent hover refused

theorem turned_start_unloaded (track : Track) (positionMs : ℕ) (hdecoder : e'.decoder = none)
    (hclock : e'.playingStartedAt = none) :
    e.Turned input (e'.startPlaybackInternal env track positionMs).1.deck := by
  have h := starts_startPlaybackInternal env e' track positionMs
  generalize (e'.startPlaybackInternal env track positionMs).1.deck = d' at h ⊢
  generalize (e'.startPlaybackInternal env track positionMs).2.isOk = answered at h
  cases h with
  | ok sinks sounding _ => exact .started track positionMs sinks sounding
  | failed state sinks silent _ => exact .unloaded silent hdecoder hclock

theorem turned_failPlayback (err : PlaybackError) : e.Turned input (e'.failPlayback err).deck :=
  .unloaded rfl rfl rfl

theorem turned_startOrFail (env : EngineEnv) (e' : PlaybackEngine) (track : Track) :
    e.Turned input (e'.startOrFail env track).deck := by
  have h := starts_startPlaybackInternal env e' track 0
  unfold startOrFail
  split
  · rename_i e₁ heq
    rw [heq] at h
    generalize hd : e₁.deck = d' at h ⊢
    cases h with
    | ok sinks sounding _ => exact .started track 0 sinks sounding
  · exact turned_failPlayback _

@[simp] theorem deck_cleanupPlayback (env : EngineEnv) (e : PlaybackEngine) :
    (e.cleanupPlayback env).1.deck = { e.deck with decoder := none, playingStartedAt := none } := by
  obtain ⟨outputHealth, h⟩ := cleanupPlayback_eq env e
  rw [h]
  rfl

theorem turned_cleanup (env : EngineEnv) (e' : PlaybackEngine) :
    e.Turned input (e'.cleanup env).deck := by
  have h := deck_cleanupPlayback env e'
  exact .unloaded rfl (congrArg Deck.decoder h) (congrArg Deck.playingStartedAt h)

/-! ## Audio -/

theorem deck_endOfQueue (e : PlaybackEngine) : e.endOfQueue.deck = { e.deck with state := .ended } :=
  rfl

/-- The end of a track turns the deck to the next one, or empties it. -/
theorem turned_afterEof (h : e'.deck = { e.deck with decoder := none }) (hfollows : e'.follows = e.follows)
    (hread : env.readPcm = .ok 0) :
    Returns (e'.afterEof env) fun e'' => e.Turned (.audio env) e''.deck := by
  have hended : e.follows = false → e.Turned (.audio env) e'.endOfQueue.deck := fun hlast => by
    rw [deck_endOfQueue, h]
    exact .ended hread hlast
  have hat : ∀ (e₁ : PlaybackEngine) (pos : ℕ), Returns
      (e₁.playOrderAt pos >>= fun r => some (r.1.startOrFail env r.2)) fun e'' =>
        e.Turned (.audio env) e''.deck := fun e₁ pos =>
    .skip fun r => .some (turned_startOrFail env r.1 r.2)
  unfold afterEof
  cases hrepeat : e'.repeatMode with
  | one =>
    dsimp only
    cases htrack : e'.currentTrack with
    | none => exact .some (hended (by rw [← hfollows]; simp [follows, hrepeat, htrack]))
    | some track => exact .some (turned_startOrFail env e' track)
  | all =>
    refine .ite (fun hempty => .some (hended ?_)) fun _ => .ite (fun _ => ?_) fun _ => hat _ _
    · rw [← hfollows]
      simp [follows, hrepeat, hempty]
    · exact .skip fun e₁ => hat _ _
  | off =>
    refine .ite (fun _ => hat _ _) fun hlast => .some (hended ?_)
    rw [← hfollows]
    simpa [follows, hrepeat] using hlast

theorem turned_handleEof (hread : env.readPcm = .ok 0) :
    Returns (e.handleEof env) fun e' => e.Turned (.audio env) e'.deck :=
  turned_afterEof rfl rfl hread

theorem deck_beginFlow (now : ℕ) (e : PlaybackEngine) :
    ∃ state clock, (e.beginFlow now).deck =
        { e.deck with state := state, playingStartedAt := clock } ∧
      (state = e.state ∧ clock = e.playingStartedAt ∨ state.isPlaying = true) := by
  unfold beginFlow
  split
  · exact ⟨.audioFlowing, _, rfl, .inr rfl⟩
  · exact ⟨_, _, rfl, .inl ⟨rfl, rfl⟩⟩

theorem deck_promote (e : PlaybackEngine) :
    ∃ state, e.promote.deck = { e.deck with state := state } ∧
      (state = e.state ∨ state.isPlaying = true) := by
  unfold promote
  split
  · exact ⟨.playing, rfl, .inr rfl⟩
  · exact ⟨e.state, rfl, .inl rfl⟩

@[simp] theorem deck_checkpoint (now : ℕ) (e : PlaybackEngine) : (e.checkpoint now).deck = e.deck := by
  unfold checkpoint
  split <;> rfl

theorem deck_advanceTimeline (now n : ℕ) (e : PlaybackEngine) :
    ∃ state clock, (e.advanceTimeline now n).deck =
        { e.deck with state := state, playingStartedAt := clock } ∧
      (state = e.state ∧ clock = e.playingStartedAt ∨ state.isPlaying = true) := by
  let counted : PlaybackEngine :=
    { e with trackPcmTimelineBytes := e.trackPcmTimelineBytes + n }
  obtain ⟨state, clock, hflow, hflows⟩ := deck_beginFlow now counted
  obtain ⟨state', hpromote, hplays⟩ := deck_promote (counted.beginFlow now)
  have hstate : (counted.beginFlow now).state = state := congrArg Deck.state hflow
  refine ⟨state', clock, ?_, ?_⟩
  · rw [advanceTimeline_eq, deck_checkpoint, hpromote, hflow]
    rfl
  · grind

theorem deck_afterFanOut (env : EngineEnv) (n : ℕ) (e : PlaybackEngine) :
    (e.afterFanOut env n).deck = { e.deck with sinks := (e.fanOut env).survivingSinks } := by
  unfold afterFanOut
  dsimp only
  split <;> rfl

/-- A chunk that is delivered leaves the decoder, and moves the clock. -/
theorem turned_deliverChunk (env : EngineEnv) (n : ℕ) (hdecodes : e.state.decodes = true) :
    e.Turned (.audio env) (e.deliverChunk env n).deck := by
  by_cases hsinks : (e.fanOut env).survivingSinks = []
  · have hfailed : (e.deliverChunk env n).deck =
        { e.deck with
          sinks := []
          state := .failed
          decoder := none
          playingStartedAt := none } := by
      unfold deliverChunk
      exact congrArg deck (if_pos (List.isEmpty_iff.mpr hsinks))
    rw [hfailed]
    exact .unloaded rfl rfl rfl
  · have hafter := deck_afterFanOut env n e
    rw [deliverChunk_eq env n hsinks]
    split
    · obtain ⟨state, clock, hadvanced, hflow⟩ :=
        deck_advanceTimeline env.now n (e.afterFanOut env n)
      have hstate : (e.afterFanOut env n).state = e.state := congrArg Deck.state hafter
      have hclock : (e.afterFanOut env n).playingStartedAt = e.playingStartedAt :=
        congrArg Deck.playingStartedAt hafter
      rw [hstate, hclock] at hflow
      rw [hadvanced, hafter]
      exact .flowed state clock _ hdecodes hsinks hflow
    · rw [hafter]
      exact .flowed _ _ _ hdecodes hsinks (.inl ⟨rfl, rfl⟩)

theorem turned_processAudioChunk (hdecodes : e.state.decodes = true) :
    Returns (e.processAudioChunk env) fun e' => e.Turned (.audio env) e'.deck := by
  have hsilent : e.decoder = none →
      e.Turned (.audio env) ({ e with state := .stopped } : PlaybackEngine).deck := fun hnone =>
    .silent hdecodes hnone
  unfold processAudioChunk
  split
  · rename_i hdecoder
    exact .some (hsilent hdecoder)
  · split
    · rename_i hread
      exact turned_handleEof hread
    · exact .some (turned_deliverChunk env _ hdecodes)
    · exact .some (.unloaded rfl rfl rfl)

/-! ## Commands -/

theorem turned_of_deck_eq (h : e'.deck = e.deck) : e.Turned input e'.deck := by
  rw [h]
  exact .kept

theorem turned_handlePlay (env : EngineEnv) (e' : PlaybackEngine) (track : Track)
    (sinks : List AudioSink) (outputDesc : PlaybackOutputDescription) (positionMs : ℕ)
    (hdeck : e'.deck = e.deck) :
    e.Turned input (e'.handlePlay env track sinks outputDesc positionMs).1.deck := by
  have hcleanup := deck_cleanupPlayback env e'.takeTimeline
  unfold handlePlay
  dsimp only
  split
  · exact turned_of_deck_eq hdeck
  · exact turned_start_unloaded track positionMs (congrArg Deck.decoder hcleanup)
      (congrArg Deck.playingStartedAt hcleanup)

theorem turned_handleLoadTrack (env : EngineEnv) (e' : PlaybackEngine) (track : Track)
    (positionMs : ℕ) : e.Turned input (e'.handleLoadTrack env track positionMs).1.deck := by
  have hcleanup := deck_cleanupPlayback env e'.takeTimeline
  exact .unloaded rfl (congrArg Deck.decoder hcleanup) (congrArg Deck.playingStartedAt hcleanup)

theorem turned_handleJumpToIndex (env : EngineEnv) (index : ℕ) (origin : CommandOrigin) :
    Returns (e.handleJumpToIndex env index) fun r =>
      e.Turned (.recv env (.jumpToIndex index origin)) r.1.deck := by
  have htakes (hindex : index < e.queue.length) : e.takesOver (.jumpToIndex index origin) = true ↔
      (e.state.isPlaying = true ∨ e.state = .preparing) ∧ ¬ e.sinks.isEmpty = true := by
    simp [takesOver, hindex, and_comm]
  refine .ite (fun _ => .some .kept) fun hvalid => .skip fun track => .ite (fun hover => .some ?_)
    fun hwaits => .some ?_
  · have hindex : index < e.queue.length := not_le.mp (not_or.mp hvalid).2
    exact turned_start track 0 rfl (.inl ((htakes hindex).mpr hover))
  · have hindex : index < e.queue.length := not_le.mp (not_or.mp hvalid).2
    have hposition : e.rebased (.jumpToIndex index origin) = some 0 :=
      if_pos ⟨hindex, fun h => hwaits ((htakes hindex).mp h)⟩
    refine .chosen track e.playingStartedAt hposition (.inr rfl) ?_
    grind [takeTimeline]

theorem turned_handlePause (env : EngineEnv) (e' : PlaybackEngine) :
    e.Turned input (e'.handlePause env).1.deck := by
  unfold handlePause
  dsimp only
  split <;> exact .unloaded rfl rfl rfl

/-- A resume turns the deck as its command may. -/
theorem turned_handleResume (env : EngineEnv) (e : PlaybackEngine) (cmd : EngineCommand) :
    e.Turned (.recv env cmd) (e.handleResume env).1.deck := by
  have hover : ∀ {s : PlaybackLifecycle}, s.decodes = false → e.state = s →
      e.takesOver cmd = true ∨ e.state.decodes = false := fun h hs => .inr (hs ▸ h)
  unfold handleResume
  dsimp only
  split
  · exact .kept
  · split
    · rename_i hpaused
      split
      · refine turned_start _ _ ?_ (hover rfl hpaused)
        split <;> rfl
      · exact .kept
    · split
      · rename_i hidle
        split
        · exact turned_start _ _ rfl (hidle.elim (hover rfl) (hover rfl))
        · exact .kept
      · exact .kept

theorem turned_handleSeek (env : EngineEnv) (e : PlaybackEngine) (positionMs : ℕ)
    (origin : CommandOrigin) :
    e.Turned (.recv env (.seek positionMs origin)) (e.handleSeek env positionMs).1.deck := by
  unfold handleSeek
  dsimp only
  split
  · rename_i hplaying
    split
    · rename_i track htrack
      split
      · exact .sought track positionMs hplaying htrack
      · exact .unloaded rfl rfl rfl
    · exact .kept
  · rename_i hplaying
    exact .rebased positionMs _ (if_neg hplaying) (.inr rfl)

theorem turned_moveTo (track : Track) (hdeck : e'.deck = e.deck)
    (hover : e.sinks ≠ [] → e.takesOver cmd = true) (hbase : e.sinks = [] → e.rebased cmd = some 0) :
    e.Turned (.recv env cmd) (e'.moveTo env track).1.deck := by
  have hsinks : e'.sinks = e.sinks := congrArg Deck.sinks hdeck
  unfold moveTo
  split
  · rename_i hempty
    have hnil : e.sinks = [] := hsinks ▸ List.isEmpty_iff.mp hempty
    have hmoved : e.Turned (.recv env cmd) _ :=
      Turned.chosen track none (hbase hnil) (.inl rfl) (.inl hnil)
    rw [← hdeck] at hmoved
    exact hmoved
  · grind [turned_start]

theorem turned_handleNext (env : EngineEnv) (e : PlaybackEngine) (origin : CommandOrigin) :
    Returns (e.handleNext env) fun r => e.Turned (.recv env (.next origin)) r.1.deck := by
  have hmove : e.advances = true → ∀ (e₁ : PlaybackEngine) (track : Track), e.Recued e₁ →
      e.Turned (.recv env (.next origin)) (e₁.moveTo env track).1.deck := by
    intro hadvances e₁ track h₁
    refine turned_moveTo track h₁.deck (fun hsinks => ?_) fun hsinks => ?_
    · simp [takesOver, hsinks, hadvances]
    · simp [PlaybackEngine.rebased, hsinks, hadvances]
  refine .ite (fun hnext => ?_) fun _ => .ite (fun hall => ?_) fun _ => .some ?_
  · have hadvances : e.advances = true := by simp [advances, hnext]
    exact (recued_playOrderAt _).bind fun r hr => .some (hmove hadvances r.1 r.2 hr)
  · have hadvances : e.advances = true := by simp [advances, hall]
    refine (recued_beginCycle env.rng).bind fun e₁ h₁ => .skip fun index => .skip fun track => ?_
    exact .some (hmove hadvances { e₁ with queueIndex := index } track (h₁.trans ⟨_, _, _, rfl⟩))
  · have hcleanup := deck_cleanupPlayback env e
    exact .unloaded rfl (congrArg Deck.decoder hcleanup) (congrArg Deck.playingStartedAt hcleanup)

theorem turned_restartCurrent (env : EngineEnv) (e : PlaybackEngine) (origin : CommandOrigin) :
    e.Turned (.recv env (.previous origin)) (e.restartCurrent env).1.deck := by
  unfold restartCurrent
  split
  · rename_i track _
    split
    · rename_i hempty
      exact .rebased 0 none (if_pos hempty) (.inl rfl)
    · grind [turned_start, takesOver]
  · exact .kept

theorem turned_handlePrevious (env : EngineEnv) (e : PlaybackEngine) (origin : CommandOrigin) :
    Returns (e.handlePrevious env) fun r => e.Turned (.recv env (.previous origin)) r.1.deck := by
  refine .ite (fun _ => .some (turned_restartCurrent env e origin)) fun _ => .ite (fun _ => ?_)
    fun _ => .some (turned_restartCurrent env e origin)
  refine (recued_playOrderAt _).bind fun r hr => .some ?_
  refine turned_moveTo r.2 hr.deck (fun hsinks => ?_) fun hsinks => ?_
  · simp [takesOver, hsinks]
  · simp [PlaybackEngine.rebased, hsinks]

theorem turned_handleStop (env : EngineEnv) (e' : PlaybackEngine) :
    e.Turned input (e'.handleStop env).1.deck := by
  have hcleanup := deck_cleanupPlayback env { e' with currentTimelineOrigin := .local }
  exact .unloaded rfl (congrArg Deck.decoder hcleanup) (congrArg Deck.playingStartedAt hcleanup)

theorem deck_handleSetVolume (env : EngineEnv) (e : PlaybackEngine) (volume : ℕ) :
    (e.handleSetVolume env volume).1.deck = e.deck := by
  unfold handleSetVolume
  dsimp only
  split_ifs <;> rfl

/-- The track a new queue makes the current one: that of its place if there was none, and nothing
plays. -/
def queuedTrack (e : PlaybackEngine) (tracks : List Track) (index : ℕ) : Option Track :=
  if ¬ e.state.isPlaying ∧ e.currentTrack.isNone then tracks[index]? else e.currentTrack

theorem deck_handleSetQueue (env : EngineEnv) (e : PlaybackEngine) (tracks : List Track)
    (currentIndex : ℕ) (currentTrackId : Option Uuid) :
    Returns (e.handleSetQueue env tracks currentIndex currentTrackId) fun r =>
      r.1.deck = { e.deck with
        currentTrack := e.queuedTrack tracks
          (min (resolvedIndex tracks currentIndex currentTrackId) (tracks.length - 1)) } := by
  refine (recomputePlayOrder_eq env.rng _).bind fun e₁ h₁ => .some ?_
  obtain ⟨order, pos, rfl⟩ := h₁
  dsimp only
  unfold queuedTrack
  split <;> rfl

theorem turned_handleSetQueue (env : EngineEnv) (e : PlaybackEngine) (tracks : List Track)
    (currentIndex : ℕ) (currentTrackId : Option Uuid) :
    Returns (e.handleSetQueue env tracks currentIndex currentTrackId) fun r =>
      e.Turned input r.1.deck := by
  refine (deck_handleSetQueue env e tracks currentIndex currentTrackId).mono fun r hr => ?_
  rw [hr]
  unfold queuedTrack
  split
  next hvacant => exact .queued _ (Option.isNone_iff_eq_none.mp hvacant.2)
  next => exact .kept

/-- Each command turns the deck in one of its ways. -/
theorem turned_handleCommandInner (env : EngineEnv) (e : PlaybackEngine) (cmd : EngineCommand) :
    Returns (e.handleCommandInner env cmd) fun r => e.Turned (.recv env cmd) r.1.deck := by
  cases cmd with
  | play track sinks outputDesc positionMs _ =>
    exact .some (turned_handlePlay env e track sinks outputDesc positionMs rfl)
  | loadTrack track positionMs _ => exact .some (turned_handleLoadTrack env e track positionMs)
  | jumpToIndex index origin =>
    exact (turned_handleJumpToIndex env index origin).map fun _ hr => hr
  | pause _ => exact .some (turned_handlePause env e)
  | resume origin => exact .some (turned_handleResume env e (.resume origin))
  | seek positionMs origin => exact .some (turned_handleSeek env e positionMs origin)
  | «next» origin => exact (turned_handleNext env e origin).map fun _ hr => hr
  | previous origin => exact (turned_handlePrevious env e origin).map fun _ hr => hr
  | stop _ => exact .some (turned_handleStop env e)
  | setVolume volume _ => exact .some (turned_of_deck_eq (deck_handleSetVolume env e volume))
  | setShuffle shuffle _ =>
    have h : Returns (e.handleSetShuffle env shuffle) fun r => r.1.deck = e.deck :=
      (recued_recomputePlayOrder env.rng _).bind fun _ h₁ => .some h₁.deck
    exact h.map fun _ hr => turned_of_deck_eq hr
  | setRepeat repeatMode _ => exact .some .kept
  | setQueue tracks currentIndex currentTrackId _ =>
    exact (turned_handleSetQueue env e tracks currentIndex currentTrackId).map fun _ hr => hr
  | getSnapshot => exact .some .kept
  | shutdown => exact .some (turned_cleanup env e)

theorem Turned.of_origin {origin : Option CommandOrigin} {d : Deck}
    (h : Turned { e with currentCommandOrigin := origin } input d) : e.Turned input d := by
  cases h with
  | kept => exact .kept
  | started track positionMs sinks sounding => exact .started track positionMs sinks sounding
  | sought track positionMs playing trackEq => exact .sought track positionMs playing trackEq
  | unloaded silent decoder clock => exact .unloaded silent decoder clock
  | failed state sinks silent freed refused => exact .failed state sinks silent freed refused
  | chosen track clock position clockEq waits => exact .chosen track clock position clockEq waits
  | rebased positionMs clock position clockEq => exact .rebased positionMs clock position clockEq
  | queued track vacant => exact .queued track vacant
  | silent decodes decoder => exact .silent decodes decoder
  | ended read last => exact .ended read last
  | flowed state clock sinks decodes sounding flow =>
    exact .flowed state clock sinks decodes sounding flow

theorem turned_handleCommand (env : EngineEnv) (e : PlaybackEngine) (cmd : EngineCommand) :
    Returns (e.handleCommand env cmd) fun r => e.Turned (.recv env cmd) r.1.deck :=
  (turned_handleCommandInner env { e with currentCommandOrigin := some cmd.origin } cmd).bind
    fun _ hr => .some hr.of_origin

end PlaybackEngine

/-! ## The loop -/

namespace EngineTask

open PlaybackEngine

theorem takesAudio_eq (e : PlaybackEngine) : takesAudio e = e.state.decodes := by
  unfold takesAudio
  cases e.state <;> rfl

/-- **What a turn does to the deck** is one of the cases of `Turned`. -/
theorem turn_turned (t : EngineTask) (input : EngineTurn) :
    Returns (t.turn input) fun t' => t.engine.Turned input t'.engine.deck := by
  refine .ite (fun _ => .some .kept) fun _ => ?_
  cases input with
  | recv env cmd =>
    refine (turned_handleCommand env t.engine cmd).bind fun r hr => ?_
    exact .ite (fun _ => .some hr) fun _ => .some (turned_cleanup env r.1)
  | closed env => exact .some (turned_cleanup env t.engine)
  | audio env =>
    refine .ite (fun htakes => ?_) fun _ => .some .kept
    rw [takesAudio_eq] at htakes
    exact (turned_processAudioChunk htakes).bind fun e he => .some he

end EngineTask

/-! ## What is decoded is loaded -/

/-- While a track is decoded there is a decoder, a current track, and a sink to hear it. -/
structure Deck.Loaded (d : Deck) : Prop where
  buffering : d.state ≠ .buffering
  sinks : d.state.decodes = true → d.sinks ≠ []
  track : d.state.decodes = true → d.currentTrack ≠ none
  decoder : d.state.decodes = true → d.decoder ≠ none

theorem Deck.loaded_of_silent {d : Deck} (h : d.state.decodes = false) : d.Loaded where
  buffering hbuffering := by rw [hbuffering] at h; cases h
  sinks hdecodes := absurd (h.symm.trans hdecodes) Bool.false_ne_true
  track hdecodes := absurd (h.symm.trans hdecodes) Bool.false_ne_true
  decoder hdecodes := absurd (h.symm.trans hdecodes) Bool.false_ne_true

/-- A deck that is loaded stays so. -/
theorem PlaybackEngine.Turned.loaded {e : PlaybackEngine} {input : EngineTurn} {d : Deck}
    (h : e.Turned input d) (he : e.deck.Loaded) : d.Loaded := by
  cases h with
  | kept => exact he
  | started => exact ⟨nofun, fun _ => ‹_›, nofun, nofun⟩
  | sought track positionMs playing trackEq =>
    have hdecodes := PlaybackLifecycle.decodes_of_isPlaying playing
    exact ⟨nofun, fun _ => he.sinks hdecodes, fun _ => he.track hdecodes, nofun⟩
  | unloaded silent => exact Deck.loaded_of_silent silent
  | failed state sinks silent => exact Deck.loaded_of_silent silent
  | chosen => exact ⟨he.buffering, he.sinks, nofun, he.decoder⟩
  | rebased => exact ⟨he.buffering, he.sinks, he.track, he.decoder⟩
  | queued track vacant =>
    exact ⟨he.buffering, he.sinks, fun hdecodes => absurd vacant (he.track hdecodes), he.decoder⟩
  | silent => exact Deck.loaded_of_silent rfl
  | ended => exact Deck.loaded_of_silent rfl
  | flowed state clock sinks decodes sounding flow =>
    refine ⟨?_, fun _ => sounding, fun _ => he.track decodes, fun _ => he.decoder decodes⟩
    rcases flow with ⟨rfl, -⟩ | hplaying
    · exact he.buffering
    · rintro rfl
      cases hplaying

end MichiServer.Playback
