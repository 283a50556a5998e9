import MichiServer.Playback.Origins

/-!
# What an answer says

A caller reads three things off the answer of a command: that a resumption answered with success plays,
that a refused command has changed nothing, and that `Previous` starts the track again once it is three
seconds in. Each holds on exactly the states named here.
-/

namespace MichiServer.Playback

open MichiServer.Logic

theorem PlaybackLifecycle.decodes_iff {s : PlaybackLifecycle} :
    s.decodes = true ↔ s = .preparing ∨ s = .buffering ∨ s = .audioFlowing ∨ s = .playing := by
  cases s <;> simp [decodes]

namespace PlaybackEngine

variable {env : EngineEnv} {e : PlaybackEngine}

/-! ## Resuming -/

theorem start_plays (env : EngineEnv) (e : PlaybackEngine) (track : Track) (positionMs : ℕ)
    (h : (e.startPlaybackInternal env track positionMs).2 = .ok ()) :
    (e.startPlaybackInternal env track positionMs).1.state = .preparing := by
  have hstarts := starts_startPlaybackInternal env e track positionMs
  rw [h] at hstarts
  show (e.startPlaybackInternal env track positionMs).1.deck.state = .preparing
  generalize (e.startPlaybackInternal env track positionMs).1.deck = d at hstarts ⊢
  cases hstarts with
  | ok => rfl

/-- A resume that succeeds plays, unless the track has ended, failed or is stopping while there are
sinks. -/
theorem resume_plays_iff (env : EngineEnv) (e : PlaybackEngine) :
    ((e.handleResume env).2 = .ok () → (e.handleResume env).1.state.decodes = true) ↔
      e.sinks = [] ∨ (e.state ≠ .ended ∧ e.state ≠ .failed ∧ e.state ≠ .stopping) := by
  have hstart : ∀ (e₁ : PlaybackEngine) (track : Track) (positionMs : ℕ),
      (e₁.startPlaybackInternal env track positionMs).2 = .ok () →
        (e₁.startPlaybackInternal env track positionMs).1.state.decodes = true := by
    intro e₁ track positionMs h
    rw [start_plays env e₁ track positionMs h]
    rfl
  by_cases hsinks : e.sinks = []
  · have hempty : e.takeTimeline.sinks.isEmpty = true := List.isEmpty_iff.mpr hsinks
    grind [handleResume]
  · have hsome : ¬ e.takeTimeline.sinks.isEmpty = true := fun h => hsinks (List.isEmpty_iff.mp h)
    unfold handleResume
    dsimp only
    rw [if_neg hsome]
    by_cases hpaused : e.takeTimeline.state = .paused
    · rw [if_pos hpaused]
      have hstate : e.state = .paused := hpaused
      grind
    · rw [if_neg hpaused]
      by_cases hidle : e.takeTimeline.state = .idle ∨ e.takeTimeline.state = .stopped
      · rw [if_pos hidle]
        have hstate : e.state = .idle ∨ e.state = .stopped := hidle
        grind
      · -- here the answer is a success, and nothing has been done
        rw [if_neg hidle]
        have hwaits : e.state ≠ .paused ∧ e.state ≠ .idle ∧ e.state ≠ .stopped :=
          ⟨hpaused, fun h => hidle (.inl h), fun h => hidle (.inr h)⟩
        show (Except.ok () = Except.ok () → e.state.decodes = true) ↔ _
        generalize e.state = s at hwaits ⊢
        cases s <;> simp_all [PlaybackLifecycle.decodes]

end PlaybackEngine

namespace EngineTask

open PlaybackEngine

/-- **A resumption that is answered with success plays** exactly from the states where there is no sink,
and from those where the track on the deck has not ended and has not failed. -/
theorem resumed_plays_iff (env : EngineEnv) (e : PlaybackEngine) (origin : CommandOrigin) :
    ∃ e' answer, e.handleCommand env (.resume origin) = some (e', .done answer, true) ∧
      ((answer = .ok () → e'.state = .preparing ∨ e'.state = .buffering ∨
          e'.state = .audioFlowing ∨ e'.state = .playing) ↔
        e.sinks = [] ∨ (e.state ≠ .ended ∧ e.state ≠ .failed ∧ e.state ≠ .stopping)) := by
  have h := resume_plays_iff env { e with currentCommandOrigin := some origin }
  simp only [PlaybackLifecycle.decodes_iff] at h
  exact ⟨_, _, rfl, h⟩

/-- The only track has ended; a resumption is answered with success, and nothing plays. The decoder has
failed, and it is the same. -/
theorem resumed_after_end_does_not_play :
    ((run (start {} 0) (kitchenChunks 10 ++ [.audio { now := 1 }])).any fun t =>
      (t.engine.handleCommand { now := 2 } (.resume .local)).any fun r =>
        r.2.1 matches .done (.ok ()) ∧ r.1.state = .ended) ∧
    ((run (start {} 0) (kitchenChunks 10 ++
        [.audio { now := 1, readPcm := .error (.decoderFailed "broken pipe") }])).any fun t =>
      (t.engine.handleCommand { now := 2 } (.resume .local)).any fun r =>
        r.2.1 matches .done (.ok ()) ∧ r.1.state = .failed) := by
  decide +kernel

end EngineTask

/-! ## Refusing -/

/-- The seven commands that move the track or the position and can fail. -/
def EngineCommand.movesOrFails : EngineCommand → Bool
  | .play .. | .loadTrack .. | .jumpToIndex .. | .resume _ | .seek .. | .next _ | .previous _ => true
  | _ => false

/-- The command does not pass the check at its beginning: no output is selected, the index is not one of
the queue's, or there is no track to resume. -/
def EngineCommand.failsCheck (e : PlaybackEngine) : EngineCommand → Bool
  | .play _ sinks _ _ _ => sinks.isEmpty
  | .jumpToIndex index _ => e.queue.isEmpty || index ≥ e.queue.length
  | .resume _ =>
    e.sinks.isEmpty ||
      ((e.state = .paused || e.state = .idle || e.state = .stopped) && e.currentTrack.isNone)
  | _ => false

namespace PlaybackEngine

variable {env : EngineEnv} {e : PlaybackEngine}

/-- The command is answered with an error before a decoder is touched: it would be if the decoder
started, and the one on the deck is still there. -/
structure RefusedEarly (env : EngineEnv) (cmd : EngineCommand) (e e' : PlaybackEngine) : Prop where
  refused : ∃ err, e.handleCommand env cmd = some (e', .done (.error err), true)
  anyway : e.handleCommand { env with decoderStart := .ok () } cmd = e.handleCommand env cmd
  decoder : e'.decoder = e.decoder

theorem events_of_start_refused {track : Track} {positionMs : ℕ} (hdecoder : env.decoderStart = .ok ())
    (h : (e.startPlaybackInternal env track positionMs).2 ≠ .ok ()) :
    (e.startPlaybackInternal env track positionMs).1.events.length = e.events.length + 2 := by
  grind [startPlaybackInternal, emitFailure, emitEvent]

/-- How a command that is not answered with success has ended: at its check, with nothing changed but
the timeline's origin, or later, having announced a failure. -/
def Stands (cmd : EngineCommand) (e : PlaybackEngine)
    (r : PlaybackEngine × Except PlaybackError Unit) : Prop :=
  r.2 ≠ .ok () →
    cmd.failsCheck e = true ∧ r.1 = e.takeTimeline ∨
    cmd.failsCheck e = false ∧ r.1.events.length = e.events.length + 2

variable {origin : CommandOrigin}

theorem stands_handlePlay (hdecoder : env.decoderStart = .ok ()) (track : Track)
    (sinks : List AudioSink) (outputDesc : PlaybackOutputDescription) (positionMs : ℕ) :
    e.Stands (.play track sinks outputDesc positionMs origin)
      (e.handlePlay env track sinks outputDesc positionMs) := by
  intro hrefused
  unfold handlePlay at hrefused ⊢
  dsimp only at hrefused ⊢
  split
  · rename_i hempty
    exact .inl ⟨hempty, rfl⟩
  · rename_i hsome
    rw [if_neg hsome] at hrefused
    have hevents := congrArg (·.2.2) (sayings_cleanupPlayback env e.takeTimeline)
    refine .inr ⟨(Bool.not_eq_true _).mp hsome, ?_⟩
    rw [events_of_start_refused hdecoder hrefused]
    exact congrArg (fun events : List TrackedEngineEvent => events.length + 2) hevents

theorem stands_handleJumpToIndex (hdecoder : env.decoderStart = .ok ()) (index : ℕ) :
    Returns (e.handleJumpToIndex env index) (e.Stands (.jumpToIndex index origin)) := by
  refine .ite (fun hinvalid => .some fun _ => .inl ⟨?_, rfl⟩) fun hvalid => .skip fun track => ?_
  · simpa [EngineCommand.failsCheck, takeTimeline] using hinvalid
  · have hpasses : EngineCommand.failsCheck e (.jumpToIndex index origin) = false := by
      simpa [EngineCommand.failsCheck, takeTimeline] using hvalid
    refine .ite (fun _ => .some fun hrefused => .inr ⟨hpasses, ?_⟩) fun _ => .some fun h => absurd rfl h
    rw [events_of_start_refused hdecoder hrefused]
    rfl

/-- A resume, where the decoder starts, ends in one of these ways. -/
theorem stands_handleResume (hdecoder : env.decoderStart = .ok ()) :
    e.Stands (.resume origin) (e.handleResume env) := by
  have hstart : ∀ (e₁ : PlaybackEngine) (track : Track) (positionMs : ℕ), e₁.events = e.events →
      EngineCommand.failsCheck e (.resume origin) = false →
      e.Stands (.resume origin) (e₁.startPlaybackInternal env track positionMs) := by
    intro e₁ track positionMs hevents hpasses hrefused
    grind [events_of_start_refused]
  unfold handleResume
  dsimp only
  split
  · rename_i hempty
    exact fun _ => .inl ⟨by simp [EngineCommand.failsCheck, show e.sinks.isEmpty = true from hempty], rfl⟩
  · rename_i hsome
    have hsinks : e.sinks.isEmpty = false := (Bool.not_eq_true _).mp hsome
    split
    · rename_i hpaused
      have hstate : e.state = .paused := hpaused
      split
      · rename_i track htrack
        have htrack' : e.currentTrack = some track := htrack
        apply hstart
        · split <;> rfl
        · simp [EngineCommand.failsCheck, hsinks, htrack']
      · rename_i hnone
        have hnone' : e.currentTrack = none := hnone
        exact fun _ => .inl ⟨by simp [EngineCommand.failsCheck, hstate, hnone'], rfl⟩
    · split
      · rename_i hidle
        have hstate : e.state = .idle ∨ e.state = .stopped := hidle
        split
        · rename_i track htrack
          have htrack' : e.currentTrack = some track := htrack
          refine hstart e.takeTimeline track _ rfl ?_
          simp [EngineCommand.failsCheck, hsinks, htrack']
        · rename_i hnone
          have hnone' : e.currentTrack = none := hnone
          refine fun _ => .inl ⟨?_, rfl⟩
          rcases hstate with h | h <;> simp [EngineCommand.failsCheck, h, hnone']
      · exact fun h => absurd rfl h

theorem stands_handleSeek (hdecoder : env.decoderStart = .ok ()) (positionMs : ℕ) :
    e.Stands (.seek positionMs origin) (e.handleSeek env positionMs) := by
  intro hrefused
  grind [handleSeek]

theorem events_of_move_refused {track : Track} (hdecoder : env.decoderStart = .ok ())
    (h : (e.moveTo env track).2 ≠ .ok ()) :
    (e.moveTo env track).1.events.length = e.events.length + 2 := by
  grind [moveTo, events_of_start_refused]

theorem Recued.events_eq {e' : PlaybackEngine} (h : e.Recued e') : e'.events = e.events := by
  obtain ⟨_, _, _, rfl⟩ := h
  rfl

theorem stands_handleNext (hdecoder : env.decoderStart = .ok ()) :
    Returns (e.handleNext env) (e.Stands (.next origin)) := by
  have hmove : ∀ (e₁ : PlaybackEngine) (track : Track), e.Recued e₁ →
      e.Stands (.next origin) (e₁.moveTo env track) := by
    intro e₁ track h₁ hrefused
    refine .inr ⟨rfl, ?_⟩
    rw [events_of_move_refused hdecoder hrefused, h₁.events_eq]
  refine .ite (fun _ => ?_) fun _ => .ite (fun _ => ?_) fun _ => .some fun h => absurd rfl h
  · exact (recued_playOrderAt _).bind fun r hr => .some (hmove r.1 r.2 hr)
  · refine (recued_beginCycle env.rng).bind fun e₁ h₁ => .skip fun index => .skip fun track => ?_
    exact .some (hmove { e₁ with queueIndex := index } track (h₁.trans ⟨_, _, _, rfl⟩))

theorem stands_handlePrevious (hdecoder : env.decoderStart = .ok ()) :
    Returns (e.handlePrevious env) (e.Stands (.previous origin)) := by
  have hrestart : e.Stands (.previous origin) (e.restartCurrent env) := by
    intro hrefused
    refine .inr ⟨rfl, ?_⟩
    grind [restartCurrent, events_of_start_refused]
  refine .ite (fun _ => .some hrestart) fun _ => .ite (fun _ => ?_) fun _ => .some hrestart
  refine (recued_playOrderAt _).bind fun r hr => .some fun hrefused => .inr ⟨rfl, ?_⟩
  rw [events_of_move_refused hdecoder hrefused, hr.events_eq]

/-- A command that is refused while decoders start has failed a check, and moved nothing but the
origins. -/
theorem stands_handleCommand {cmd : EngineCommand} {err : PlaybackError}
    {r : PlaybackEngine × EngineResponse × Bool} (hseven : cmd.movesOrFails = true)
    (hdecoder : env.decoderStart = .ok ()) (hhandled : e.handleCommand env cmd = some r)
    (herr : r.2.1 = .done (.error err)) :
    cmd.failsCheck e = true ∧
        r.1 = { e with currentTimelineOrigin := cmd.origin, currentCommandOrigin := none } ∨
      cmd.failsCheck e = false ∧ r.1.events.length = e.events.length + 2 := by
  let begun : PlaybackEngine := { e with currentCommandOrigin := some cmd.origin }
  -- what has been said of the handler, of the engine the handling leaves
  have hstands : ∀ r' : PlaybackEngine × Except PlaybackError Unit, begun.Stands cmd r' →
      r = ({ r'.1 with currentCommandOrigin := none }, .done r'.2, true) →
      cmd.failsCheck e = true ∧
          r.1 = { e with currentTimelineOrigin := cmd.origin, currentCommandOrigin := none } ∨
        cmd.failsCheck e = false ∧ r.1.events.length = e.events.length + 2 := by
    intro r' h hr
    subst hr
    have hfails : cmd.failsCheck begun = cmd.failsCheck e := by cases cmd <;> rfl
    have hrefused : r'.2 ≠ .ok () := by
      rw [EngineResponse.done.inj herr]
      exact nofun
    rw [← hfails]
    rcases h hrefused with ⟨hfailed, heq⟩ | hlater
    · refine .inl ⟨hfailed, ?_⟩
      dsimp only
      rw [heq]
      rfl
    · exact .inr hlater
  have hreturns : ∀ {x : Option (PlaybackEngine × Except PlaybackError Unit)},
      Returns x (begun.Stands cmd) →
      (x.map respond >>= fun a => some ({ a.1 with currentCommandOrigin := none }, a.2)) = some r →
      cmd.failsCheck e = true ∧
          r.1 = { e with currentTimelineOrigin := cmd.origin, currentCommandOrigin := none } ∨
        cmd.failsCheck e = false ∧ r.1.events.length = e.events.length + 2 := by
    intro x hx hbind
    obtain ⟨a, ha, hr⟩ := Option.bind_eq_some_iff.mp hbind
    obtain ⟨r', hr', rfl⟩ := Option.map_eq_some_iff.mp ha
    exact hstands r' (hx r' hr') (Option.some.inj hr).symm
  cases cmd with
  | play track sinks outputDesc positionMs _ =>
    exact hstands _ (stands_handlePlay hdecoder track sinks outputDesc positionMs)
      (Option.some.inj hhandled).symm
  | loadTrack track positionMs _ =>
    obtain rfl := Option.some.inj hhandled
    cases herr
  | jumpToIndex index _ => exact hreturns (stands_handleJumpToIndex hdecoder index) hhandled
  | resume _ => exact hstands _ (stands_handleResume hdecoder) (Option.some.inj hhandled).symm
  | seek positionMs _ =>
    exact hstands _ (stands_handleSeek hdecoder positionMs) (Option.some.inj hhandled).symm
  | «next» _ => exact hreturns (stands_handleNext hdecoder) hhandled
  | previous _ => exact hreturns (stands_handlePrevious hdecoder) hhandled
  | _ => cases hseven

end PlaybackEngine

namespace EngineTask

open PlaybackEngine

/-- **A command that is refused before it touches a decoder leaves the engine as it was** exactly when it
is refused at its check and comes from the one who has the timeline. -/
theorem refused_changes_nothing_iff {format : PcmFormat} {now : ℕ} {turns : List EngineTurn}
    {t : EngineTask} (hrun : run (start format now) turns = some t) {env : EngineEnv}
    {cmd : EngineCommand} (hseven : cmd.movesOrFails = true) {e' : PlaybackEngine}
    (hrefused : RefusedEarly env cmd t.engine e') :
    e' = t.engine ↔
      cmd.failsCheck t.engine = true ∧ cmd.origin = t.engine.currentTimelineOrigin := by
  obtain ⟨t', hrun', -, hcommand, -⟩ :=
    run_origins (t := start format now) turns (queueInv_of_empty rfl rfl) rfl
  obtain rfl : t' = t := Option.some.inj (hrun'.symm.trans hrun)
  obtain ⟨err, hhandled⟩ := hrefused.refused
  have hended := @stands_handleCommand { env with decoderStart := .ok () } _ _ _ _ hseven rfl
    (hrefused.anyway.trans hhandled) rfl
  rcases hended with ⟨hfails, heq⟩ | ⟨hpasses, hevents⟩
  · dsimp only at heq
    rw [heq]
    constructor
    · intro hsame
      exact ⟨hfails, congrArg PlaybackEngine.currentTimelineOrigin hsame⟩
    · rintro ⟨-, horigin⟩
      rw [horigin, ← hcommand]
  · refine iff_of_false (fun hsame => ?_) fun h => ?_
    · rw [hsame] at hevents
      simp at hevents
    · cases hpasses.symm.trans h.1

/-- The server's listener plays, and asks for an index that is not there. -/
theorem refused_changes_nothing_jump :
    ∃ t e', run (start {} 0) (kitchenChunks 10) = some t ∧
      RefusedEarly { now := 1 } (.jumpToIndex 5 .local) t.engine e' ∧ e' = t.engine := by
  have hrefused : RefusedEarly { now := 1 } (.jumpToIndex 5 .local)
      ((run (start {} 0) (kitchenChunks 10)).get rfl).engine
      ((run (start {} 0) (kitchenChunks 10)).get rfl).engine :=
    ⟨⟨_, rfl⟩, rfl, rfl⟩
  have hrun : run (start {} 0) (kitchenChunks 10) =
      some ((run (start {} 0) (kitchenChunks 10)).get rfl) := (Option.some_get _).symm
  exact ⟨_, _, hrun, hrefused, (refused_changes_nothing_iff hrun rfl hrefused).mpr ⟨rfl, rfl⟩⟩

/-- The phone seeks, and the server's listener asks for that index and is refused; the timeline is the
listener's from then on, and so are the events of the track that the phone has moved. -/
theorem refused_jump_takes_timeline :
    ∃ t e', run (start {} 0)
        (kitchenChunks 10 ++ [.recv { now := 1 } (.seek 5000 phone)]) = some t ∧
      RefusedEarly { now := 1 } (.jumpToIndex 5 .local) t.engine e' ∧
      t.engine.currentTimelineOrigin = phone ∧ e'.currentTimelineOrigin = .local :=
  ⟨_, _, rfl, ⟨⟨_, rfl⟩, rfl, rfl⟩, rfl, rfl⟩

end EngineTask

/-! ## Going back -/

namespace PlaybackEngine

variable {env : EngineEnv} {e : PlaybackEngine} {r : PlaybackEngine × Except PlaybackError Unit}

/-- The engine stays where it is in the queue and, unless it fails, is at the start of its track. -/
structure Restarts (e : PlaybackEngine) (r : PlaybackEngine × Except PlaybackError Unit) : Prop where
  place : r.1.standing = e.standing
  rewound : r.2 = .ok () →
    r.1.currentTrack = e.currentTrack ∧ r.1.basePositionMs = 0 ∧ r.1.playingStartedAt = none

/-- The engine goes to the entry of the play order before its own and, unless it fails, is at the start
of the track there. -/
structure GoesBack (e : PlaybackEngine) (r : PlaybackEngine × Except PlaybackError Unit) : Prop where
  place : ∃ index, e.playOrder[e.playOrderPos - 1]? = some index ∧
    r.1.standing = (e.queue, ⟨e.queue.length, e.playOrder, e.playOrderPos - 1, index⟩)
  rewound : r.2 = .ok () →
    r.1.currentTrack = r.1.queue[r.1.queueIndex]? ∧ r.1.basePositionMs = 0 ∧
      r.1.playingStartedAt = none

def HasPreceding (e : PlaybackEngine) : Prop := 0 < e.playOrderPos ∧ e.queue ≠ []

def PartOver (now : ℕ) (e : PlaybackEngine) : Prop :=
  e.basePositionMs > 3000 ∨ ∃ started ∈ e.playingStartedAt, elapsedMs now started > 3000

/-- A part is over the threshold, and the reported position has wrapped and is not. -/
def Wrapped (now : ℕ) (e : PlaybackEngine) : Prop :=
  e.PartOver now ∧ e.calculateCurrentPositionMs now ≤ 3000

/-- The reported position is over the threshold, and neither of its two parts is. -/
def Divided (now : ℕ) (e : PlaybackEngine) : Prop :=
  ¬ e.PartOver now ∧ e.calculateCurrentPositionMs now > 3000

theorem startPlaybackInternal_at {track : Track} {positionMs : ℕ}
    (h : (e.startPlaybackInternal env track positionMs).2 = .ok ()) :
    (e.startPlaybackInternal env track positionMs).1.currentTrack = some track ∧
      (e.startPlaybackInternal env track positionMs).1.basePositionMs = positionMs ∧
      (e.startPlaybackInternal env track positionMs).1.playingStartedAt = none := by
  have hstarts := starts_startPlaybackInternal env e track positionMs
  rw [h] at hstarts
  show (e.startPlaybackInternal env track positionMs).1.deck.currentTrack = _ ∧
    (e.startPlaybackInternal env track positionMs).1.deck.basePositionMs = _ ∧
    (e.startPlaybackInternal env track positionMs).1.deck.playingStartedAt = _
  generalize (e.startPlaybackInternal env track positionMs).1.deck = d at hstarts ⊢
  cases hstarts with
  | ok => exact ⟨rfl, rfl, rfl⟩

theorem restarts_restartCurrent (htrack : e.currentTrack.isSome) :
    e.Restarts (e.restartCurrent env) := by
  refine ⟨standing_restartCurrent env e, fun hok => ?_⟩
  grind [restartCurrent, startPlaybackInternal_at]

theorem moveTo_at {track : Track} (h : (e.moveTo env track).2 = .ok ()) :
    (e.moveTo env track).1.currentTrack = some track ∧
      (e.moveTo env track).1.basePositionMs = 0 ∧
      (e.moveTo env track).1.playingStartedAt = none := by
  unfold moveTo at h ⊢
  split
  · exact ⟨rfl, rfl, rfl⟩
  · grind [startPlaybackInternal_at]

theorem goesBack_moveTo {track : Track} {e₁ : PlaybackEngine}
    (h : e.playOrderAt (e.playOrderPos - 1) = some (e₁, track)) :
    e.GoesBack (e₁.moveTo env track) := by
  obtain ⟨index, hindex, hrest⟩ := Option.bind_eq_some_iff.mp h
  obtain ⟨found, hfound, hsome⟩ := Option.bind_eq_some_iff.mp hrest
  obtain ⟨rfl, rfl⟩ := Prod.mk.inj (Option.some.inj hsome)
  have hstanding := standing_moveTo env
    { e with playOrderPos := e.playOrderPos - 1, queueIndex := index } found
  refine ⟨⟨index, hindex, hstanding⟩, fun hok => ?_⟩
  grind [moveTo_at, standing, cursor]

theorem partOver_iff {now : ℕ} :
    (e.basePositionMs > 3000 ∨
      e.playingStartedAt.any (fun started => elapsedMs now started > 3000) = true) ↔
      e.PartOver now := by
  simp [PartOver, Option.any_eq_true]

/-- Where an entry precedes, an engine that has stayed has not gone back. -/
theorem Restarts.not_goesBack (h : e.Restarts r) (hpreceding : e.HasPreceding) : ¬ e.GoesBack r := by
  intro hback
  obtain ⟨index, -, hplace⟩ := hback.place
  have hsame : e.playOrderPos = e.playOrderPos - 1 :=
    congrArg (fun s => s.2.pos) (h.place.symm.trans hplace)
  have hpos := hpreceding.1
  omega

/-- Previous goes back or restarts as the position says, unless the position was divided or wrapped. -/
theorem handlePrevious_iff (hqueue : e.QueueInv) (htrack : e.currentTrack.isSome) :
    ∃ r, e.handlePrevious env = some r ∧
      (((e.calculateCurrentPositionMs env.now > 3000 → e.Restarts r) ∧
          (e.calculateCurrentPositionMs env.now ≤ 3000 →
            (e.HasPreceding → e.GoesBack r) ∧ (¬ e.HasPreceding → e.Restarts r))) ↔
        ¬ ((e.Divided env.now ∨ e.Wrapped env.now) ∧ e.HasPreceding)) := by
  unfold handlePrevious
  split
  next hpart =>
    have hover : e.PartOver env.now := partOver_iff.mp hpart
    have hrestarts : e.Restarts (e.restartCurrent env) := restarts_restartCurrent htrack
    refine ⟨_, rfl, ?_, fun hnot => ⟨fun _ => hrestarts, fun hreported => ⟨?_, fun _ => hrestarts⟩⟩⟩
    · rintro ⟨-, hlow⟩ ⟨hdivided | hwrapped, hpreceding⟩
      · exact hdivided.1 hover
      · exact hrestarts.not_goesBack hpreceding ((hlow hwrapped.2).1 hpreceding)
    · exact fun hpreceding => absurd ⟨.inr ⟨hover, hreported⟩, hpreceding⟩ hnot
  next hpart =>
    have hwhole : ¬ e.PartOver env.now := fun h => hpart (partOver_iff.mpr h)
    split
    next hback =>
      have hpreceding : e.HasPreceding := ⟨hback.1, fun h => hback.2 (List.isEmpty_iff.mpr h)⟩
      have hlt : e.playOrderPos < e.playOrder.length :=
        hqueue.pos_lt (List.length_pos_iff.mpr hpreceding.2)
      obtain ⟨⟨e₁, track⟩, hat, -⟩ :=
        @playOrderAt_spec e _ (e.playOrderPos - 1) rfl hqueue.perm (by omega)
      have hgoes : e.GoesBack (e₁.moveTo env track) := goesBack_moveTo hat
      refine ⟨e₁.moveTo env track, by rw [hat]; rfl, ?_, fun hnot => ⟨fun hreported => ?_, ?_⟩⟩
      · rintro ⟨hrestarts, -⟩ ⟨hdivided | hwrapped, -⟩
        · exact (hrestarts hdivided.2).not_goesBack hpreceding hgoes
        · exact hwhole hwrapped.1
      · exact absurd ⟨.inl ⟨hwhole, hreported⟩, hpreceding⟩ hnot
      · exact fun _ => ⟨fun _ => hgoes, fun hnone => absurd hpreceding hnone⟩
    next hfront =>
      have hnone : ¬ e.HasPreceding := fun h =>
        hfront ⟨h.1, fun hempty => h.2 (List.isEmpty_iff.mp hempty)⟩
      have hrestarts : e.Restarts (e.restartCurrent env) := restarts_restartCurrent htrack
      exact ⟨_, rfl, fun _ h => hnone h.2,
        fun _ => ⟨fun _ => hrestarts, fun _ => ⟨fun h => absurd h hnone, fun _ => hrestarts⟩⟩⟩

end PlaybackEngine

namespace EngineTask

open PlaybackEngine

/-- **Going back by the reported position.** In every reachable state with a current track, `Previous`
restarts it when the reported position is over three seconds, and goes to the preceding entry of the
play order otherwise, if there is one, exactly when the position is not divided, over three seconds as a
whole and in neither of its two parts, nor wrapped, over them in a part and not in the sum modulo
`2 ^ 64`. -/
theorem previous_by_reported_position_iff {format : PcmFormat} {now : ℕ} {turns : List EngineTurn}
    {t : EngineTask} (hrun : run (start format now) turns = some t)
    (htrack : t.engine.currentTrack.isSome) (env : EngineEnv) (origin : CommandOrigin) :
    ∃ e' answer, t.engine.handleCommand env (.previous origin) = some (e', .done answer, true) ∧
      (((t.engine.calculateCurrentPositionMs env.now > 3000 → t.engine.Restarts (e', answer)) ∧
          (t.engine.calculateCurrentPositionMs env.now ≤ 3000 →
            (t.engine.HasPreceding → t.engine.GoesBack (e', answer)) ∧
              (¬ t.engine.HasPreceding → t.engine.Restarts (e', answer)))) ↔
        ¬ ((t.engine.Divided env.now ∨ t.engine.Wrapped env.now) ∧ t.engine.HasPreceding)) := by
  obtain ⟨t', hrun', hperm, hplace⟩ := run_queue_invariant format now turns
  obtain rfl : t' = t := Option.some.inj (hrun'.symm.trans hrun)
  have hqueue : ({ t'.engine with currentCommandOrigin := some origin } : PlaybackEngine).QueueInv :=
    (queueInv_iff t'.engine).mpr ⟨hperm, hplace⟩
  obtain ⟨r, hhandled, hiff⟩ := @handlePrevious_iff env _ hqueue htrack
  have hrestarts : Restarts { t'.engine with currentCommandOrigin := some origin } r ↔
      t'.engine.Restarts ({ r.1 with currentCommandOrigin := none }, r.2) :=
    ⟨fun h => ⟨h.place, h.rewound⟩, fun h => ⟨h.place, h.rewound⟩⟩
  have hgoes : GoesBack { t'.engine with currentCommandOrigin := some origin } r ↔
      t'.engine.GoesBack ({ r.1 with currentCommandOrigin := none }, r.2) :=
    ⟨fun h => ⟨h.place, h.rewound⟩, fun h => ⟨h.place, h.rewound⟩⟩
  rw [hrestarts, hgoes] at hiff
  refine ⟨{ r.1 with currentCommandOrigin := none }, r.2, ?_, hiff⟩
  show (handlePrevious env { t'.engine with currentCommandOrigin := some origin }).map respond >>= _ =
    _
  rw [hhandled]
  rfl

def secondFrom (positionMs : ℕ) : List EngineTurn :=
  .recv { now := 0 } (.setQueue [⟨1, "/music/a.flac", none⟩, ⟨2, "/music/b.flac", none⟩] 1 none .local) ::
  .recv { now := 0 } (.play ⟨2, "/music/b.flac", none⟩ [⟨"kitchen", .receiver⟩]
    ⟨"kitchen", "Kitchen", "receiver", 1⟩ positionMs .local) ::
  [.audio { now := 0, readPcm := .ok 1920, write := fun _ => .written 1920 }]

/-- Played from the start for a second, it is left for the first. -/
theorem previous_by_reported_position_early :
    ∃ t e' answer, run (start {} 0) (secondFrom 0) = some t ∧
      t.engine.handleCommand { now := 1000000000 } (.previous .local) =
        some (e', .done answer, true) ∧ t.engine.GoesBack (e', answer) := by
  obtain ⟨e', answer, hhandled, hiff⟩ := previous_by_reported_position_iff
    (t := (run (start {} 0) (secondFrom 0)).get rfl) (Option.some_get _).symm rfl
    { now := 1000000000 } .local
  refine ⟨_, e', answer, (Option.some_get _).symm, hhandled, ?_⟩
  have hshort : ((run (start {} 0) (secondFrom 0)).get rfl).engine.calculateCurrentPositionMs
      1000000000 ≤ 3000 := by decide +kernel
  refine ((hiff.mpr ?_).2 hshort).1 ⟨by decide +kernel, by decide +kernel⟩
  rintro ⟨hdivided | hwrapped, -⟩
  · exact absurd hdivided.2 (Nat.not_lt.mpr hshort)
  · exact absurd (partOver_iff.mpr hwrapped.1) (by decide +kernel)

/-- Played from two seconds for two seconds, it is reported at four, and left all the same. -/
theorem previous_leaves_track_at_four_seconds :
    ∃ t e' answer, run (start {} 0) (secondFrom 2000) = some t ∧
      t.engine.calculateCurrentPositionMs 2000000000 = 4000 ∧
      t.engine.handleCommand { now := 2000000000 } (.previous .local) =
        some (e', .done answer, true) ∧
      ¬ t.engine.Restarts (e', answer) ∧ e'.queueIndex = 0 := by
  refine ⟨_, _, _, rfl, by decide +kernel, rfl, fun h => ?_, by decide +kernel⟩
  exact absurd (congrArg (fun s => s.2.index) h.place) (by decide +kernel)

end EngineTask

end MichiServer.Playback
