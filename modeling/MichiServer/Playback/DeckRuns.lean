import MichiServer.Playback.Deck

/-!
# The clock, the decoder and the position along a run

Three things a listener may expect of the deck in every state the engine reaches: the clock runs only
while audio flows, there is a decoder exactly while a track is decoded and it decodes the current track,
and the base position is where the decoder was started. Each holds along the runs that stay clear of
the turns that break it, which are named here by a condition on the turn and the engine it comes to.
-/

namespace MichiServer.Playback

open MichiServer.Logic

namespace EngineTask

open PlaybackEngine

variable {t : EngineTask} {input : EngineTurn} {turns : List EngineTurn} {format : PcmFormat}
  {now : ℕ}

def start (format : PcmFormat) (now : ℕ) : EngineTask := { engine := .new format now }

theorem run_along {C : EngineTask → EngineTurn → Prop} {I : Deck → Prop}
    (hturn : ∀ t input d, t.engine.deck.Loaded → I t.engine.deck → C t input →
      t.engine.Turned input d → I d)
    (hnew : I (PlaybackEngine.new format now).deck) (h : Along turn C (start format now) turns) :
    ∃ t, run (start format now) turns = some t ∧ t.engine.deck.Loaded ∧ I t.engine.deck := by
  have hstep : ∀ (t : EngineTask) (input : EngineTurn),
      t.engine.QueueInv ∧ t.engine.deck.Loaded ∧ I t.engine.deck → C t input →
      Succeeds (t.turn input) fun t' =>
        t'.engine.QueueInv ∧ t'.engine.deck.Loaded ∧ I t'.engine.deck := by
    intro t input ⟨hqueue, hloaded, hinv⟩ hc
    refine ((turn_queueInv hqueue input).and_returns (turn_turned t input)).mono fun t' h' => ?_
    exact ⟨h'.1, h'.2.loaded hloaded, hturn t input _ hloaded hinv hc h'.2⟩
  obtain ⟨t, hrun, -, hloaded, hinv⟩ :=
    h.succeeds hstep ⟨queueInv_of_empty rfl rfl, Deck.loaded_of_silent rfl, hnew⟩
  exact ⟨t, hrun, hloaded, hinv⟩

/-! ## The clock -/

/-- The turn does not leave the clock running on a deck where nothing flows any more: a track that
takes over can be started, and at the end of a track another one follows. -/
def StopsClock (t : EngineTask) (input : EngineTurn) : Prop :=
  t.engine.playingStartedAt.isSome = true →
    match input with
    | .recv env cmd =>
      t.engine.takesOver cmd = true → canStart env t.engine.sinks = true
    | .audio env => (∃ n ∈ env.readPcm.toOption, n = 0) → t.engine.follows = true
    | .closed _ => True

instance (t : EngineTask) (input : EngineTurn) : Decidable (t.StopsClock input) := by
  unfold StopsClock
  cases input <;> infer_instance

def ClockRight (d : Deck) : Prop := d.playingStartedAt.isSome = true → d.state.isPlaying = true

/-- An input that stops the clock where it should keeps it right. -/
theorem clockRight_turned {t : EngineTask} {input : EngineTurn} {d : Deck}
    (hloaded : t.engine.deck.Loaded) (hright : ClockRight t.engine.deck)
    (hstops : t.StopsClock input) (h : t.engine.Turned input d) : ClockRight d := by
  cases h with
  | kept => exact hright
  | started => exact nofun
  | sought => exact nofun
  | unloaded silent decoder clock =>
    intro hclock
    rw [clock] at hclock
    cases hclock
  | failed state sinks silent freed refused =>
    intro hclock
    have hplaying : t.engine.state.isPlaying = true := hright hclock
    rcases freed with htakes | hidle
    · exact absurd (refused.symm.trans (hstops hclock htakes)) Bool.false_ne_true
    · rw [PlaybackLifecycle.decodes_of_isPlaying hplaying] at hidle
      cases hidle
  | chosen track clock position clockEq =>
    rcases clockEq with rfl | rfl
    · exact nofun
    · exact hright
  | rebased positionMs clock position clockEq =>
    rcases clockEq with rfl | rfl
    · exact nofun
    · exact hright
  | queued => exact hright
  | silent decodes decoder => exact absurd decoder (hloaded.decoder decodes)
  | ended read last =>
    intro hclock
    have hfollows := hstops hclock ⟨0, by rw [read]; rfl, rfl⟩
    exact absurd (last.symm.trans hfollows) Bool.false_ne_true
  | flowed state clock sinks decodes sounding flow =>
    rcases flow with ⟨rfl, rfl⟩ | hplaying
    · exact hright
    · exact fun _ => hplaying

/-- **The clock runs only while audio flows**, in every state of a run whose turns stop it: elsewhere
the position is the same whenever it is asked for. -/
theorem clock_follows_lifecycle (h : Along turn StopsClock (start format now) turns)
    {before : List EngineTurn} (hbefore : before <+: turns) :
    ∃ t, run (start format now) before = some t ∧
      (t.engine.playingStartedAt.isSome = true → t.engine.state.isPlaying = true) ∧
      (t.engine.state.isPlaying = false → ∀ env env',
        (t.engine.snapshot env).positionMs = (t.engine.snapshot env').positionMs) := by
  obtain ⟨t, hrun, -, hright⟩ := run_along (fun _ _ _ hloaded hright hstops hturned =>
    clockRight_turned hloaded hright hstops hturned) nofun (h.of_prefix hbefore)
  refine ⟨t, hrun, hright, fun hsilent env env' => ?_⟩
  have hnone : t.engine.playingStartedAt = none := by
    cases hclock : t.engine.playingStartedAt with
    | none => rfl
    | some started =>
      have hplaying := hright (Option.isSome_iff_exists.mpr ⟨started, hclock⟩)
      exact absurd (hsilent.symm.trans hplaying) Bool.false_ne_true
  simp only [snapshot, calculateCurrentPositionMs, hnone]

def kitchenChunks (n : ℕ) : List EngineTurn :=
  .recv { now := 0 } (.play ⟨1, "/music/a.flac", none⟩ [⟨"kitchen", .receiver⟩]
      ⟨"kitchen", "Kitchen", "receiver", 1⟩ 0 .local) ::
    List.replicate n (.audio { now := 0, write := fun _ => .written 1920, readPcm := .ok 1920 })

/-- The listener pauses before the track ends. -/
theorem clock_follows_lifecycle_paused :
    Along turn StopsClock (start {} 0)
        (kitchenChunks 10 ++ [.recv { now := 1000000000 } (.pause .local)]) ∧
      ∃ t, run (start {} 0) (kitchenChunks 10 ++ [.recv { now := 1000000000 } (.pause .local)]) =
          some t ∧
        (t.engine.playingStartedAt.isSome = true → t.engine.state.isPlaying = true) ∧
        (t.engine.state.isPlaying = false → ∀ env env',
          (t.engine.snapshot env).positionMs = (t.engine.snapshot env').positionMs) := by
  have hstops : Along turn StopsClock (start {} 0)
      (kitchenChunks 10 ++ [.recv { now := 1000000000 } (.pause .local)]) := by decide +kernel
  exact ⟨hstops, clock_follows_lifecycle hstops List.prefix_rfl⟩

/-- The only track ends, and the player that has ended reports a position that goes on: five seconds
later it is five seconds further. -/
theorem ended_clock_goes_on :
    (run (start {} 0) (kitchenChunks 10 ++ [.audio { now := 1000000000 }])).any fun t =>
      t.engine.state = .ended ∧ t.engine.playingStartedAt.isSome ∧
        (t.engine.snapshot { now := 1000000000 }).positionMs = 1000 ∧
        (t.engine.snapshot { now := 6000000000 }).positionMs = 6000 := by
  decide +kernel

/-! ## The decoder -/

/-- The turn does not leave a decoder on a deck that is given up: a track that takes over can be
started. -/
def FreesDecoder (t : EngineTask) (input : EngineTurn) : Prop :=
  match input with
  | .recv env cmd =>
    t.engine.decoder.isSome = true → t.engine.takesOver cmd = true →
      canStart env t.engine.sinks = true
  | .audio _ | .closed _ => True

instance (t : EngineTask) (input : EngineTurn) : Decidable (t.FreesDecoder input) := by
  unfold FreesDecoder
  cases input <;> infer_instance

/-- A decoder is there only while a track is decoded, and decodes the current track. -/
def DecoderRight (d : Deck) : Prop :=
  ∀ decoder ∈ d.decoder, d.state.decodes = true ∧
    ∃ track, d.currentTrack = some track ∧ decoder.filePath = track.filePath

theorem not_waits (hloaded : t.engine.deck.Loaded) (hdecodes : t.engine.state.decodes = true) :
    ¬ (t.engine.sinks = [] ∨ (t.engine.state.isPlaying || t.engine.state = .preparing) = false) := by
  rintro (hempty | hidle)
  · exact hloaded.sinks hdecodes hempty
  · have hbuffering : t.engine.state ≠ .buffering := hloaded.buffering
    generalize t.engine.state = s at hdecodes hidle hbuffering
    cases s <;> simp_all [PlaybackLifecycle.decodes, PlaybackLifecycle.isPlaying]

/-- An input that frees the decoder where it should keeps it right. -/
theorem decoderRight_turned {t : EngineTask} {input : EngineTurn} {d : Deck}
    (hloaded : t.engine.deck.Loaded) (hright : DecoderRight t.engine.deck)
    (hfrees : t.FreesDecoder input) (h : t.engine.Turned input d) : DecoderRight d := by
  cases h with
  | kept => exact hright
  | started track positionMs sinks => rintro _ ⟨⟩; exact ⟨rfl, track, rfl, rfl⟩
  | sought track positionMs playing trackEq => rintro _ ⟨⟩; exact ⟨rfl, track, trackEq, rfl⟩
  | unloaded silent decoder => intro d' hd'; rw [decoder] at hd'; cases hd'
  | failed state sinks silent freed refused =>
    intro decoder hdecoder
    obtain ⟨hdecodes, -⟩ := hright decoder hdecoder
    rcases freed with htakes | hidle
    · have hcan := hfrees (Option.isSome_iff_exists.mpr ⟨decoder, hdecoder⟩) htakes
      exact absurd (refused.symm.trans hcan) Bool.false_ne_true
    · exact absurd (hidle.symm.trans hdecodes) Bool.false_ne_true
  | chosen track clock position clockEq waits =>
    intro decoder hdecoder
    exact absurd waits (not_waits hloaded (hright decoder hdecoder).1)
  | rebased => exact hright
  | queued track vacant =>
    intro decoder hdecoder
    obtain ⟨hdecodes, -⟩ := hright decoder hdecoder
    exact absurd vacant (hloaded.track hdecodes)
  | silent decodes decoder => exact absurd decoder (hloaded.decoder decodes)
  | ended => exact nofun
  | flowed state clock sinks decodes sounding flow =>
    intro decoder hdecoder
    obtain ⟨hdecodes, htrack⟩ := hright decoder hdecoder
    grind [PlaybackLifecycle.decodes_of_isPlaying]

/-- **There is a decoder exactly while a track is decoded**, of the current track, in every state of a
run whose turns free it. -/
theorem decoder_follows_lifecycle (h : Along turn FreesDecoder (start format now) turns)
    {before : List EngineTurn} (hbefore : before <+: turns) :
    ∃ t, run (start format now) before = some t ∧
      (t.engine.decoder.isSome = true ↔
        t.engine.state = .preparing ∨ t.engine.state = .buffering ∨
          t.engine.state = .audioFlowing ∨ t.engine.state = .playing) ∧
      ∀ decoder ∈ t.engine.decoder, ∃ track, t.engine.currentTrack = some track ∧
        decoder.filePath = track.filePath := by
  obtain ⟨t, hrun, hloaded, hright⟩ := run_along (fun _ _ _ hloaded hright hfrees hturned =>
    decoderRight_turned hloaded hright hfrees hturned) nofun (h.of_prefix hbefore)
  have hdecodes : t.engine.state.decodes = true ↔
      t.engine.state = .preparing ∨ t.engine.state = .buffering ∨
        t.engine.state = .audioFlowing ∨ t.engine.state = .playing := by
    cases t.engine.state <;> simp [PlaybackLifecycle.decodes]
  refine ⟨t, hrun, ?_, fun decoder hdecoder => (hright decoder hdecoder).2⟩
  rw [← hdecodes]
  constructor
  · intro hsome
    obtain ⟨decoder, hdecoder⟩ := Option.isSome_iff_exists.mp hsome
    exact (hright decoder hdecoder).1
  · exact fun h => Option.ne_none_iff_isSome.mp (hloaded.decoder h)

def kitchenJump (env : EngineEnv) : List EngineTurn :=
  .recv { now := 0 } (.setQueue [⟨1, "/music/a.flac", none⟩, ⟨2, "/music/b.flac", none⟩] 0 none .local) ::
    kitchenChunks 10 ++ [.recv env (.jumpToIndex 1 .local)]

/-- A jump to the second track, with a decoder that starts. -/
theorem decoder_follows_lifecycle_jump :
    Along turn FreesDecoder (start {} 0) (kitchenJump { now := 1 }) ∧
      ∃ t, run (start {} 0) (kitchenJump { now := 1 }) = some t ∧
        (t.engine.decoder.isSome = true ↔
          t.engine.state = .preparing ∨ t.engine.state = .buffering ∨
            t.engine.state = .audioFlowing ∨ t.engine.state = .playing) ∧
        ∀ decoder ∈ t.engine.decoder, ∃ track, t.engine.currentTrack = some track ∧
          decoder.filePath = track.filePath := by
  have hfrees : Along turn FreesDecoder (start {} 0) (kitchenJump { now := 1 }) := by decide +kernel
  exact ⟨hfrees, decoder_follows_lifecycle hfrees List.prefix_rfl⟩

/-- The second track cannot be opened: the engine is idle, and holds the decoder of the first. Where
the sinks do not prepare, it has failed with it. -/
theorem refused_jump_keeps_decoder :
    ((run (start {} 0) (kitchenJump
        { now := 1, decoderStart := .error (.trackFileMissing "/music/b.flac") })).any fun t =>
      t.engine.state = .idle ∧ t.engine.decoder = some ⟨"/music/a.flac", 0⟩) ∧
    (run (start {} 0) (kitchenJump { now := 1, prepare := fun _ => false })).any fun t =>
      t.engine.state = .failed ∧ t.engine.decoder = some ⟨"/music/a.flac", 0⟩ := by
  decide +kernel

/-! ## The position -/

/-- The turn does not move the position of a track that is being decoded from elsewhere. -/
def KeepsPlace (t : EngineTask) (input : EngineTurn) : Prop :=
  match input with
  | .recv _ cmd =>
    ∀ positionMs ∈ t.engine.rebased cmd, ∀ decoder ∈ t.engine.decoder,
      decoder.startPositionMs = positionMs
  | .audio _ | .closed _ => True

instance (t : EngineTask) (input : EngineTurn) : Decidable (t.KeepsPlace input) := by
  unfold KeepsPlace
  cases input <;> infer_instance

def PlaceRight (d : Deck) : Prop :=
  ∀ decoder ∈ d.decoder, decoder.startPositionMs = d.basePositionMs

theorem placeRight_turned {t : EngineTask} {input : EngineTurn} {d : Deck}
    (hright : PlaceRight t.engine.deck) (hkeeps : t.KeepsPlace input)
    (h : t.engine.Turned input d) : PlaceRight d := by
  cases h with
  | kept => exact hright
  | started => rintro _ ⟨⟩; rfl
  | sought => rintro _ ⟨⟩; rfl
  | unloaded silent decoder => intro d' hd'; rw [decoder] at hd'; cases hd'
  | failed => exact hright
  | chosen track clock position => exact fun decoder hdecoder => hkeeps 0 position decoder hdecoder
  | rebased positionMs clock position =>
    exact fun decoder hdecoder => hkeeps positionMs position decoder hdecoder
  | queued => exact hright
  | silent => exact hright
  | ended => exact nofun
  | flowed => exact hright

theorem base_of_seek {env : EngineEnv} {e : PlaybackEngine} {positionMs : ℕ}
    (hloaded : e.deck.Loaded) (hok : (e.handleSeek env positionMs).2 = .ok ()) :
    (e.handleSeek env positionMs).1.basePositionMs = positionMs := by
  revert hok
  unfold handleSeek
  dsimp only
  split
  · rename_i hplaying
    split
    · split
      · exact fun _ => rfl
      · exact nofun
    · rename_i hnone
      exact absurd hnone (hloaded.track (PlaybackLifecycle.decodes_of_isPlaying hplaying))
  · exact fun _ => rfl

theorem base_of_start {env : EngineEnv} {e : PlaybackEngine} {track : Track} {positionMs : ℕ}
    (hbase : e.basePositionMs = positionMs) :
    (e.startPlaybackInternal env track positionMs).1.basePositionMs = positionMs := by
  have h := starts_startPlaybackInternal env e track positionMs
  change (e.startPlaybackInternal env track positionMs).1.deck.basePositionMs = positionMs
  generalize (e.startPlaybackInternal env track positionMs).1.deck = d' at h ⊢
  generalize (e.startPlaybackInternal env track positionMs).2.isOk = answered at h
  cases h with
  | ok => rfl
  | failed => exact hbase

theorem base_of_resume (env : EngineEnv) (e : PlaybackEngine) :
    (e.handleResume env).1.basePositionMs = e.basePositionMs := by
  unfold handleResume
  dsimp only
  split
  · rfl
  · split
    · split
      · split
        · exact base_of_start rfl
        · exact base_of_start rfl
      · rfl
    · split
      · split
        · exact base_of_start rfl
        · rfl
      · rfl

/-- **The base position is where the decoder was started**, in every state of a run whose turns keep
its place. A seek there that keeps it and is answered with success brings the deck to its target: the
decoder is at the target, and so is the one a resumption starts. -/
theorem base_is_where_decoding_started (h : Along turn KeepsPlace (start format now) turns)
    {before : List EngineTurn} (hbefore : before <+: turns) :
    ∃ t, run (start format now) before = some t ∧
      (∀ decoder ∈ t.engine.decoder, decoder.startPositionMs = t.engine.basePositionMs) ∧
      ∀ env positionMs origin r, t.KeepsPlace (.recv env (.seek positionMs origin)) →
        t.engine.handleCommand env (.seek positionMs origin) = some r →
        r.2.1 = .done (.ok ()) →
          r.1.basePositionMs = positionMs ∧
          (∀ decoder ∈ r.1.decoder, decoder.startPositionMs = positionMs) ∧
          ∀ env' origin' r', r.1.handleCommand env' (.resume origin') = some r' →
            ∀ decoder ∈ r'.1.decoder, decoder.startPositionMs = positionMs := by
  obtain ⟨t, hrun, hloaded, hright⟩ := run_along (C := KeepsPlace) (I := PlaceRight)
    (fun _ _ _ _ hright hkeeps hturned => placeRight_turned hright hkeeps hturned) nofun
    (h.of_prefix hbefore)
  refine ⟨t, hrun, hright, fun env positionMs origin r hkeeps hseek hok => ?_⟩
  have hplace : PlaceRight r.1.deck :=
    placeRight_turned hright hkeeps (turned_handleCommand env t.engine _ r hseek)
  have hbase : r.1.basePositionMs = positionMs := by
    obtain rfl : _ = r := Option.some.inj hseek
    exact base_of_seek (e := { t.engine with currentCommandOrigin := some origin }) hloaded
      (EngineResponse.done.inj hok)
  refine ⟨hbase, fun decoder hdecoder => (hplace decoder hdecoder).trans hbase, ?_⟩
  intro env' origin' r' hresume decoder hdecoder
  have hkeeps' : KeepsPlace { engine := r.1 } (.recv env' (.resume origin')) := nofun
  have hplace' : PlaceRight r'.1.deck :=
    placeRight_turned hplace hkeeps' (turned_handleCommand env' r.1 _ r' hresume)
  have hbase' : r'.1.basePositionMs = r.1.basePositionMs := by
    obtain rfl : _ = r' := Option.some.inj hresume
    exact base_of_resume env' _
  exact (hplace' decoder hdecoder).trans (hbase'.trans hbase)

/-- Once audio flows, a seek starts the decoder at its target. -/
theorem base_is_where_decoding_started_flowing :
    Along turn KeepsPlace (start {} 0) (kitchenChunks 1) ∧
      ∃ t r, run (start {} 0) (kitchenChunks 1) = some t ∧
        t.engine.handleCommand { now := 1 } (.seek 30000 .local) = some r ∧
        r.1.decoder.isSome = true ∧ r.1.basePositionMs = 30000 ∧
        ∀ decoder ∈ r.1.decoder, decoder.startPositionMs = 30000 := by
  have hkeeps : Along turn KeepsPlace (start {} 0) (kitchenChunks 1) := by decide +kernel
  obtain ⟨t, hrun, -, hseek⟩ := base_is_where_decoding_started hkeeps List.prefix_rfl
  obtain rfl : _ = t := Option.some.inj hrun
  obtain ⟨hbase, hplace, -⟩ := hseek { now := 1 } 30000 .local _ (by decide +kernel) rfl rfl
  exact ⟨hkeeps, _, _, rfl, rfl, rfl, hbase, hplace⟩

/-- Before the first chunk a seek is answered with success and moves the position alone: half a minute
in, the decoder still reads from the start of the track, and the chunks heard next are the first ones. -/
theorem seek_before_audio_is_lost :
    ∃ t r, run (start {} 0) (kitchenChunks 0) = some t ∧
      t.engine.handleCommand { now := 1 } (.seek 30000 .local) = some r ∧
      r.2.1 = .done (.ok ()) ∧ r.1.basePositionMs = 30000 ∧
      r.1.decoder = some ⟨"/music/a.flac", 0⟩ :=
  ⟨_, _, rfl, rfl, rfl, rfl, rfl⟩

end EngineTask

end MichiServer.Playback
