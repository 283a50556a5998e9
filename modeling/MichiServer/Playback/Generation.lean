import MichiServer.Playback.DeckRuns

/-!
# What a generation stands for

A listener that holds PCM of a track drops it when the generation has changed, and keeps it otherwise.
For that the generation has to stand for the current track and for one count of its bytes. `Follows`
says of a step that it begins another generation, or keeps the track and does not take the counts back.
Two commands do neither: `LoadTrack`, which puts another track on the deck under the old number, and
`SetQueue`, which gives a track to a deck that has none.
-/

namespace MichiServer.Playback

open MichiServer.Logic

namespace PlaybackEngine

/-- Another generation has begun; or the track is the same, and the counts have not been taken back. -/
def Follows (e e' : PlaybackEngine) : Prop :=
  e.generationId < e'.generationId ∨
    (e'.generationId = e.generationId ∧ e'.currentTrack = e.currentTrack ∧
      e.trackBytesDecoded ≤ e'.trackBytesDecoded ∧
      e.trackPcmTimelineBytes ≤ e'.trackPcmTimelineBytes)

def marks (e : PlaybackEngine) : ℕ × Option Track × ℕ × ℕ :=
  (e.generationId, e.currentTrack, e.trackBytesDecoded, e.trackPcmTimelineBytes)

variable {env : EngineEnv} {e e' e'' : PlaybackEngine}

theorem follows_of_marks (h : e'.marks = e.marks) : e.Follows e' := by
  simp only [marks, Prod.mk.injEq] at h
  obtain ⟨hgeneration, htrack, hdecoded, htimeline⟩ := h
  exact .inr ⟨hgeneration, htrack, hdecoded.ge, htimeline.ge⟩

theorem Follows.refl (e : PlaybackEngine) : e.Follows e := follows_of_marks rfl

theorem Follows.le (h : e.Follows e') : e.generationId ≤ e'.generationId := by
  rcases h with hlt | ⟨heq, -⟩
  · exact hlt.le
  · exact heq.ge

theorem Follows.of_generation (h : e.Follows e') (hsame : e'.generationId = e.generationId) :
    e'.currentTrack = e.currentTrack ∧ e.trackBytesDecoded ≤ e'.trackBytesDecoded ∧
      e.trackPcmTimelineBytes ≤ e'.trackPcmTimelineBytes := by
  rcases h with hlt | ⟨-, hkept⟩
  · exact absurd hsame hlt.ne'
  · exact hkept

theorem Follows.trans (h : e.Follows e') (h' : e'.Follows e'') : e.Follows e'' := by
  rcases h with hlt | ⟨hgeneration, htrack, hdecoded, htimeline⟩
  · exact .inl (hlt.trans_le h'.le)
  · rcases h' with hlt' | ⟨hgeneration', htrack', hdecoded', htimeline'⟩
    · exact .inl (hgeneration ▸ hlt')
    · exact .inr ⟨hgeneration'.trans hgeneration, htrack'.trans htrack, hdecoded.trans hdecoded',
        htimeline.trans htimeline'⟩

theorem Recued.marks (h : e.Recued e') : e'.marks = e.marks := by
  obtain ⟨_, _, _, rfl⟩ := h
  rfl

/-! ## Starting, failing and ending -/

theorem follows_startPlaybackInternal (env : EngineEnv) (e : PlaybackEngine) (track : Track)
    (positionMs : ℕ) : e.Follows (e.startPlaybackInternal env track positionMs).1 := by
  unfold startPlaybackInternal
  dsimp only
  split
  · exact .refl e
  · split
    · exact .refl e
    · split
      · exact .refl e
      · exact .inl (Nat.lt_succ_self _)

theorem follows_startOrFail (env : EngineEnv) (e : PlaybackEngine) (track : Track) :
    e.Follows (e.startOrFail env track) :=
  startOrFail_of (follows_startPlaybackInternal env e track 0) fun _ _ h => h

theorem marks_cleanupPlayback (env : EngineEnv) (e : PlaybackEngine) :
    (e.cleanupPlayback env).1.marks = e.marks :=
  view_cleanupPlayback marks (fun _ _ => rfl) env e

theorem follows_cleanup (env : EngineEnv) (e : PlaybackEngine) : e.Follows (e.cleanup env) :=
  follows_of_marks (marks_cleanupPlayback env e)

/-! ## Audio -/

theorem marks_advanceTimeline (now n : ℕ) (e : PlaybackEngine) :
    (e.advanceTimeline now n).marks =
      (e.generationId, e.currentTrack, e.trackBytesDecoded, e.trackPcmTimelineBytes + n) := by
  unfold advanceTimeline
  dsimp only
  split_ifs <;> rfl

theorem marks_afterFanOut (env : EngineEnv) (n : ℕ) (e : PlaybackEngine) :
    (e.afterFanOut env n).marks =
      (e.generationId, e.currentTrack, e.trackBytesDecoded + n, e.trackPcmTimelineBytes) := by
  unfold afterFanOut
  dsimp only
  split <;> rfl

/-- A chunk keeps the generation with its track. -/
theorem follows_deliverChunk (env : EngineEnv) (n : ℕ) (e : PlaybackEngine) :
    e.Follows (e.deliverChunk env n) := by
  have hafter : e.Follows (e.afterFanOut env n) := by
    have h := marks_afterFanOut env n e
    simp only [marks, Prod.mk.injEq] at h
    exact .inr ⟨h.1, h.2.1, by omega, by omega⟩
  by_cases hsinks : (e.fanOut env).survivingSinks = []
  · unfold deliverChunk
    dsimp only
    split
    · exact .inr ⟨rfl, rfl, Nat.le_add_right _ _, le_rfl⟩
    · rename_i hsome
      exact absurd (List.isEmpty_iff.mpr hsinks) hsome
  · rw [deliverChunk_eq env n hsinks]
    split
    · refine hafter.trans ?_
      have h := marks_advanceTimeline env.now n (e.afterFanOut env n)
      simp only [marks, Prod.mk.injEq] at h
      exact .inr ⟨h.1, h.2.1, by omega, by omega⟩
    · exact hafter

theorem follows_afterEof (env : EngineEnv) (e : PlaybackEngine) :
    Returns (e.afterEof env) fun e' => e.Follows e' := by
  have hat : ∀ (e₁ : PlaybackEngine) (pos : ℕ), e.Recued e₁ → Returns
      (e₁.playOrderAt pos >>= fun r => some (r.1.startOrFail env r.2)) fun e' => e.Follows e' :=
    fun e₁ pos h₁ => (recued_playOrderAt pos).bind fun r hr =>
      .some ((follows_of_marks (h₁.trans hr).marks).trans (follows_startOrFail env r.1 r.2))
  unfold afterEof
  cases e.repeatMode with
  | one =>
    cases e.currentTrack with
    | none => exact .some (.refl e)
    | some track => exact .some (follows_startOrFail env e track)
  | all =>
    refine .ite (fun _ => .some (.refl e)) fun _ => .ite (fun _ => ?_) fun _ => hat e _ ⟨_, _, _, rfl⟩
    exact (recued_beginCycle env.rng).bind fun e₁ h₁ => hat e₁ _ h₁
  | off => exact .ite (fun _ => hat e _ ⟨_, _, _, rfl⟩) fun _ => .some (.refl e)

theorem follows_processAudioChunk (env : EngineEnv) (e : PlaybackEngine) :
    Returns (e.processAudioChunk env) fun e' => e.Follows e' := by
  unfold processAudioChunk
  split
  · exact .some (.refl e)
  · split
    · have h := follows_afterEof env ({ e with decoder := none }.emitEvent (.ended e.trackId))
      exact h
    · exact .some (follows_deliverChunk env _ e)
    · exact .some (.refl e)

/-! ## Commands -/

theorem follows_handlePlay (env : EngineEnv) (e : PlaybackEngine) (track : Track)
    (sinks : List AudioSink) (outputDesc : PlaybackOutputDescription) (positionMs : ℕ) :
    e.Follows (e.handlePlay env track sinks outputDesc positionMs).1 := by
  unfold handlePlay
  dsimp only
  split
  · exact .refl e
  · have hclean : e.Follows (e.takeTimeline.cleanupPlayback env).1 :=
      follows_of_marks (marks_cleanupPlayback env e.takeTimeline)
    have hstart := follows_startPlaybackInternal env
      { (e.takeTimeline.cleanupPlayback env).1 with sinks := sinks, outputDesc := some outputDesc }
      track positionMs
    exact hclean.trans hstart

theorem follows_handleLoadTrack (env : EngineEnv) {track : Track} (positionMs : ℕ)
    (hsame : e.currentTrack = some track) :
    e.Follows (e.handleLoadTrack env track positionMs).1 := by
  have hclean := marks_cleanupPlayback env e.takeTimeline
  simp only [marks, Prod.mk.injEq] at hclean
  exact .inr ⟨hclean.1, hsame.symm, hclean.2.2.1.ge, hclean.2.2.2.ge⟩

theorem follows_handleJumpToIndex (env : EngineEnv) (index : ℕ) :
    Returns (e.handleJumpToIndex env index) fun r => e.Follows r.1 := by
  refine .ite (fun _ => .some (.refl e)) fun _ => .skip fun track => .ite (fun _ => .some ?_)
    fun _ => .some (.inl (Nat.lt_succ_self _))
  have h := follows_startPlaybackInternal env { e.takeTimeline with
    queueIndex := index, playOrderPos := (e.playOrder.idxOf? index).getD 0 } track 0
  exact h

theorem follows_handleResume (env : EngineEnv) (e : PlaybackEngine) :
    e.Follows (e.handleResume env).1 := by
  have hstart : ∀ (e₁ : PlaybackEngine) (track : Track) (positionMs : ℕ), e₁.marks = e.marks →
      e.Follows (e₁.startPlaybackInternal env track positionMs).1 := fun e₁ track positionMs h =>
    (follows_of_marks h).trans (follows_startPlaybackInternal env e₁ track positionMs)
  unfold handleResume
  dsimp only
  split
  · exact .refl e
  · split
    · split
      · apply hstart
        split <;> rfl
      · exact .refl e
    · split
      · split
        · exact hstart e.takeTimeline _ _ rfl
        · exact .refl e
      · exact .refl e

theorem follows_handleSeek (env : EngineEnv) (e : PlaybackEngine) (positionMs : ℕ) :
    e.Follows (e.handleSeek env positionMs).1 := by
  unfold handleSeek
  dsimp only
  split
  · split
    · split <;> exact .inl (Nat.lt_succ_self _)
    · exact .refl e
  · exact .refl e

theorem follows_moveTo (env : EngineEnv) (e : PlaybackEngine) (track : Track) :
    e.Follows (e.moveTo env track).1 := by
  unfold moveTo
  split
  · exact .inl (Nat.lt_succ_self _)
  · exact follows_startPlaybackInternal env e track 0

theorem follows_handleNext (env : EngineEnv) (e : PlaybackEngine) :
    Returns (e.handleNext env) fun r => e.Follows r.1 := by
  have hmove : ∀ (e₁ : PlaybackEngine) (track : Track), e.Recued e₁ →
      e.Follows (e₁.moveTo env track).1 := fun e₁ track h₁ =>
    (follows_of_marks h₁.marks).trans (follows_moveTo env e₁ track)
  refine .ite (fun _ => ?_) fun _ => .ite (fun _ => ?_) fun _ => .some ?_
  · exact (recued_playOrderAt _).bind fun r hr => .some (hmove r.1 r.2 hr)
  · refine (recued_beginCycle env.rng).bind fun e₁ h₁ => .skip fun index => .skip fun track => ?_
    exact .some (hmove { e₁ with queueIndex := index } track (h₁.trans ⟨_, _, _, rfl⟩))
  · exact follows_of_marks (marks_cleanupPlayback env e)

theorem follows_restartCurrent (env : EngineEnv) (e : PlaybackEngine) :
    e.Follows (e.restartCurrent env).1 := by
  unfold restartCurrent
  split
  · split
    · exact .refl e
    · exact follows_startPlaybackInternal env e _ 0
  · exact .refl e

theorem follows_handlePrevious (env : EngineEnv) (e : PlaybackEngine) :
    Returns (e.handlePrevious env) fun r => e.Follows r.1 := by
  refine .ite (fun _ => .some (follows_restartCurrent env e)) fun _ => .ite (fun _ => ?_) fun _ =>
    .some (follows_restartCurrent env e)
  exact (recued_playOrderAt _).bind fun r hr =>
    .some ((follows_of_marks hr.marks).trans (follows_moveTo env r.1 r.2))

theorem follows_handleSetQueue (env : EngineEnv) {tracks : List Track} (currentIndex : ℕ)
    (currentTrackId : Option Uuid) (h : e.currentTrack = none → tracks = []) :
    Returns (e.handleSetQueue env tracks currentIndex currentTrackId) fun r =>
      e.Follows r.1 := by
  refine (recomputePlayOrder_eq env.rng _).bind fun e₁ h₁ => .some ?_
  obtain ⟨order, pos, rfl⟩ := h₁
  dsimp only
  split
  · rename_i hvacant
    have hnone : e.currentTrack = none := Option.isNone_iff_eq_none.mp hvacant.2
    obtain rfl := h hnone
    exact .inr ⟨rfl, hnone.symm, le_rfl, le_rfl⟩
  · exact .refl e

end PlaybackEngine

namespace EngineTask

open PlaybackEngine

/-- The command puts no other track on the deck under the same number: it does not load one, and brings
no queue to a deck without a track. -/
def KeepsGeneration (t : EngineTask) (input : EngineTurn) : Prop :=
  match input with
  | .recv _ (.loadTrack track _ _) => t.engine.currentTrack = some track
  | .recv _ (.setQueue tracks _ _ _) => t.engine.currentTrack = none → tracks = []
  | _ => True

instance (t : EngineTask) (input : EngineTurn) : Decidable (t.KeepsGeneration input) := by
  unfold KeepsGeneration
  split <;> infer_instance

/-- A command that loads nothing under the old generation keeps it with its track. -/
theorem follows_handleCommand {t : EngineTask} {env : EngineEnv} {cmd : EngineCommand}
    (hkeeps : t.KeepsGeneration (.recv env cmd)) :
    Returns (t.engine.handleCommand env cmd) fun r => t.engine.Follows r.1 := by
  refine Returns.bind (P := fun r => t.engine.Follows r.1) ?_ fun r hr => .some hr
  let begun : PlaybackEngine := { t.engine with currentCommandOrigin := some cmd.origin }
  show Returns (begun.handleCommandInner env cmd) fun r => begun.Follows r.1
  cases cmd with
  | play track sinks outputDesc positionMs _ =>
    exact .some (follows_handlePlay env begun track sinks outputDesc positionMs)
  | loadTrack track positionMs _ => exact .some (follows_handleLoadTrack env positionMs hkeeps)
  | jumpToIndex index _ => exact (follows_handleJumpToIndex env index).map fun _ hr => hr
  | pause _ =>
    refine .some ?_
    unfold handlePause
    dsimp only [respond]
    split <;> exact .refl begun
  | resume _ => exact .some (follows_handleResume env begun)
  | seek positionMs _ => exact .some (follows_handleSeek env begun positionMs)
  | «next» _ => exact (follows_handleNext env begun).map fun _ hr => hr
  | previous _ => exact (follows_handlePrevious env begun).map fun _ hr => hr
  | stop _ =>
    have hclean := marks_cleanupPlayback env { begun with currentTimelineOrigin := .local }
    exact .some (follows_of_marks hclean)
  | setVolume volume _ =>
    refine .some ?_
    unfold handleSetVolume
    dsimp only [respond]
    split_ifs <;> exact .refl begun
  | setShuffle shuffle _ =>
    have h : Returns (begun.handleSetShuffle env shuffle) fun r => begun.Follows r.1 :=
      (recued_recomputePlayOrder env.rng _).bind fun _ h₁ => .some (follows_of_marks h₁.marks)
    exact h.map fun _ hr => hr
  | setRepeat repeatMode _ => exact .some (.refl begun)
  | setQueue tracks currentIndex currentTrackId _ =>
    exact (follows_handleSetQueue (e := begun) env currentIndex currentTrackId hkeeps).map
      fun _ hr => hr
  | getSnapshot => exact .some (.refl begun)
  | shutdown => exact .some (follows_cleanup env begun)

theorem follows_turn {t : EngineTask} {input : EngineTurn} (hkeeps : t.KeepsGeneration input) :
    Returns (t.turn input) fun t' => t.engine.Follows t'.engine := by
  refine .ite (fun _ => .some (.refl _)) fun _ => ?_
  cases input with
  | recv env cmd =>
    refine (follows_handleCommand hkeeps).bind fun r hr => ?_
    exact .ite (fun _ => .some hr) fun _ => .some (hr.trans (follows_cleanup env r.1))
  | closed env => exact .some (follows_cleanup env t.engine)
  | audio env =>
    refine .ite (fun _ => ?_) fun _ => .some (.refl _)
    exact (follows_processAudioChunk env t.engine).bind fun e he => .some he

theorem follows_run {t : EngineTask} {turns : List EngineTurn} (hqueue : t.engine.QueueInv)
    (h : Along turn KeepsGeneration t turns) :
    ∃ t', run t turns = some t' ∧ t'.engine.QueueInv ∧ t.engine.Follows t'.engine := by
  refine h.succeeds (I := fun t' => t'.engine.QueueInv ∧ t.engine.Follows t'.engine) ?_
    ⟨hqueue, .refl _⟩
  intro t₁ input ⟨hqueue₁, hfollows⟩ hkeeps
  refine ((turn_queueInv hqueue₁ input).and_returns (follows_turn hkeeps)).mono fun t₂ h₂ => ?_
  exact ⟨h₂.1, hfollows.trans h₂.2⟩

/-- **A generation stands for its track**, in every run whose turns keep it: of two snapshots with the
same number the track is the same, and the counts of its bytes have only grown from one to the other. -/
theorem generation_identifies_track {format : PcmFormat} {now : ℕ} {turns : List EngineTurn}
    (h : Along turn KeepsGeneration (start format now) turns) {before between : List EngineTurn}
    (hbetween : before ++ between <+: turns) :
    ∃ t t', run (start format now) before = some t ∧ run t between = some t' ∧
      ∀ env env', (t'.engine.snapshot env').generationId = (t.engine.snapshot env).generationId →
        (t'.engine.snapshot env').currentTrack = (t.engine.snapshot env).currentTrack ∧
        ∀ during, during <+: between → ∃ t'', run t during = some t'' ∧
          (t''.engine.snapshot env).generationId = (t.engine.snapshot env).generationId ∧
          t.engine.trackBytesDecoded ≤ t''.engine.trackBytesDecoded ∧
          t''.engine.trackBytesDecoded ≤ t'.engine.trackBytesDecoded ∧
          t.engine.trackPcmTimelineBytes ≤ t''.engine.trackPcmTimelineBytes ∧
          t''.engine.trackPcmTimelineBytes ≤ t'.engine.trackPcmTimelineBytes := by
  have hall := h.of_prefix hbetween
  obtain ⟨t, hrun, hqueue, -⟩ := follows_run (queueInv_of_empty rfl rfl)
    (hall.of_prefix (List.prefix_append before between))
  have hlater := hall.of_append hrun
  obtain ⟨t', hrun', -, hfollows⟩ := follows_run hqueue hlater
  refine ⟨t, t', hrun, hrun', ?_⟩
  intro env env' hsame
  refine ⟨(hfollows.of_generation hsame).1, ?_⟩
  rintro during ⟨rest, rfl⟩
  obtain ⟨t'', hrun'', hqueue'', hfollows''⟩ :=
    follows_run hqueue (hlater.of_prefix (List.prefix_append during rest))
  have hrest : run t'' rest = some t' := by
    unfold run at hrun' hrun'' ⊢
    rwa [List.foldlM_append, hrun''] at hrun'
  obtain ⟨t₁, hrun₁, -, hon⟩ := follows_run hqueue'' (hlater.of_append hrun'')
  obtain rfl : t₁ = t' := Option.some.inj (hrun₁.symm.trans hrest)
  have hgeneration : t''.engine.generationId = t.engine.generationId :=
    le_antisymm (hon.le.trans hsame.le) hfollows''.le
  have hbegun := hfollows''.of_generation hgeneration
  have hended := hon.of_generation (hsame.trans hgeneration.symm)
  exact ⟨t'', hrun'', hgeneration, hbegun.2.1, hended.2.1, hbegun.2.2, hended.2.2⟩

/-- Two chunks later it is the same track, of which more has been heard. -/
theorem generation_identifies_track_chunks :
    Along turn KeepsGeneration (start {} 0) (kitchenChunks 3) ∧
      ∃ t t', run (start {} 0) (kitchenChunks 1) = some t ∧
        run t ((kitchenChunks 2).drop 1) = some t' ∧
        (t'.engine.snapshot { now := 0 }).generationId =
          (t.engine.snapshot { now := 0 }).generationId ∧
        (t'.engine.snapshot { now := 0 }).currentTrack =
          (t.engine.snapshot { now := 0 }).currentTrack := by
  have hkeeps : Along turn KeepsGeneration (start {} 0) (kitchenChunks 3) := by decide +kernel
  have hprefix : kitchenChunks 1 ++ (kitchenChunks 2).drop 1 <+: kitchenChunks 3 := ⟨[], rfl⟩
  obtain ⟨t, t', hrun, hrun', hsame⟩ := generation_identifies_track hkeeps hprefix
  refine ⟨hkeeps, t, t', hrun, hrun', ?_⟩
  obtain rfl : _ = t := Option.some.inj hrun
  obtain rfl : _ = t' := Option.some.inj hrun'
  exact ⟨rfl, (hsame { now := 0 } { now := 0 } rfl).1⟩

/-- A track is loaded over the one that plays, or a queue brings the deck its first: the snapshots have
one number and two tracks. -/
theorem track_changes_under_one_generation :
    ((run (start {} 0) (kitchenChunks 1)).any fun t =>
      t.engine.generationId = 1 ∧ t.engine.currentTrack = some ⟨1, "/music/a.flac", none⟩) ∧
    ((run (start {} 0) (kitchenChunks 1 ++
        [.recv { now := 1 } (.loadTrack ⟨2, "/music/b.flac", none⟩ 0 .local)])).any fun t =>
      t.engine.generationId = 1 ∧ t.engine.currentTrack = some ⟨2, "/music/b.flac", none⟩) ∧
    (start {} 0).engine.generationId = 0 ∧ (start {} 0).engine.currentTrack = none ∧
    ((run (start {} 0) [.recv { now := 1 } (.setQueue [⟨2, "/music/b.flac", none⟩] 0 none .local)]).any
      fun t => t.engine.generationId = 0 ∧
        t.engine.currentTrack = some ⟨2, "/music/b.flac", none⟩) := by
  decide +kernel

end EngineTask

end MichiServer.Playback
