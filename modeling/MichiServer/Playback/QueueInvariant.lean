import MichiServer.Logic.Succeeds
import MichiServer.Playback.Run

/-!
# The queue and its play order

The engine walks its queue through `play_order`, a list of queue indices, and keeps both its place in
that list and the index found there. `cursor` is this part of the engine; it is well formed when the
order is a permutation of the queue's indices and the two agree. Every index the engine uses is then
in bounds, so no step panics.

Most of the engine's functions leave the cursor alone, and a frame lemma says so for each. Those that
move it either go to another place of the order or lay the order out anew.
-/

namespace MichiServer.Playback

open MichiServer.Order MichiServer.Logic

namespace PlaybackEngine

def cursor (e : PlaybackEngine) : Cursor :=
  ⟨e.queue.length, e.playOrder, e.playOrderPos, e.queueIndex⟩

/-- The queue invariant: `play_order` is a permutation of the queue's indices, the position is in it,
and the queue index is the one at the position. -/
def QueueInv (e : PlaybackEngine) : Prop := e.cursor.WellFormed

theorem queueInv_iff (e : PlaybackEngine) :
    e.QueueInv ↔ e.playOrder.Perm (List.range e.queue.length) ∧
      (0 < e.queue.length → e.playOrderPos < e.playOrder.length ∧
        e.playOrder[e.playOrderPos]? = some e.queueIndex) := by
  refine ⟨fun h => ⟨h.perm, fun hne => ⟨h.pos_lt hne, h.index_eq hne⟩⟩, ?_⟩
  intro ⟨hperm, hplace⟩
  exact ⟨hperm, fun hne => (hplace hne).2⟩

/-- The engine's queue is these tracks, and the queue invariant holds. -/
def Holds (e : PlaybackEngine) (tracks : List Track) : Prop := e.queue = tracks ∧ e.QueueInv

def standing (e : PlaybackEngine) : List Track × Cursor := (e.queue, e.cursor)

theorem Holds.of_standing_eq {e e' : PlaybackEngine} {tracks : List Track} (h : e.Holds tracks)
    (heq : e'.standing = e.standing) : e'.Holds tracks := by
  obtain ⟨hqueue, hcursor⟩ := Prod.mk.inj heq
  refine ⟨hqueue.trans h.1, ?_⟩
  rw [QueueInv, hcursor]
  exact h.2

/-- The queue with the place in it, and the way through it. -/
def programme (e : PlaybackEngine) : (List Track × Cursor) × Bool × RepeatMode :=
  (e.standing, e.shuffle, e.repeatMode)

/-! ## What leaves the programme alone -/

variable (env : EngineEnv) (e : PlaybackEngine)

@[simp] theorem standing_decoderFailed (err : PlaybackError) :
    (e.decoderFailed err).standing = e.standing := rfl

@[simp] theorem programme_startPlaybackInternal (track : Track) (positionMs : ℕ) :
    (e.startPlaybackInternal env track positionMs).1.programme = e.programme := by
  unfold startPlaybackInternal
  dsimp only
  split
  · rfl
  · split
    · rfl
    · split <;> rfl

theorem programme_startOrFail (track : Track) :
    (e.startOrFail env track).programme = e.programme :=
  startOrFail_of (P := fun e' => e'.programme = e.programme)
    (programme_startPlaybackInternal env e track 0) fun _ _ h => h

@[simp] theorem programme_cleanupPlayback : (e.cleanupPlayback env).1.programme = e.programme :=
  view_cleanupPlayback programme (fun _ _ => rfl) env e

theorem programme_cleanup : (e.cleanup env).programme = e.programme :=
  programme_cleanupPlayback env e

theorem programme_advanceTimeline (now n : ℕ) :
    (e.advanceTimeline now n).programme = e.programme := by
  unfold advanceTimeline
  dsimp only
  split_ifs <;> rfl

theorem programme_deliverChunk (n : ℕ) : (e.deliverChunk env n).programme = e.programme := by
  unfold deliverChunk
  dsimp only
  split_ifs
  · rfl
  all_goals first | rfl | exact programme_advanceTimeline _ _ _

theorem programme_handlePlay (track : Track) (sinks : List AudioSink)
    (outputDesc : PlaybackOutputDescription) (positionMs : ℕ) :
    (e.handlePlay env track sinks outputDesc positionMs).1.programme = e.programme := by
  unfold handlePlay
  dsimp only
  split
  · rfl
  · rw [programme_startPlaybackInternal]
    exact programme_cleanupPlayback env e.takeTimeline

theorem programme_handlePause : (e.handlePause env).1.programme = e.programme := by
  unfold handlePause
  dsimp only
  split_ifs <;> rfl

theorem programme_handleResume : (e.handleResume env).1.programme = e.programme := by
  unfold handleResume
  dsimp only
  split
  · rfl
  · split
    · split
      · rw [programme_startPlaybackInternal]
        split_ifs <;> rfl
      · rfl
    · split
      · split
        · exact programme_startPlaybackInternal env e.takeTimeline _ _
        · rfl
      · rfl

theorem programme_handleSeek (positionMs : ℕ) :
    (e.handleSeek env positionMs).1.programme = e.programme := by
  unfold handleSeek
  dsimp only
  split
  · split
    · split <;> rfl
    · rfl
  · rfl

theorem programme_handleStop : (e.handleStop env).1.programme = e.programme :=
  programme_cleanupPlayback env { e with currentTimelineOrigin := .local }

theorem programme_handleSetVolume (volume : ℕ) :
    (e.handleSetVolume env volume).1.programme = e.programme := by
  unfold handleSetVolume
  dsimp only
  split_ifs <;> rfl

/-! ## What leaves the cursor alone -/

@[simp] theorem standing_startPlaybackInternal (track : Track) (positionMs : ℕ) :
    (e.startPlaybackInternal env track positionMs).1.standing = e.standing :=
  congrArg Prod.fst (programme_startPlaybackInternal env e track positionMs)

@[simp] theorem standing_startOrFail (track : Track) :
    (e.startOrFail env track).standing = e.standing :=
  congrArg Prod.fst (programme_startOrFail env e track)

@[simp] theorem standing_cleanupPlayback : (e.cleanupPlayback env).1.standing = e.standing :=
  congrArg Prod.fst (programme_cleanupPlayback env e)

@[simp] theorem standing_cleanup : (e.cleanup env).standing = e.standing :=
  standing_cleanupPlayback env e

@[simp] theorem standing_advanceTimeline (now n : ℕ) :
    (e.advanceTimeline now n).standing = e.standing :=
  congrArg Prod.fst (programme_advanceTimeline e now n)

@[simp] theorem standing_deliverChunk (n : ℕ) : (e.deliverChunk env n).standing = e.standing :=
  congrArg Prod.fst (programme_deliverChunk env e n)

@[simp] theorem standing_moveTo (track : Track) : (e.moveTo env track).1.standing = e.standing := by
  unfold moveTo
  split
  · rfl
  · exact standing_startPlaybackInternal env e track 0

@[simp] theorem standing_restartCurrent : (e.restartCurrent env).1.standing = e.standing := by
  unfold restartCurrent
  cases e.currentTrack with
  | none => rfl
  | some track =>
    dsimp only
    split
    · rfl
    · exact standing_startPlaybackInternal env e track 0

theorem standing_handlePlay (track : Track) (sinks : List AudioSink)
    (outputDesc : PlaybackOutputDescription) (positionMs : ℕ) :
    (e.handlePlay env track sinks outputDesc positionMs).1.standing = e.standing :=
  congrArg Prod.fst (programme_handlePlay env e track sinks outputDesc positionMs)

theorem standing_handleLoadTrack (track : Track) (positionMs : ℕ) :
    (e.handleLoadTrack env track positionMs).1.standing = e.standing :=
  standing_cleanupPlayback env e.takeTimeline

theorem standing_handlePause : (e.handlePause env).1.standing = e.standing :=
  congrArg Prod.fst (programme_handlePause env e)

theorem standing_handleResume : (e.handleResume env).1.standing = e.standing :=
  congrArg Prod.fst (programme_handleResume env e)

theorem standing_handleSeek (positionMs : ℕ) :
    (e.handleSeek env positionMs).1.standing = e.standing :=
  congrArg Prod.fst (programme_handleSeek env e positionMs)

theorem standing_handleStop : (e.handleStop env).1.standing = e.standing :=
  congrArg Prod.fst (programme_handleStop env e)

theorem standing_handleSetVolume (volume : ℕ) :
    (e.handleSetVolume env volume).1.standing = e.standing :=
  congrArg Prod.fst (programme_handleSetVolume env e volume)

theorem standing_handleSetRepeat (repeatMode : RepeatMode) :
    (e.handleSetRepeat repeatMode).1.standing = e.standing := rfl

/-! ## What moves through the queue -/

variable {env e} {tracks : List Track}

theorem queueInv_of_empty (hqueue : e.queue = []) (horder : e.playOrder = []) : e.QueueInv := by
  grind [Cursor.WellFormed.empty, QueueInv, cursor]

/-- A new play order is a permutation of the queue with the index in its place. -/
theorem recomputePlayOrder_spec (rng : Rng) (hidx : e.queue ≠ [] → e.queueIndex < e.queue.length) :
    Succeeds (e.recomputePlayOrder rng e.queueIndex) fun e' => e'.Holds e.queue := by
  refine .ite (fun hempty => .some ⟨rfl, ?_⟩) (fun hne => ?_)
  · exact queueInv_of_empty (List.isEmpty_iff.mp hempty) rfl
  · have hlt : e.queueIndex < e.queue.length := hidx fun h => hne (List.isEmpty_iff.mpr h)
    have hperm : (rng.shuffle (List.range e.queue.length)).Perm (List.range e.queue.length) :=
      rng.shuffle_perm _
    refine .ite (fun _ => ?_) (fun _ => .some ⟨rfl, ?_⟩)
    · have hmem : e.queueIndex ∈ rng.shuffle (List.range e.queue.length) :=
        hperm.mem_iff.mpr (List.mem_range.mpr hlt)
      dsimp only
      cases hpos : (rng.shuffle (List.range e.queue.length)).idxOf? e.queueIndex with
      | none => exact absurd hmem (List.idxOf?_eq_none_iff.mp hpos)
      | some pos =>
        obtain ⟨hposlt, hat, _⟩ := List.idxOf?_eq_some_iff.mp hpos
        obtain ⟨order, hswap, hperm', hfront⟩ := exists_swap? (Nat.zero_lt_of_lt hposlt) hposlt
        dsimp only
        rw [hswap]
        refine .some ⟨rfl, Cursor.WellFormed.laid_out (hperm'.trans hperm) fun _ => ?_⟩
        grind
    · have hmin : min e.queueIndex (e.queue.length - 1) = e.queueIndex := by omega
      rw [hmin]
      exact Cursor.WellFormed.natural hlt

/-- So is that of a new cycle, from its beginning. -/
theorem recomputePlayOrderNewCycle_spec (rng : Rng) (justFinishedIdx : ℕ) :
    Succeeds (e.recomputePlayOrderNewCycle rng justFinishedIdx) fun e' =>
      e'.queue = e.queue ∧ e'.playOrder.Perm (List.range e.queue.length) ∧
        e'.playOrderPos = 0 := by
  refine .ite (fun hempty => .some ?_) (fun _ => .ite (fun _ => ?_) (fun _ => .some ?_))
  · grind
  · have hperm : (rng.shuffle (List.range e.queue.length)).Perm (List.range e.queue.length) :=
      rng.shuffle_perm _
    have hlen : (rng.shuffle (List.range e.queue.length)).length = e.queue.length := by
      rw [hperm.length_eq, List.length_range]
    refine .ite (fun hlong => ?_) (fun _ => .some ⟨rfl, hperm, rfl⟩)
    obtain ⟨hlo, hhi⟩ := rng.gen_range_mem 1 e.queue.length hlong
    obtain ⟨order, hswap, hperm', _⟩ :=
      exists_swap? (l := rng.shuffle (List.range e.queue.length)) (i := 0)
        (j := rng.genRange 1 e.queue.length) (by omega) (by omega)
    rw [List.getElem?_eq_getElem (by omega)]
    refine .ite (fun _ => ?_) (fun _ => .some ⟨rfl, hperm, rfl⟩)
    rw [hswap]
    exact .some ⟨rfl, hperm'.trans hperm, rfl⟩
  · exact ⟨rfl, List.Perm.refl _, rfl⟩

theorem playOrderAt_spec {pos : ℕ} (hqueue : e.queue = tracks)
    (hperm : e.playOrder.Perm (List.range e.queue.length)) (hpos : pos < e.playOrder.length) :
    Succeeds (e.playOrderAt pos) fun r => r.1.Holds tracks := by
  refine (Succeeds.getElem? hpos).bind fun index hindex => ?_
  have hlt : index < e.queue.length :=
    List.mem_range.mp (hperm.mem_iff.mp (List.mem_of_getElem? hindex))
  refine (Succeeds.getElem? hlt).bind fun track _ => .some ?_
  exact ⟨hqueue, Cursor.WellFormed.laid_out hperm fun _ => hindex⟩

theorem length_pos_of_not_isEmpty (h : ¬ e.queue.isEmpty = true) : 0 < e.queue.length :=
  List.length_pos_iff.mpr fun hnil => h (List.isEmpty_iff.mpr hnil)

theorem QueueInv.beginCycle (h : e.QueueInv) (rng : Rng) :
    Succeeds (e.beginCycle rng) fun e' =>
      e'.queue = e.queue ∧ e'.playOrder.Perm (List.range e.queue.length) ∧
        e'.playOrderPos = 0 :=
  .ite (fun _ => recomputePlayOrderNewCycle_spec rng e.queueIndex)
    fun _ => .some ⟨rfl, h.perm, rfl⟩

/-! ## One step -/

/-- The end of a track keeps the queue. -/
theorem Holds.afterEof (h : e.Holds tracks) :
    Succeeds (e.afterEof env) fun e' => e'.Holds tracks := by
  have hstart : ∀ r : PlaybackEngine × Track, r.1.Holds tracks →
      Succeeds (some (r.1.startOrFail env r.2)) fun e' => e'.Holds tracks := fun r hr =>
    .some (hr.of_standing_eq (standing_startOrFail env r.1 r.2))
  unfold PlaybackEngine.afterEof
  cases e.repeatMode with
  | one =>
    cases e.currentTrack with
    | none => exact .some h
    | some track => exact .some (h.of_standing_eq (standing_startOrFail env e track))
  | all =>
    refine .ite (fun _ => .some h) (fun hne => .ite (fun _ => ?_) (fun hmore => ?_))
    · refine (h.2.beginCycle env.rng).bind fun e' ⟨hqueue, hperm, hzero⟩ => ?_
      rw [← hqueue] at hperm
      have hlen : e'.playOrder.length = e'.queue.length := by
        rw [hperm.length_eq, List.length_range]
      have hpos : 0 < e'.queue.length := hqueue ▸ length_pos_of_not_isEmpty hne
      exact (playOrderAt_spec (hqueue.trans h.1) hperm (by omega)).bind hstart
    · exact (playOrderAt_spec h.1 h.2.perm (Nat.lt_of_not_le hmore)).bind hstart
  | off =>
    refine .ite (fun hmore => ?_) (fun _ => .some h)
    exact (playOrderAt_spec h.1 h.2.perm hmore.2).bind hstart

theorem Holds.handleEof (h : e.Holds tracks) :
    Succeeds (e.handleEof env) fun e' => e'.Holds tracks := by
  have hended : Holds ({ e with decoder := none }.emitEvent (.ended e.trackId)) tracks := h
  exact hended.afterEof

theorem Holds.processAudioChunk (h : e.Holds tracks) :
    Succeeds (e.processAudioChunk env) fun e' => e'.Holds tracks := by
  unfold PlaybackEngine.processAudioChunk
  cases e.decoder with
  | none => exact .some h
  | some _ =>
    dsimp only
    split
    · exact h.handleEof
    · exact .some (h.of_standing_eq (standing_deliverChunk env e _))
    · exact .some (h.of_standing_eq (standing_decoderFailed e _))

theorem Holds.handleJumpToIndex (h : e.Holds tracks) (index : ℕ) :
    Succeeds (e.handleJumpToIndex env index) fun r => r.1.Holds tracks := by
  refine .ite (fun _ => .some h) (fun hvalid => ?_)
  have hlt : index < e.queue.length := Nat.lt_of_not_le fun hge => hvalid (Or.inr hge)
  obtain ⟨pos, hplace, hat⟩ := h.2.exists_place hlt
  have hplace' : e.playOrder.idxOf? index = some pos := hplace
  refine (Succeeds.getElem? hlt).bind fun track _ => ?_
  have hmoved : Holds { e.takeTimeline with
      queueIndex := index, playOrderPos := (e.playOrder.idxOf? index).getD 0 } tracks := by
    rw [hplace']
    exact ⟨h.1, Cursor.WellFormed.seek h.2 hat⟩
  exact .ite (fun _ => .some (hmoved.of_standing_eq (standing_startPlaybackInternal env _ _ _)))
    fun _ => .some hmoved

/-- The next track keeps the queue. -/
theorem Holds.handleNext (h : e.Holds tracks) :
    Succeeds (e.handleNext env) fun r => r.1.Holds tracks := by
  refine .ite (fun hmore => ?_) (fun _ => .ite (fun hagain => ?_) (fun _ => .some ?_))
  · exact (playOrderAt_spec h.1 h.2.perm hmore.2).bind fun r hr =>
      .some (hr.of_standing_eq (standing_moveTo env _ _))
  · have hpos : 0 < e.queue.length := length_pos_of_not_isEmpty hagain.2
    refine (h.2.beginCycle env.rng).bind fun e' ⟨hqueue, hperm, hzero⟩ => ?_
    have hlen : e'.playOrder.length = e.queue.length := by
      rw [hperm.length_eq, List.length_range]
    refine (Succeeds.getElem? (by omega)).bind fun index hindex => ?_
    have hlt : index < e'.queue.length := by
      rw [hqueue]
      exact List.mem_range.mp (hperm.mem_iff.mp (List.mem_of_getElem? hindex))
    refine (Succeeds.getElem? hlt).bind fun track _ => .some ?_
    refine Holds.of_standing_eq (e := { e' with queueIndex := index }) ?_
      (standing_moveTo env _ _)
    refine ⟨hqueue.trans h.1, Cursor.WellFormed.laid_out (hqueue ▸ hperm) fun _ => ?_⟩
    rw [hzero]
    exact hindex
  · exact h.of_standing_eq (standing_cleanupPlayback env e)

theorem Holds.handlePrevious (h : e.Holds tracks) :
    Succeeds (e.handlePrevious env) fun r => r.1.Holds tracks := by
  refine .ite (fun _ => .some (h.of_standing_eq (standing_restartCurrent env e))) (fun _ => ?_)
  refine .ite (fun hback => ?_) (fun _ => .some (h.of_standing_eq (standing_restartCurrent env e)))
  have hlt : e.playOrderPos < e.playOrder.length :=
    h.2.pos_lt (length_pos_of_not_isEmpty hback.2)
  have hprev : e.playOrderPos - 1 < e.playOrder.length := by omega
  exact (playOrderAt_spec h.1 h.2.perm hprev).bind fun r hr =>
    .some (hr.of_standing_eq (standing_moveTo env _ _))

theorem Holds.handleSetShuffle (h : e.Holds tracks) (shuffle : Bool) :
    Succeeds (e.handleSetShuffle env shuffle) fun r => r.1.Holds tracks := by
  have hidx : e.queue ≠ [] → e.queueIndex < e.queue.length := fun hne =>
    h.2.index_lt (List.length_pos_iff.mpr hne)
  obtain ⟨rfl, _⟩ := h
  exact (recomputePlayOrder_spec (e := { e with shuffle := shuffle }) env.rng hidx).bind
    fun e' he' => .some he'

theorem handleSetQueue_spec (tracks : List Track) (currentIndex : ℕ)
    (currentTrackId : Option Uuid) :
    Succeeds (e.handleSetQueue env tracks currentIndex currentTrackId) fun r =>
      r.1.Holds tracks ∧ r.2 = .ok () := by
  have hidx : tracks ≠ [] →
      min (resolvedIndex tracks currentIndex currentTrackId) (tracks.length - 1)
        < tracks.length := fun hne => by
    have hpos : 0 < tracks.length := List.length_pos_iff.mpr hne
    omega
  refine (recomputePlayOrder_spec (e := { e with
    queue := tracks
    queueIndex := min (resolvedIndex tracks currentIndex currentTrackId)
      (tracks.length - 1) }) env.rng hidx).bind fun e' he' => .some ⟨?_, rfl⟩
  dsimp only
  split_ifs <;> exact he'

end PlaybackEngine

def EngineCommand.queueAfter (cmd : EngineCommand) (tracks : List Track) : List Track :=
  match cmd with
  | .setQueue tracks _ _ _ => tracks
  | _ => tracks

def EngineCommand.ends : EngineCommand → Bool
  | .shutdown => true
  | _ => false

namespace PlaybackEngine

variable {env : EngineEnv} {e : PlaybackEngine} {tracks : List Track}

/-- A command leaves the queue it asks for. -/
theorem Holds.handleCommand (h : e.Holds tracks) (cmd : EngineCommand) :
    Succeeds (e.handleCommand env cmd) fun r =>
      r.1.Holds (cmd.queueAfter tracks) ∧ r.2.2 = !cmd.ends := by
  have h' : Holds { e with currentCommandOrigin := some cmd.origin } tracks := h
  refine Succeeds.bind (P := fun r => r.1.Holds (cmd.queueAfter tracks) ∧ r.2.2 = !cmd.ends) ?_
    fun r hr => .some hr
  cases cmd with
  | play track sinks outputDesc positionMs _ =>
    exact .some ⟨h'.of_standing_eq
      (standing_handlePlay env _ track sinks outputDesc positionMs), rfl⟩
  | loadTrack track positionMs _ =>
    exact .some ⟨h'.of_standing_eq (standing_handleLoadTrack env _ track positionMs), rfl⟩
  | jumpToIndex index _ => exact (h'.handleJumpToIndex index).map fun _ hr => ⟨hr, rfl⟩
  | pause _ => exact .some ⟨h'.of_standing_eq (standing_handlePause env _), rfl⟩
  | resume _ => exact .some ⟨h'.of_standing_eq (standing_handleResume env _), rfl⟩
  | seek positionMs _ =>
    exact .some ⟨h'.of_standing_eq (standing_handleSeek env _ positionMs), rfl⟩
  | «next» _ => exact h'.handleNext.map fun _ hr => ⟨hr, rfl⟩
  | previous _ => exact h'.handlePrevious.map fun _ hr => ⟨hr, rfl⟩
  | stop _ => exact .some ⟨h'.of_standing_eq (standing_handleStop env _), rfl⟩
  | setVolume volume _ =>
    exact .some ⟨h'.of_standing_eq (standing_handleSetVolume env _ volume), rfl⟩
  | setShuffle shuffle _ => exact (h'.handleSetShuffle shuffle).map fun _ hr => ⟨hr, rfl⟩
  | setRepeat repeatMode _ =>
    exact .some ⟨h'.of_standing_eq (standing_handleSetRepeat _ repeatMode), rfl⟩
  | setQueue tracks currentIndex currentTrackId _ =>
    exact (handleSetQueue_spec tracks currentIndex currentTrackId).map fun _ hr =>
      ⟨hr.1, rfl⟩
  | getSnapshot => exact .some ⟨h', rfl⟩
  | shutdown => exact .some ⟨h'.of_standing_eq (standing_cleanup env _), rfl⟩

end PlaybackEngine

/-! ## The whole run -/

def EngineTurn.queueAfter (input : EngineTurn) (tracks : List Track) : List Track :=
  match input with
  | .recv _ cmd => cmd.queueAfter tracks
  | .closed _ | .audio _ => tracks

def EngineTurn.ends : EngineTurn → Bool
  | .recv _ cmd => cmd.ends
  | .closed _ => true
  | .audio _ => false

namespace EngineTask

open PlaybackEngine

variable {t : EngineTask} {tracks : List Track}

theorem turn_holds (hrun : t.running = true) (h : t.engine.Holds tracks) (input : EngineTurn) :
    Succeeds (t.turn input) fun t' =>
      t'.engine.Holds (input.queueAfter tracks) ∧ t'.running = !input.ends := by
  refine .ite (fun hstopped => absurd hrun hstopped) (fun _ => ?_)
  cases input with
  | recv env cmd =>
    refine (h.handleCommand cmd).bind fun r ⟨hr, hgo⟩ => ?_
    refine .ite (fun hgoes => .some ⟨hr, hgoes.symm.trans hgo⟩) (fun hends => .some ⟨?_, ?_⟩)
    · exact hr.of_standing_eq (standing_cleanup env r.1)
    · exact ((Bool.not_eq_true _).mp hends).symm.trans hgo
  | closed env => exact .some ⟨h.of_standing_eq (standing_cleanup env _), rfl⟩
  | audio env =>
    refine .ite (fun _ => h.processAudioChunk.bind fun e he => .some ⟨he, rfl⟩) fun _ => ?_
    exact .some ⟨h, hrun⟩

theorem turn_queueInv (h : t.engine.QueueInv) (input : EngineTurn) :
    Succeeds (t.turn input) fun t' => t'.engine.QueueInv := by
  by_cases hrun : t.running = true
  · exact (turn_holds hrun ⟨rfl, h⟩ input).mono fun _ ht' => ht'.1.2
  · exact .ite (fun _ => .some h) fun hrun' => absurd hrun hrun'

/-- **The queue in every run.** Whatever commands, audio chunks, ends of tracks and random draws come
in, the engine does not index out of bounds, its play order is a permutation of the queue's indices,
and its position holds the queue index. -/
theorem run_queue_invariant (format : PcmFormat) (now : ℕ) (turns : List EngineTurn) :
    ∃ t, run { engine := .new format now } turns = some t ∧
      t.engine.playOrder.Perm (List.range t.engine.queue.length) ∧
      (0 < t.engine.queue.length →
        t.engine.playOrderPos < t.engine.playOrder.length ∧
          t.engine.playOrder[t.engine.playOrderPos]? = some t.engine.queueIndex) := by
  have hnew : (PlaybackEngine.new format now).QueueInv := queueInv_of_empty rfl rfl
  have hturn : ∀ (t : EngineTask) (input : EngineTurn), t.engine.QueueInv →
      Succeeds (t.turn input) fun t' => t'.engine.QueueInv := fun _ input h => turn_queueInv h input
  obtain ⟨t, hrun, ht⟩ := Succeeds.foldlM hturn turns (a := { engine := .new format now }) hnew
  exact ⟨t, hrun, (queueInv_iff t.engine).mp ht⟩

end EngineTask

end MichiServer.Playback
