import MichiServer.Queue.Mirror
import MichiServer.Queue.Restore

/-!
# The two restores

The handler and the task leave every engine in one state, at the entry of the queue that the session was
persisted at, exactly when every track of the session's queue resolves and the session's track does not
stand earlier in the queue than at the session's index, besides nothing failing (`restore_alike_iff`).
A missing track sends the handler to another queue and stops the task; a track that occurs twice is
restored at its first place by both (`duplicate_restored_first`).
-/

namespace MichiServer.Playback

open MichiServer.Logic

namespace PlaybackEngine

variable {e : PlaybackEngine} (env : EngineEnv)

/-- What a new queue and a new volume leave: the outputs and the position. -/
def stage (e : PlaybackEngine) : List AudioSink × ℕ × Option ℕ :=
  (e.sinks, e.basePositionMs, e.playingStartedAt)

theorem stage_handleSetQueue (tracks : List Track) (currentIndex : ℕ)
    (currentTrackId : Option Uuid) :
    Returns (e.handleSetQueue env tracks currentIndex currentTrackId) fun r =>
      r.1.stage = e.stage := by
  refine (recomputePlayOrder_eq env.rng _).bind fun e' h => .some ?_
  obtain ⟨order, pos, rfl⟩ := h
  dsimp only
  split_ifs <;> rfl

theorem handleSetVolume_keeps (volume : ℕ) :
    (e.handleSetVolume env volume).1.stage = e.stage ∧
      (e.handleSetVolume env volume).1.place = e.place := by
  unfold handleSetVolume
  dsimp only
  split_ifs <;> exact ⟨rfl, rfl⟩

theorem handleSetVolume_ok (volume : ℕ) (h : env.setVolume 0 = none) :
    (e.handleSetVolume env volume).2 = .ok () := by
  unfold handleSetVolume
  dsimp only
  split_ifs with hempty hall
  · rfl
  · exfalso
    -- the first of the outputs does not fail
    have hpos : 0 < e.sinks.length := by
      rw [List.length_pos_iff]
      exact fun hnil => hempty (List.isEmpty_iff.mpr hnil)
    have hlt : ((List.range e.sinks.length).filterMap env.setVolume).length <
        (List.range e.sinks.length).length := by
      rw [List.length_filterMap_lt_length_iff_exists]
      exact ⟨0, List.mem_range.mpr hpos, by simp [h]⟩
    rw [List.length_range] at hlt
    exact absurd hall hlt.ne
  · rfl
  · rfl

theorem place_handleSetShuffle (shuffle : Bool) :
    Returns (e.handleSetShuffle env shuffle) fun r => r.1.place = e.place := by
  refine (recomputePlayOrder_eq env.rng _).bind fun e' h => .some ?_
  obtain ⟨order, pos, rfl⟩ := h
  rfl

theorem position_handleLoadTrack (track : Track) (positionMs now : ℕ) :
    (e.handleLoadTrack env track positionMs).1.calculateCurrentPositionMs now =
      positionMs := by
  have hstarted : (e.handleLoadTrack env track positionMs).1.playingStartedAt = none := by
    show (e.takeTimeline.cleanupPlayback env).1.playingStartedAt = none
    obtain ⟨outputHealth, h⟩ := cleanupPlayback_eq env e.takeTimeline
    rw [h]
  have hbase : (e.handleLoadTrack env track positionMs).1.basePositionMs = positionMs := rfl
  simp [calculateCurrentPositionMs, hstarted, hbase]

end PlaybackEngine

namespace EngineTask

variable {t : EngineTask} {tracks : List Track} (env : EngineEnv)

theorem call_engine (h : t.Serves tracks) (cmd : EngineCommand) (hends : cmd.ends = false)
    (P : PlaybackEngine → EngineResponse → Prop)
    (hcmd : Returns (t.engine.handleCommand env cmd) fun r => P r.1 r.2.1) :
    ∃ response, (t.call env cmd).2 = some response ∧ P (t.call env cmd).1.engine response := by
  obtain ⟨r, hr, -, hgo⟩ : Succeeds (t.engine.handleCommand env cmd) fun r =>
      r.1.Holds (cmd.queueAfter tracks) ∧ r.2.2 = !cmd.ends := h.2.handleCommand cmd
  rw [hends] at hgo
  refine ⟨r.2.1, ?_, ?_⟩
  · simp [call, turn, h.1, hr, hgo]
  · have hengine : (t.call env cmd).1.engine = r.1 := by simp [call, turn, h.1, hr, hgo]
    rw [hengine]
    exact hcmd r hr

theorem setQueue_stage (h : t.Serves tracks) (new : List Track) (currentIndex : ℕ)
    (currentTrackId : Option Uuid) :
    (t.setQueue env new currentIndex currentTrackId).1.engine.stage = t.engine.stage := by
  obtain ⟨_, -, hstage⟩ := call_engine env h (.setQueue new currentIndex currentTrackId .local) rfl
    (fun e _ => e.stage = t.engine.stage) (Returns.bind
      ((PlaybackEngine.stage_handleSetQueue env new currentIndex currentTrackId).map
        fun r hr => hr) fun r hr => .some hr)
  exact hstage

theorem setVolume_spec (h : t.Serves tracks) (volume : ℕ) :
    (t.setVolume env volume).1.Serves tracks ∧
      (t.setVolume env volume).1.engine.stage = t.engine.stage ∧
      (t.setVolume env volume).1.engine.place = t.engine.place ∧
      (env.setVolume 0 = none → (t.setVolume env volume).2 = .ok ()) := by
  refine ⟨call_serves env h (.setVolume volume .local) rfl, ?_⟩
  obtain ⟨response, hresponse, hstage, hplace, hok⟩ := call_engine env h (.setVolume volume .local) rfl
    (fun e response => e.stage = t.engine.stage ∧ e.place = t.engine.place ∧
      (env.setVolume 0 = none → response = .done (.ok ()))) (by
    refine Returns.bind (.some ?_) fun r hr => .some hr
    obtain ⟨hstage, hplace⟩ := PlaybackEngine.handleSetVolume_keeps env
      (e := { t.engine with currentCommandOrigin := some .local }) volume
    refine ⟨hstage, hplace, fun hfirst => ?_⟩
    exact congrArg EngineResponse.done (PlaybackEngine.handleSetVolume_ok env volume hfirst))
  refine ⟨hstage, hplace, fun hfirst => ?_⟩
  show result (t.call env (.setVolume volume .local)).2 = .ok ()
  rw [hresponse, hok hfirst]
  rfl

theorem setVolume_refused (h : t.Serves tracks) (volume : ℕ) {sink : AudioSink}
    (hsinks : t.engine.sinks = [sink]) (hfirst : env.setVolume 0 ≠ none) :
    ∃ e, (t.setVolume env volume).2 = .error e := by
  obtain ⟨e, he⟩ := Option.ne_none_iff_exists'.mp hfirst
  obtain ⟨response, hresponse, hfailed⟩ := call_engine env h (.setVolume volume .local) rfl
    (fun _ response => response = .done (.error .allOutputsFailed)) (by
    refine Returns.bind (.some ?_) fun r hr => .some hr
    simp [PlaybackEngine.respond, PlaybackEngine.handleSetVolume, PlaybackEngine.sinkErrors,
      PlaybackEngine.emitEvent, hsinks, he])
  refine ⟨.allOutputsFailed, ?_⟩
  show result (t.call env (.setVolume volume .local)).2 = _
  rw [hresponse, hfailed]
  rfl

/-- Shuffle moves nothing of the place. -/
theorem setShuffle_spec (h : t.Serves tracks) (shuffle : Bool) :
    (t.setShuffle env shuffle).1.Serves tracks ∧
      (t.setShuffle env shuffle).1.engine.place = t.engine.place ∧
      (t.setShuffle env shuffle).2 = .ok () := by
  refine ⟨call_serves env h (.setShuffle shuffle .local) rfl, ?_⟩
  obtain ⟨response, hresponse, hplace, hok⟩ := call_engine env h (.setShuffle shuffle .local) rfl
    (fun e response => e.place = t.engine.place ∧ response = .done (.ok ())) (by
    refine Returns.bind ?_ fun r hr => .some hr
    have hplace := PlaybackEngine.place_handleSetShuffle env
      (e := { t.engine with currentCommandOrigin := some .local }) shuffle
    have hok : Returns (PlaybackEngine.handleSetShuffle env shuffle
        { t.engine with currentCommandOrigin := some .local }) fun r => r.2 = .ok () :=
      Returns.skip fun _ => .some rfl
    intro r hr
    obtain ⟨r', hr', rfl⟩ := Option.map_eq_some_iff.mp hr
    exact ⟨hplace r' hr', congrArg EngineResponse.done (hok r' hr')⟩)
  refine ⟨hplace, ?_⟩
  show result (t.call env (.setShuffle shuffle .local)).2 = .ok ()
  rw [hresponse, hok]
  rfl

theorem setRepeat_spec (h : t.Serves tracks) (repeatMode : RepeatMode) :
    (t.setRepeat env repeatMode).1.Serves tracks ∧
      (t.setRepeat env repeatMode).1.engine.place = t.engine.place ∧
      (t.setRepeat env repeatMode).2 = .ok () := by
  refine ⟨call_serves env h (.setRepeat repeatMode .local) rfl, ?_⟩
  obtain ⟨response, hresponse, hplace, hok⟩ := call_engine env h (.setRepeat repeatMode .local) rfl
    (fun e response => e.place = t.engine.place ∧ response = .done (.ok ()))
    (Returns.bind (.some ⟨rfl, rfl⟩) fun r hr => .some hr)
  refine ⟨hplace, ?_⟩
  show result (t.call env (.setRepeat repeatMode .local)).2 = .ok ()
  rw [hresponse, hok]
  rfl

/-- A track is loaded at a position, and the place is kept. -/
theorem loadTrack_spec (h : t.Serves tracks) (track : Track) (positionMs : ℕ) :
    (t.loadTrack env track positionMs).1.Serves tracks ∧
      (t.loadTrack env track positionMs).1.engine.place = t.engine.place ∧
      (t.loadTrack env track positionMs).1.engine.currentTrack = some track ∧
      (∀ now, (t.loadTrack env track positionMs).1.engine.calculateCurrentPositionMs now =
        positionMs) ∧
      (t.loadTrack env track positionMs).2 = .ok () := by
  refine ⟨call_serves env h (.loadTrack track positionMs .local) rfl, ?_⟩
  obtain ⟨response, hresponse, hplace, htrack, hposition, hok⟩ :=
    call_engine env h (.loadTrack track positionMs .local) rfl
      (fun e response => e.place = t.engine.place ∧ e.currentTrack = some track ∧
        (∀ now, e.calculateCurrentPositionMs now = positionMs) ∧ response = .done (.ok ())) (by
      refine Returns.bind (.some ?_) fun r hr => .some hr
      obtain ⟨htrack, hplace⟩ := PlaybackEngine.handleLoadTrack_ok env
        { t.engine with currentCommandOrigin := some .local } track positionMs
      exact ⟨hplace, htrack, PlaybackEngine.position_handleLoadTrack env track positionMs, rfl⟩)
  refine ⟨hplace, htrack, hposition, ?_⟩
  show result (t.call env (.loadTrack track positionMs .local)).2 = .ok ()
  rw [hresponse, hok]
  rfl

theorem snapshot_loadTrack (h : t.Serves tracks) (track : Track) (positionMs : ℕ)
    (env' : EngineEnv) :
    ((t.loadTrack env track positionMs).1.snapshot env').1 =
      (t.loadTrack env track positionMs).1 := by
  obtain ⟨r, hr, -, hgo⟩ : Succeeds
      (t.engine.handleCommand env (.loadTrack track positionMs .local)) fun r =>
        r.1.Holds tracks ∧ r.2.2 = true := h.2.handleCommand (.loadTrack track positionMs .local)
  have hloaded : (t.loadTrack env track positionMs).1 = { engine := r.1 } := by
    simp [loadTrack, call, turn, h.1, hr, hgo]
  have horigin : r.1.currentCommandOrigin = none := by
    grind [PlaybackEngine.handleCommand, PlaybackEngine.handleCommandInner]
  rw [hloaded]
  simp only [snapshot, call, turn, PlaybackEngine.handleCommand,
    PlaybackEngine.handleCommandInner]
  show ({ engine := { r.1 with currentCommandOrigin := none } } : EngineTask) = _
  rw [← horigin]

end EngineTask

end MichiServer.Playback

namespace MichiServer.Queue

open MichiServer.Logic MichiServer.Logic.Handler MichiServer.Playback QueueTables

/-! ## What is to be restored -/

def restored (env : RestoreEnv) (session : PlaybackSessionDb) (tracks : List Track) (curIdx : ℕ)
    (t : EngineTask) : EngineTask :=
  let t := (t.setQueue (env.request.engine .setQueue) tracks curIdx session.currentTrackId).1
  let t := (t.setVolume env.setVolume session.volume).1
  let t := (t.setShuffle env.setShuffle session.shuffle).1
  let t := (t.setRepeat env.setRepeat (repeatOf session.repeatMode)).1
  match tracks[curIdx]? with
  | some curTrack => (t.loadTrack env.loadTrack curTrack (positionIn session curTrack)).1
  | none => t

def persistedQueue (s : RestoreState) (session : PlaybackSessionDb) : List Uuid :=
  match session.queueId with
  | some queueId => s.db.tracksOf queueId
  | none => []

/-- The session was persisted at this entry of the queue: at its index, or if its track is not there at
an entry of the track. -/
def IsEntry (session : PlaybackSessionDb) (queue : List Uuid) (entry : ℕ) : Prop :=
  match session.currentTrackId with
  | none => session.currentIndex = entry
  | some trackId => queue[entry]? = some trackId ∧
      ∀ i : ℕ, session.currentIndex = i → queue[i]? = some trackId → i = entry

/-- The engine has the resolvable tracks of the session's queue, and is at the session's entry, in its
track at the session's position. -/
structure AtEntry (s : RestoreState) (session : PlaybackSessionDb) (entry : ℕ)
    (e : PlaybackEngine) : Prop where
  is_entry : IsEntry session (persistedQueue s session) entry
  queue : e.queue = s.library.resolvable (persistedQueue s session)
  index : e.queueIndex =
    (s.library.resolvable ((persistedQueue s session).take entry)).length
  track : ∃ id track, (persistedQueue s session)[entry]? = some id ∧
    s.library.getTrack id = .ok track ∧ e.currentTrack = some track ∧
    ∀ now, e.calculateCurrentPositionMs now = positionIn session track

/-- The handler and the task leave one engine, which is where the session was persisted. -/
def RestoredAlike (env : RestoreEnv) (s : RestoreState) : Prop :=
  ((restorePlaybackStateHandler env).exec s).2.playbackEngine =
      ((autoRestorePlaybackState env).exec s).2.playbackEngine ∧
    ∃ session entry, s.session = some session ∧
      AtEntry s session entry ((autoRestorePlaybackState env).exec s).2.playbackEngine.engine

/-- The index that is resolved is the session's entry: the first entry of its track, which is not the
first only where the index is at none. -/
def ResolvesToEntry (session : PlaybackSessionDb) (queue : List Uuid) : Prop :=
  match session.currentTrackId with
  | none => ∃ i : ℕ, session.currentIndex = i ∧ i < queue.length
  | some trackId => ∃ first, queue.idxOf? trackId = some first ∧
      ∀ i : ℕ, session.currentIndex = i → queue[i]? = some trackId → i = first

structure Restorable (env : RestoreEnv) (s : RestoreState) : Prop where
  enabled : "playback" ∉ s.disabledModules
  up : env.shutdown = false
  answers : env.fault .latest = none ∧ env.fault .items = none
  volume : env.setVolume.setVolume 0 = none
  session : ∃ session, s.session = some session ∧ session.queueId.isSome ∧
    (∀ id ∈ persistedQueue s session, ∃ track, s.library.getTrack id = .ok track) ∧
    ResolvesToEntry session (persistedQueue s session)

section

variable {env : RestoreEnv} {s : RestoreState} {session : PlaybackSessionDb} {tracks : List Track}
  {curIdx : ℕ} {t : EngineTask} {old : List Track}

theorem restored_spec {track : Track} (h : t.Serves old) (htrack : tracks[curIdx]? = some track) :
    (restored env session tracks curIdx t).engine.place =
        (tracks, min (PlaybackEngine.resolvedIndex tracks curIdx session.currentTrackId)
          (tracks.length - 1)) ∧
      (restored env session tracks curIdx t).engine.currentTrack = some track ∧
      ∀ now, (restored env session tracks curIdx t).engine.calculateCurrentPositionMs now =
        positionIn session track := by
  obtain ⟨hserves, hok⟩ := EngineTask.setQueue_spec (env.request.engine .setQueue) h tracks curIdx
    session.currentTrackId
  have hplace := EngineTask.setQueue_ok (env.request.engine .setQueue) hok
  obtain ⟨hvolume, -, hvolumePlace, -⟩ :=
    EngineTask.setVolume_spec env.setVolume hserves session.volume
  obtain ⟨hshuffle, hshufflePlace, -⟩ :=
    EngineTask.setShuffle_spec env.setShuffle hvolume session.shuffle
  obtain ⟨hrepeat, hrepeatPlace, -⟩ :=
    EngineTask.setRepeat_spec env.setRepeat hshuffle (repeatOf session.repeatMode)
  obtain ⟨-, hloadPlace, hloadTrack, hloadPosition, -⟩ :=
    EngineTask.loadTrack_spec env.loadTrack hrepeat track (positionIn session track)
  grind [restored]

theorem engineCommand_leaves {ε α : Type} {P : α → RestoreState → Prop} {E : ε → RestoreState → Prop}
    {f : EngineTask → EngineTask × Except PlaybackError α} {onError : PlaybackError → ε}
    (hok : ∀ a, (f s.playbackEngine).2 = .ok a →
      P a { s with playbackEngine := (f s.playbackEngine).1 })
    (herror : ∀ e, (f s.playbackEngine).2 = .error e →
      E (onError e) { s with playbackEngine := (f s.playbackEngine).1 }) :
    Leaves (engineCommand f onError) s P E := by
  apply Leaves.update
  · intro a ha
    apply hok a
    exact mapError_eq_ok_iff.mp ha
  · intro e he
    cases hr : (f s.playbackEngine).2 with
    | ok a =>
      simp [RestoreState.send, hr, Except.mapError] at he
    | error e' =>
      simp [RestoreState.send, hr, Except.mapError] at he
      subst he
      exact herror e' hr

theorem engineCommand_ok {ε α : Type} {P : α → RestoreState → Prop} {E : ε → RestoreState → Prop}
    {f : EngineTask → EngineTask × Except PlaybackError α} {onError : PlaybackError → ε} {a : α}
    (hf : (f s.playbackEngine).2 = .ok a)
    (h : P a { s with playbackEngine := (f s.playbackEngine).1 }) :
    Leaves (engineCommand f onError) s P E := by
  grind [engineCommand_leaves]

theorem resolveRestoreIndex_lt {currentTrackId : Option Uuid} {persistedIndex : ℤ}
    (h : resolveRestoreIndex tracks currentTrackId persistedIndex = .ok curIdx) :
    curIdx < tracks.length := by
  unfold resolveRestoreIndex at h
  split at h
  · cases h
  · split at h
    · split at h
      next hfind =>
        cases h
        exact (List.findIdx?_eq_some_iff_getElem.mp hfind).1
      · cases h
    · grind

theorem loadCurrent_leaves {ε : Type} {onError : PlaybackError → ε} {E : ε → RestoreState → Prop}
    (h : s.playbackEngine.Serves old) :
    Leaves (loadCurrent env session tracks curIdx onError) s
      (fun _ s' => s'.playbackEngine = match tracks[curIdx]? with
        | some curTrack =>
          (s.playbackEngine.loadTrack env.loadTrack curTrack (positionIn session curTrack)).1
        | none => s.playbackEngine) E := by
  unfold loadCurrent
  cases tracks[curIdx]? with
  | some curTrack =>
    obtain ⟨-, -, -, -, hok⟩ := EngineTask.loadTrack_spec env.loadTrack h curTrack
      (positionIn session curTrack)
    exact .bind (engineCommand_ok hok (.pure rfl))
  | none => exact .pure rfl

theorem mark_leaves {ε : Type} {onError : String → ε} :
    Leaves (Handler.update fun s => (markRestored env session s).map id fun r =>
        r.mapError onError) s (fun _ s' => s'.playbackEngine = s.playbackEngine)
      fun _ s' => s'.playbackEngine = s.playbackEngine := by
  have hsame : (markRestored env session s).1.playbackEngine = s.playbackEngine := by
    unfold markRestored
    split <;> rfl
  exact .update (fun _ _ => hsame) fun _ _ => hsame

section

variable (henabled : "playback" ∉ s.disabledModules) (hlatest : env.fault .latest = none)
  (hsession : s.session = some session) (htracks : sessionQueue env session s = tracks)
  (hindex : resolveRestoreIndex tracks session.currentTrackId session.currentIndex =
    .ok curIdx)

include henabled hlatest hsession htracks hindex

/-- The rule for the handler, once it has found what to restore. -/
theorem handler_leaves {P : RestoreResponse → RestoreState → Prop} {E : ApiError → RestoreState → Prop}
    (h : Leaves (restoreSession env session tracks curIdx) s P E) :
    Leaves (restorePlaybackStateHandler env) s P E := by
  have hne : tracks.isEmpty = false := by
    unfold resolveRestoreIndex at hindex
    grind
  refine .bind (.get (.bind (.rejectIf (fun hdisabled => ?_) fun _ => ?_)))
  · exact absurd (by simpa using hdisabled) henabled
  have hread : Leaves (getLatestPlaybackSession env fun text => v1Error 500 "INTERNAL_ERROR" text)
      s (fun latest s' => latest = some session ∧ s = s') E := by
    refine .bind (.get ?_)
    rw [hlatest]
    exact .pure ⟨hsession, rfl⟩
  refine .bind (hread.mono ?_ fun _ _ he => he)
  rintro _ _ ⟨rfl, rfl⟩
  have hload : Leaves (tracksToRestore env session) s (fun loaded s' => tracks = loaded ∧ s = s')
      E := by
    refine .bind (.get ?_)
    rw [htracks]
    refine .ite (fun hempty => ?_) fun _ => .bind (.pure (.bind (.get (.pure ⟨?_, rfl⟩))))
    · rw [hne] at hempty
      cases hempty
    · simp [hne]
  refine .bind (hload.mono ?_ fun _ _ he => he)
  rintro _ _ ⟨rfl, rfl⟩
  refine .bind (.ofExcept (fun i hi => ?_) fun e he => ?_)
  · rw [hindex] at hi
    cases hi
    exact h
  · rw [hindex] at he
    cases he

/-- The handler restores the session. -/
theorem handler_restores (h : s.playbackEngine.Serves old)
    (hvolume : env.setVolume.setVolume 0 = none) :
    ((restorePlaybackStateHandler env).exec s).2.playbackEngine =
      restored env session tracks curIdx s.playbackEngine := by
  apply Leaves.final (Q := fun s' : RestoreState =>
    s'.playbackEngine = restored env session tracks curIdx s.playbackEngine)
  apply handler_leaves henabled hlatest hsession htracks hindex
  obtain ⟨hqueue, hqueueOk⟩ := EngineTask.setQueue_spec (env.request.engine .setQueue) h tracks
    curIdx session.currentTrackId
  obtain ⟨hvol, -, -, hvolOk⟩ := EngineTask.setVolume_spec env.setVolume hqueue session.volume
  obtain ⟨hshuf, -, hshufOk⟩ := EngineTask.setShuffle_spec env.setShuffle hvol session.shuffle
  obtain ⟨hrep, -, hrepOk⟩ := EngineTask.setRepeat_spec env.setRepeat hshuf
    (repeatOf session.repeatMode)
  refine .bind (engineCommand_ok hqueueOk (.bind (engineCommand_ok (hvolOk hvolume)
    (.bind (engineCommand_ok hshufOk (.bind (engineCommand_ok hrepOk ?_)))))))
  refine .bind ((loadCurrent_leaves hrep).mono ?_ fun _ _ he => he)
  intro position s' hengine
  rw [List.getElem?_eq_getElem (resolveRestoreIndex_lt hindex)] at hengine
  have hrestored : s'.playbackEngine = restored env session tracks curIdx s.playbackEngine := by
    grind [restored, resolveRestoreIndex_lt]
  have hsnap : (s'.playbackEngine.snapshot (env.request.engine .snapshot)).1 =
      s'.playbackEngine := by
    grind [EngineTask.snapshot_loadTrack]
  refine .bind (engineCommand_leaves (fun snap _ => ?_) fun e he => hsnap.trans hrestored)
  refine .bind (mark_leaves.mono (fun _ s'' hengine => .pure ?_) fun _ s'' hengine => ?_)
  · exact hengine.trans (hsnap.trans hrestored)
  · exact hengine.trans (hsnap.trans hrestored)

theorem handler_refused (h : s.playbackEngine.Serves old) (sink : AudioSink)
    (hsinks : s.playbackEngine.engine.sinks = [sink]) (hvolume : env.setVolume.setVolume 0 ≠ none) :
    ((restorePlaybackStateHandler env).exec s).2.playbackEngine.engine.stage =
      s.playbackEngine.engine.stage := by
  apply Leaves.final (Q := fun s' : RestoreState =>
    s'.playbackEngine.engine.stage = s.playbackEngine.engine.stage)
  apply handler_leaves henabled hlatest hsession htracks hindex
  obtain ⟨hqueue, hqueueOk⟩ := EngineTask.setQueue_spec (env.request.engine .setQueue) h tracks
    curIdx session.currentTrackId
  have hstage := EngineTask.setQueue_stage (env.request.engine .setQueue) h tracks curIdx
    session.currentTrackId
  have hkept := (congrArg Prod.fst hstage).trans hsinks
  obtain ⟨e, he⟩ := EngineTask.setVolume_refused env.setVolume hqueue session.volume hkept hvolume
  obtain ⟨-, hvolStage, -⟩ := EngineTask.setVolume_spec env.setVolume hqueue session.volume
  refine .bind (engineCommand_ok hqueueOk (.bind (engineCommand_leaves (fun _ hok => ?_)
    fun _ _ => hvolStage.trans hstage)))
  rw [he] at hok
  cases hok

end

theorem handler_disabled (h : "playback" ∈ s.disabledModules) :
    ((restorePlaybackStateHandler env).exec s).2.playbackEngine = s.playbackEngine := by
  apply Leaves.final (Q := fun s' : RestoreState => s'.playbackEngine = s.playbackEngine)
  refine .bind (.get (.bind (.rejectIf (fun _ => rfl) fun henabled => ?_)))
  exact absurd (by simpa using h) henabled

structure TaskRestores (env : RestoreEnv) (s : RestoreState) (session : PlaybackSessionDb)
    (tracks : List Track) (curIdx : ℕ) : Prop where
  up : env.shutdown = false
  answers : env.fault .latest = none
  latest : s.session = some session
  queue : ∃ queueId, session.queueId = some queueId ∧ loadQueue env .items queueId s = .ok tracks
  index : resolveRestoreIndex tracks session.currentTrackId session.currentIndex = .ok curIdx

theorem ignoring_leaves {ε α : Type} {P : Unit → RestoreState → Prop} {E : ε → RestoreState → Prop}
    {f : EngineTask → EngineTask × Except PlaybackError α}
    (h : P () { s with playbackEngine := (f s.playbackEngine).1 }) :
    Leaves (ignoring f) s P E :=
  .modify h

/-- The task restores a session, or leaves the engine as it is. -/
theorem task_restores (h : s.playbackEngine.Serves old) :
    (((autoRestorePlaybackState env).exec s).2.playbackEngine = s.playbackEngine ∧
      ¬ ∃ session tracks curIdx, TaskRestores env s session tracks curIdx) ∨
    ∃ session tracks curIdx, TaskRestores env s session tracks curIdx ∧
      ((autoRestorePlaybackState env).exec s).2.playbackEngine =
        restored env session tracks curIdx s.playbackEngine := by
  apply Leaves.final (Q := fun s' : RestoreState => (s'.playbackEngine = s.playbackEngine ∧
      ¬ ∃ session tracks curIdx, TaskRestores env s session tracks curIdx) ∨
    ∃ session tracks curIdx, TaskRestores env s session tracks curIdx ∧
      s'.playbackEngine = restored env session tracks curIdx s.playbackEngine)
  refine .bind (.rejectIf (fun hdown => .inl ⟨rfl, ?_⟩) fun hup => ?_)
  · rintro ⟨session, tracks, curIdx, hplan⟩
    rw [hplan.up] at hdown
    cases hdown
  refine .bind (.bind (.get ?_))
  cases hlatest : env.fault .latest with
  | some text =>
    refine .throw (.inl ⟨rfl, ?_⟩)
    rintro ⟨session, tracks, curIdx, hplan⟩
    rw [hplan.answers] at hlatest
    cases hlatest
  | none =>
    refine .pure ?_
    cases hsession : s.session with
    | none =>
      refine .pure (.inl ⟨rfl, ?_⟩)
      rintro ⟨session, tracks, curIdx, hplan⟩
      rw [hplan.latest] at hsession
      cases hsession
    | some session =>
      dsimp only
      cases hqueue : session.queueId with
      | none =>
        refine .pure (.inl ⟨rfl, ?_⟩)
        rintro ⟨session', tracks, curIdx, hplan⟩
        rw [hplan.latest] at hsession
        cases hsession
        obtain ⟨queueId, hid, -⟩ := hplan.queue
        rw [hqueue] at hid
        cases hid
      | some queueId =>
        refine .bind (.get (.bind (.ofExcept (fun tracks htracks => ?_) fun _ hfailed =>
          .inl ⟨rfl, ?_⟩)))
        · rw [mapError_eq_ok_iff] at htracks
          refine .bind (.ofExcept (fun curIdx hindex => ?_) fun _ hfailed => .inl ⟨rfl, ?_⟩)
          · rw [mapError_eq_ok_iff] at hindex
            have hplan : TaskRestores env s session tracks curIdx :=
              ⟨Bool.not_eq_true _ ▸ hup, hlatest, hsession, ⟨queueId, hqueue, htracks⟩, hindex⟩
            obtain ⟨hset, hsetOk⟩ := EngineTask.setQueue_spec (env.request.engine .setQueue) h
              tracks curIdx session.currentTrackId
            obtain ⟨hvol, -⟩ := EngineTask.setVolume_spec env.setVolume hset session.volume
            obtain ⟨hshuf, -⟩ := EngineTask.setShuffle_spec env.setShuffle hvol session.shuffle
            obtain ⟨hrep, -⟩ := EngineTask.setRepeat_spec env.setRepeat hshuf
              (repeatOf session.repeatMode)
            refine .bind (engineCommand_ok hsetOk (.bind (ignoring_leaves (.bind (ignoring_leaves
              (.bind (ignoring_leaves ?_)))))))
            refine .bind ((loadCurrent_leaves hrep).mono (fun _ s' hengine => .modify ?_)
              fun _ _ he => he)
            refine .inr ⟨session, tracks, curIdx, hplan, ?_⟩
            have hsame : (markRestored env session s').1.playbackEngine = s'.playbackEngine := by
              unfold markRestored
              split <;> rfl
            exact hsame.trans hengine
          · rintro ⟨session', tracks', curIdx, hplan⟩
            rw [hplan.latest] at hsession
            cases hsession
            obtain ⟨queueId', hid, hload⟩ := hplan.queue
            rw [hqueue] at hid
            cases hid
            rw [hload] at htracks
            cases htracks
            rw [hplan.index] at hfailed
            cases hfailed
        · rintro ⟨session', tracks', curIdx, hplan⟩
          rw [hplan.latest] at hsession
          cases hsession
          obtain ⟨queueId', hid, hload⟩ := hplan.queue
          rw [hqueue] at hid
          cases hid
          rw [hload] at hfailed
          cases hfailed

/-! ## The place -/

theorem Keyed.id_of_getTrack {library : Library} (hkeyed : Keyed library) {id : Uuid} {track : Track}
    (h : library.getTrack id = .ok track) : track.id = id := by
  unfold Library.getTrack at h
  split at h
  · cases h
  · cases h
  next found hfound =>
    split at h
    · cases h
    · split at h
      · cases h
      · split at h
        · cases h
        · split at h
          · cases h
          · cases h
            exact hkeyed id found hfound

theorem idsOf_loadAll {library : Library} (hkeyed : Keyed library) {ids : List Uuid}
    {onError : Uuid → PlaybackError → ApiError} (h : library.loadAll onError ids = .ok tracks) :
    tracks.map Track.id = ids := by
  induction Library.loadAll_eq_ok_iff.mp h with
  | nil => rfl
  | cons hid hrest ih =>
    rw [List.map_cons, hkeyed.id_of_getTrack hid, ih (Library.loadAll_eq_ok_iff.mpr hrest)]

theorem length_resolvable {library : Library} {ids : List Uuid}
    (h : ∀ id ∈ ids, ∃ track, library.getTrack id = .ok track) :
    (library.resolvable ids).length = ids.length := by
  induction ids with
  | nil => rfl
  | cons id rest ih =>
    rw [List.forall_mem_cons] at h
    obtain ⟨⟨track, htrack⟩, hrest⟩ := h
    rw [Library.resolvable, List.filterMap_cons, htrack]
    exact congrArg (· + 1) (ih hrest)

theorem TaskRestores.loaded (h : TaskRestores env s session tracks curIdx) :
    env.fault .items = none ∧ session.queueId.isSome ∧
      s.library.loadAll validationFailed (persistedQueue s session) = .ok tracks := by
  obtain ⟨queueId, hqueue, hload⟩ := h.queue
  grind [loadQueue, persistedQueue]

/-- The index the task restores is that of the saved entry's track. -/
theorem TaskRestores.index_eq (h : TaskRestores env s session tracks curIdx) :
    PlaybackEngine.resolvedIndex tracks curIdx session.currentTrackId = curIdx ∧
      match session.currentTrackId with
      | none => session.currentIndex = curIdx
      | some trackId => (persistedQueue s session).idxOf? trackId = some curIdx := by
  obtain ⟨-, -, hload⟩ := h.loaded
  have hids := idsOf_loadAll s.keyed hload
  have hindex := h.index
  unfold resolveRestoreIndex at hindex
  split at hindex
  · cases hindex
  · cases hcurrent : session.currentTrackId with
    | none =>
      rw [hcurrent] at hindex
      refine ⟨rfl, ?_⟩
      grind
    | some trackId =>
      rw [hcurrent] at hindex
      dsimp only at hindex ⊢
      split at hindex
      next hfind =>
        cases hindex
        refine ⟨?_, ?_⟩
        · simp only [PlaybackEngine.resolvedIndex, hfind, Option.getD_some]
        · rw [← hids, List.idxOf?, List.findIdx?_map, ← hfind]
          rfl
      · cases hindex

theorem TaskRestores.place (h : TaskRestores env s session tracks curIdx) (ht : t.Serves old) :
    ∃ track, tracks[curIdx]? = some track ∧
      (restored env session tracks curIdx t).engine.queue = tracks ∧
      (restored env session tracks curIdx t).engine.queueIndex = curIdx ∧
      (restored env session tracks curIdx t).engine.currentTrack = some track ∧
      ∀ now, (restored env session tracks curIdx t).engine.calculateCurrentPositionMs now =
        positionIn session track := by
  have hlt := resolveRestoreIndex_lt h.index
  have htrack := List.getElem?_eq_getElem hlt
  obtain ⟨hplace, hcurrent, hposition⟩ := @restored_spec env session tracks curIdx t old _ ht htrack
  rw [h.index_eq.1, Nat.min_eq_left (by omega)] at hplace
  exact ⟨_, htrack, congrArg Prod.fst hplace, congrArg Prod.snd hplace, hcurrent, hposition⟩

/-- The engine stands at an entry exactly where it is the first of its track. -/
theorem TaskRestores.atEntry_iff (h : TaskRestores env s session tracks curIdx) (ht : t.Serves old)
    (entry : ℕ) :
    AtEntry s session entry (restored env session tracks curIdx t).engine ↔
      entry = curIdx ∧ IsEntry session (persistedQueue s session) curIdx := by
  obtain ⟨-, -, hload⟩ := h.loaded
  have hresolves := Library.resolves_of_loadAll hload
  obtain ⟨track, htrack, hqueue, hindex, hcurrent, hposition⟩ := h.place ht
  have hids := idsOf_loadAll s.keyed hload
  have hlength : ∀ k ≤ (persistedQueue s session).length,
      (s.library.resolvable ((persistedQueue s session).take k)).length = k := by
    grind [length_resolvable]
  constructor
  · intro hat
    obtain ⟨id, found, hid, -⟩ := hat.track
    have hlt := (List.getElem?_eq_some_iff.mp hid).1
    have hentry : entry = curIdx := by
      rw [← hlength entry hlt.le, ← hat.index, hindex]
    exact ⟨hentry, hentry ▸ hat.is_entry⟩
  · rintro ⟨rfl, hentry⟩
    have hid : (persistedQueue s session)[entry]? = some track.id := by
      rw [← hids, List.getElem?_map, htrack]
      rfl
    have hlt := (List.getElem?_eq_some_iff.mp hid).1
    refine ⟨hentry, ?_, ?_, track.id, track, hid, ?_, hcurrent, hposition⟩
    · rw [hqueue, Library.resolvable_of_loadAll hload]
    · rw [hindex, hlength entry hlt.le]
    · -- what was loaded for an id is what the id resolves to
      obtain ⟨hi, hget⟩ := List.getElem?_eq_some_iff.mp hid
      obtain ⟨hj, hfound⟩ := List.getElem?_eq_some_iff.mp htrack
      have hboth := (Library.loadAll_eq_ok_iff.mp hload).get hi hj
      grind

theorem TaskRestores.isEntry_iff (h : TaskRestores env s session tracks curIdx) :
    IsEntry session (persistedQueue s session) curIdx ↔
      ResolvesToEntry session (persistedQueue s session) := by
  obtain ⟨-, -, hload⟩ := h.loaded
  have hlt := resolveRestoreIndex_lt h.index
  have hindex := h.index_eq.2
  have hlength : tracks.length = (persistedQueue s session).length := by
    rw [← idsOf_loadAll s.keyed hload, List.length_map]
  unfold IsEntry ResolvesToEntry
  cases hcurrent : session.currentTrackId with
  | none =>
    grind
  | some trackId =>
    rw [hcurrent] at hindex
    dsimp only at hindex ⊢
    obtain ⟨hi, hget, -⟩ := List.idxOf?_eq_some_iff.mp hindex
    grind

theorem TaskRestores.sessionQueue (h : TaskRestores env s session tracks curIdx) :
    sessionQueue env session s = tracks := by
  obtain ⟨queueId, hqueue, hload⟩ := h.queue
  simp [Queue.sessionQueue, hqueue, hload, Except.toOption]

theorem TaskRestores.unique {session' : PlaybackSessionDb} {tracks' : List Track} {curIdx' : ℕ}
    (h : TaskRestores env s session tracks curIdx)
    (h' : TaskRestores env s session' tracks' curIdx') :
    session' = session ∧ tracks' = tracks ∧ curIdx' = curIdx := by
  have hsession : session' = session := Option.some.inj (h'.latest.symm.trans h.latest)
  subst hsession
  have htracks : tracks' = tracks := h'.sessionQueue.symm.trans h.sessionQueue
  subst htracks
  exact ⟨rfl, rfl, Except.ok.inj (h'.index.symm.trans h.index)⟩

/-- Where both can restore, there is one plan for them. -/
theorem Restorable.plan (h : Restorable env s) : ∃ session tracks curIdx,
    TaskRestores env s session tracks curIdx ∧
      ResolvesToEntry session (persistedQueue s session) := by
  obtain ⟨session, hsession, hqueue, hall, hentry⟩ := h.session
  obtain ⟨queueId, hid⟩ := Option.isSome_iff_exists.mp hqueue
  obtain ⟨tracks, hload⟩ : ∃ tracks, s.library.loadAll validationFailed
      (persistedQueue s session) = .ok tracks := Library.loadAll_of_resolves hall
  have hids := idsOf_loadAll s.keyed hload
  have hlength : tracks.length = (persistedQueue s session).length := by
    rw [← hids, List.length_map]
  have hindex : ∃ curIdx, resolveRestoreIndex tracks session.currentTrackId
      session.currentIndex = .ok curIdx := by
    unfold ResolvesToEntry at hentry
    unfold resolveRestoreIndex
    cases hcurrent : session.currentTrackId with
    | none =>
      rw [hcurrent] at hentry
      obtain ⟨i, hi, hlt⟩ := hentry
      rw [if_neg (by rw [List.isEmpty_iff_length_eq_zero]; omega)]
      dsimp only
      rw [if_neg (by omega)]
      exact ⟨_, rfl⟩
    | some trackId =>
      rw [hcurrent] at hentry
      obtain ⟨first, hfirst, -⟩ := hentry
      rw [← hids, List.idxOf?, List.findIdx?_map] at hfirst
      have hfind : (tracks.findIdx? fun t => t.id = trackId) = some first := by
        rw [← hfirst]
        rfl
      have hlt := (List.findIdx?_eq_some_iff_getElem.mp hfind).1
      rw [if_neg (by rw [List.isEmpty_iff_length_eq_zero]; omega)]
      simp only [hfind]
      exact ⟨first, rfl⟩
  obtain ⟨curIdx, hindex⟩ := hindex
  refine ⟨session, tracks, curIdx, ⟨h.up, h.answers.1, hsession, ⟨queueId, hid, ?_⟩, hindex⟩, hentry⟩
  simp only [persistedQueue, hid] at hload
  simp only [loadQueue, h.answers.2, hload]

theorem Restorable.alike (h : Restorable env s) (hserves : s.playbackEngine.Serves old) :
    RestoredAlike env s := by
  obtain ⟨session, tracks, curIdx, hplan, hentry⟩ := h.plan
  have htask : ((autoRestorePlaybackState env).exec s).2.playbackEngine =
      restored env session tracks curIdx s.playbackEngine := by
    rcases @task_restores env s old hserves with ⟨-, hnot⟩ | ⟨session', tracks', curIdx', hplan', heq⟩
    · exact absurd ⟨session, tracks, curIdx, hplan⟩ hnot
    · obtain ⟨rfl, rfl, rfl⟩ := hplan.unique hplan'
      exact heq
  refine ⟨?_, session, curIdx, hplan.latest, ?_⟩
  · rw [htask]
    exact handler_restores h.enabled h.answers.1 hplan.latest hplan.sessionQueue hplan.index hserves
      h.volume
  · rw [htask]
    exact (hplan.atEntry_iff hserves curIdx).mpr ⟨rfl, hplan.isEntry_iff.mpr hentry⟩

end

def newTask : EngineTask where
  engine := .new ⟨48000, 2, 16⟩ 0

def taskAt (positionMs : ℕ) : EngineTask where
  engine := { PlaybackEngine.new ⟨48000, 2, 16⟩ 0 with
    sinks := [⟨"", .local⟩]
    basePositionMs := positionMs }

theorem newTask_serves : newTask.Serves [] :=
  ⟨rfl, rfl, PlaybackEngine.queueInv_of_empty rfl rfl⟩

theorem taskAt_serves (positionMs : ℕ) : (taskAt positionMs).Serves [] :=
  ⟨rfl, rfl, PlaybackEngine.queueInv_of_empty rfl rfl⟩

/-- A handler that refuses leaves another engine than the task. -/
theorem refused_not_alike {env : RestoreEnv} {s s' : RestoreState} {session : PlaybackSessionDb}
    {tracks : List Track} {curIdx : ℕ}
    (hs : s = { s' with playbackEngine := taskAt (session.positionMs + 1) })
    (henabled : "playback" ∉ s'.disabledModules) (hplan : TaskRestores env s' session tracks curIdx)
    (hrefused : env.setVolume.setVolume 0 ≠ none) : ¬ RestoredAlike env s := by
  rintro ⟨hsame, session', entry, hsession, hat⟩
  have hlatest : s.session = some session := hs ▸ hplan.latest
  have htask : s.playbackEngine = taskAt (session.positionMs + 1) := by rw [hs]
  cases hsession.symm.trans hlatest
  obtain ⟨-, track, -, -, -, hposition⟩ := hat.track
  rw [← hsame] at hposition
  have hstage := handler_refused (hs ▸ henabled) hplan.answers hlatest
    (hs ▸ hplan.sessionQueue) hplan.index (htask ▸ taskAt_serves _) ⟨"", .local⟩
    (by rw [htask]; rfl) hrefused
  rw [htask] at hstage
  have hbase : ((restorePlaybackStateHandler env).exec s).2.playbackEngine.engine.basePositionMs =
      session.positionMs + 1 := congrArg (fun stage => stage.2.1) hstage
  have hclock : ((restorePlaybackStateHandler env).exec s).2.playbackEngine.engine.playingStartedAt =
      none := congrArg (fun stage => stage.2.2) hstage
  have hnow := hposition 0
  grind [PlaybackEngine.calculateCurrentPositionMs, positionIn]

/-- For every state of the tables, the library and the session: the handler and the task leave every
running engine in the same state, the one that the session was persisted in, if and only if the session
can be restored. -/
theorem restore_alike_iff (env : RestoreEnv) (s : RestoreState) :
    (∀ (t : EngineTask) (old : List Track), t.Serves old →
      RestoredAlike env { s with playbackEngine := t }) ↔ Restorable env s := by
  constructor
  · intro h
    obtain ⟨hsame, session, entry, hsession, hat⟩ := h newTask [] newTask_serves
    obtain ⟨id, track, -, -, htrack, -⟩ := hat.track
    have hnone : newTask.engine.currentTrack = none := rfl
    rcases @task_restores env { s with playbackEngine := newTask } [] newTask_serves with
      ⟨hunchanged, -⟩ | ⟨session', tracks, curIdx, hplan, hrestored⟩
    · rw [hunchanged, hnone] at htrack
      cases htrack
    · have hsession' : session' = session := Option.some.inj (hplan.latest.symm.trans hsession)
      subst hsession'
      rw [hrestored] at hat
      obtain ⟨-, hentry⟩ := (hplan.atEntry_iff newTask_serves entry).mp hat
      obtain ⟨hitems, hqueue, hload⟩ := hplan.loaded
      have henabled : "playback" ∉ s.disabledModules := by
        intro hdisabled
        have hstands : ((restorePlaybackStateHandler env).exec
            { s with playbackEngine := newTask }).2.playbackEngine = newTask :=
          handler_disabled hdisabled
        rw [← hsame, hstands] at htrack
        cases hnone.symm.trans htrack
      refine ⟨henabled, hplan.up, ⟨hplan.answers, hitems⟩, ?_, session', hsession, hqueue,
        Library.resolves_of_loadAll hload, hplan.isEntry_iff.mp hentry⟩
      by_contra hrefused
      have hplan' : TaskRestores env s session' tracks curIdx :=
        ⟨hplan.up, hplan.answers, hplan.latest, hplan.queue, hplan.index⟩
      exact refused_not_alike rfl henabled hplan' hrefused (h (taskAt _) [] (taskAt_serves _))
  · intro h t old ht
    exact Restorable.alike (s := { s with playbackEngine := t }) ⟨h.enabled, h.up, h.answers,
      h.volume, h.session⟩ ht

/-! ## Three entries -/

def calmRestore : RestoreEnv where
  request := { now := 0, uuid := fun _ => 0, engine := fun _ => { now := 0 } }
  setVolume := { now := 0 }
  setShuffle := { now := 0 }
  setRepeat := { now := 0 }
  loadTrack := { now := 0 }

def tracksBelow (n : ℕ) : Library where
  tracks id := .ok (if id < n then some ⟨id, "/m", some 1000⟩ else none)

/-- A session that was persisted at the last of three entries, whose track is also the first. -/
def threeEntries (n : ℕ) : RestoreState where
  db := { queues := [⟨0, "player", 0⟩], queueItems := [⟨0, 0, 1, 0⟩, ⟨1, 0, 2, 1⟩, ⟨2, 0, 1, 2⟩] }
  session := some ⟨0, some 0, 2, some 1, 400, "off", false, 80, "keep_position", false⟩
  library := tracksBelow n
  keyed := by
    intro id track h
    grind [tracksBelow]
  playbackEngine := newTask

/-- With all tracks there both restore the first entry, not the one the session was persisted at; with
the second track missing the handler restores the current track alone and the task nothing. -/
theorem duplicate_restored_first :
    (((restorePlaybackStateHandler calmRestore).exec (threeEntries 3)).2.playbackEngine.engine.place =
        ((threeEntries 3).library.resolvable [1, 2, 1], 0) ∧
      ¬ RestoredAlike calmRestore (threeEntries 3)) ∧
    ((restorePlaybackStateHandler calmRestore).exec (threeEntries 2)).2.playbackEngine.engine.place =
        ((threeEntries 2).library.resolvable [1], 0) ∧
      ((autoRestorePlaybackState calmRestore).exec (threeEntries 2)).2.playbackEngine.engine.place =
        ([], 0) := by
  have hfirst : ((restorePlaybackStateHandler calmRestore).exec
      (threeEntries 3)).2.playbackEngine.engine.place =
        ((threeEntries 3).library.resolvable [1, 2, 1], 0) := by decide +kernel
  refine ⟨⟨hfirst, ?_⟩, by decide +kernel, by decide +kernel⟩
  rintro ⟨hsame, session, entry, hsession, hat⟩
  cases hsession
  have hqueue : persistedQueue (threeEntries 3)
      ⟨0, some 0, 2, some 1, 400, "off", false, 80, "keep_position", false⟩ = [1, 2, 1] := by
    decide +kernel
  have hentry : 2 = entry := by
    have hthere := hat.is_entry
    rw [hqueue] at hthere
    exact hthere.2 2 rfl rfl
  have hindex := hat.index
  rw [← hsame, hqueue, ← hentry] at hindex
  have hplace := congrArg Prod.snd hfirst
  exact absurd (hplace.symm.trans hindex) (by decide +kernel)

end MichiServer.Queue
