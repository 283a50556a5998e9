import MichiServer.Queue.Saved
import MichiServer.Transfer.Traces

/-!
# Is a playback session request all or nothing?

`playback_session_handler` makes its checks first, all but one: the device id is parsed when the
transaction on the queue is through. Nor is anything taken back when the session or the engine fails.
So a request that fails leaves everything as it was exactly in the cases of `Settles`.
-/

namespace MichiServer.Queue

open MichiServer.Logic MichiServer.Playback MichiServer.Text

/-- `AppState`, with the rest of what the handler writes: `updated_at` of `queues`, and the table of the
sessions. -/
structure SessionState extends AppState where
  updatedAt : Uuid → DateTime := fun _ => 0
  playbackSessions : List PlaybackSessionRow := []

structure PlaybackSessionBody where
  queue : List Uuid := []
  currentTrackId : Option Uuid := none
  positionMs : ℕ := 0
  playing : Bool := false
  volume : Option F64 := none
  source : Option String := none
  resumePolicy : Option String := none
  deviceId : Option String := none
  repeatMode : Option String := none
  shuffle : Option Bool := none

structure PlaybackOutputPlan where
  sinks : List AudioSink
  description : PlaybackOutputDescription

/-- What a request meets, and what it is told: the output that is selected, as `resolve_output` answers;
the environments of the further commands; `Uuid::parse_str`; and `(volume * 100.0) as u8`. -/
structure SessionEnv extends RequestEnv where
  output : Option (Except PlaybackError PlaybackOutputPlan) := none
  repeatEnv : EngineEnv := engine .setQueue
  shuffleEnv : EngineEnv := engine .setQueue
  volumeEnv : EngineEnv := engine .setQueue
  playEnv : EngineEnv := engine .setQueue
  parseUuid : String → Option Uuid
  percent : F64 → ℕ := fun _ => 80

abbrev SessionRoute := Handler ApiError SessionState

/-! ## The checks -/

def volumeAllowed (v : F64) : Bool := v ≤ 0x3FF0000000000000 || v = 0x8000000000000000

def parsedRepeat (repeatMode : Option String) : Except ApiError RepeatMode :=
  match repeatMode.map Receivers.lowercaseBody with
  | none | some "off" => .ok .off
  | some "all" => .ok .all
  | some "one" | some "track" => .ok .one
  | some _ => .error (v1Error 400 "INVALID_REPEAT_MODE" "repeat_mode must be 'off', 'all', or 'one'")

def repeatText : RepeatMode → String
  | .off => "off"
  | .all => "all"
  | .one => "one"

/-- The current track and its place: the one asked for, or else the first. -/
def currentTrack (tracks : List Track) (current : Option Uuid) :
    Except ApiError (Option Uuid × ℕ) :=
  match current with
  | some targetId =>
    match tracks.findIdx? fun t => t.id = targetId with
    | some idx => .ok (some targetId, idx)
    | none => .error (v1Error 400 "CURRENT_TRACK_NOT_IN_QUEUE"
        "current_track_id must belong to the submitted queue")
  | none => .ok (tracks.head?.map Track.id, 0)

def outputPlan (env : SessionEnv) (tracks : List Track) (currentIndex : ℕ) :
    Except ApiError (Track × PlaybackOutputPlan) :=
  match env.output with
  | none => .error (v1Error 409 "OUTPUT_REQUIRED"
      "explicit output target selection required when playing is true")
  | some (.error e) => .error (v1Error 502 e.errorCode e.toString)
  | some (.ok plan) =>
    match tracks[currentIndex]? with
    | some track => .ok (track, plan)
    | none => .error (v1Error 400 "NO_TRACK_SELECTED" "no current track selected in queue")

structure Checked where
  repeatMode : RepeatMode
  runtimeTracks : List Track
  currentTrackId : Option Uuid
  currentIndex : ℕ
  outputPlan : Option (Track × PlaybackOutputPlan)

def checked (env : SessionEnv) (body : PlaybackSessionBody) (s : SessionState) :
    Except ApiError Checked := do
  if s.disabledModules.contains "playback" then
    throw (v1Error 503 "MODULE_DISABLED" "playback module is disabled")
  if body.volume.any fun v => !volumeAllowed v then
    throw (v1Error 400 "INVALID_VOLUME" "volume must be a finite number between 0.0 and 1.0")
  let repeatMode ← parsedRepeat body.repeatMode
  let runtimeTracks ← s.library.loadAll validationFailed body.queue
  let (currentTrackId, currentIndex) ← currentTrack runtimeTracks body.currentTrackId
  let outputPlan ←
    if body.playing then some <$> outputPlan env runtimeTracks currentIndex else pure none
  return ⟨repeatMode, runtimeTracks, currentTrackId, currentIndex, outputPlan⟩

/-! ## The effects -/

section

variable (env : SessionEnv)

def activeQueueId : SessionRoute Uuid :=
  .update fun s =>
    match env.fault .active, findOrCreate env.toRequestEnv s.db with
    | some text, _ => (s, .error (databaseError text))
    | none, .error e => (s, .error e)
    | none, .ok (db, id) =>
      ({ s with
          db
          updatedAt := if s.db.activeQueue = none then Function.update s.updatedAt id env.now
            else s.updatedAt },
        .ok id)

def replaceQueue (queueId : Uuid) (queue : List Uuid) : SessionRoute Unit :=
  .update fun s =>
    match env.fault .commit, (s.db.deleteItems queueId).insertItems
        (QueueTables.numbered queueId (fun i => env.uuid (.item i)) 0 queue) with
    | some text, _ | none, .error text => (s, .error (databaseError text))
    | none, .ok db =>
      ({ s with db, updatedAt := Function.update s.updatedAt queueId env.now }, .ok ())

def parsedDeviceId (deviceId : Option String) : Except ApiError Uuid :=
  match deviceId with
  | some s =>
    if trim s = "" then .ok 0
    else
      match env.parseUuid s with
      | some id => .ok id
      | none => .error (v1Error 400 "INVALID_DEVICE_ID"
          ("device_id must be a valid UUID, got '" ++ s ++ "'"))
  | none => .ok 0

def newSession (body : PlaybackSessionBody) (found : Checked) (queueId deviceId : Uuid) :
    PlaybackSessionRow where
  id := env.uuid .session
  deviceId := deviceId
  queueId := some queueId
  queueState := body.queue
  currentIndex := Int.bmod found.currentIndex (2 ^ 32)
  currentTrackId := found.currentTrackId
  positionMs := Int.bmod body.positionMs (2 ^ 64)
  playing := false
  repeatMode := repeatText found.repeatMode
  shuffle := body.shuffle.getD false
  volume := body.volume.getD savedVolume
  source := body.source.getD "player"
  resumePolicy := body.resumePolicy.getD "manual"
  restored := false
  createdAt := env.now
  updatedAt := env.now

def createPlaybackSession (row : PlaybackSessionRow) : SessionRoute Unit :=
  .update fun s =>
    let internal text := v1Error 500 "INTERNAL_ERROR" text
    match env.fault .saveSession with
    | some text => (s, .error (internal text))
    | none =>
      if row.id ∈ s.playbackSessions.map PlaybackSessionRow.id then
        (s, .error (internal "UNIQUE constraint failed: playback_sessions.id"))
      else ({ s with playbackSessions := s.playbackSessions ++ [row] }, .ok ())

def sessionCommand {α : Type} (f : EngineTask → EngineTask × Except PlaybackError α)
    (onError : PlaybackError → ApiError) : SessionRoute α :=
  .update fun s =>
    let r := f s.playbackEngine
    ({ s with playbackEngine := r.1 }, r.2.mapError onError)

/-- The last command: the track is played, or loaded, if there is one. -/
def startTrack (positionMs : ℕ) (found : Checked) : SessionRoute Unit :=
  match found.outputPlan with
  | some (track, plan) =>
    sessionCommand (EngineTask.play env.playEnv track plan.sinks plan.description positionMs)
      commandFailed
  | none =>
    match found.runtimeTracks[found.currentIndex]? with
    | some track => sessionCommand (EngineTask.loadTrack env.playEnv track positionMs) commandFailed
    | none => pure ()

def setShuffleIf (shuffle : Option Bool) : SessionRoute Unit :=
  match shuffle with
  | some shuf => sessionCommand (EngineTask.setShuffle env.shuffleEnv shuf) commandFailed
  | none => pure ()

def synchronizeEngine (body : PlaybackSessionBody) (found : Checked) : SessionRoute Unit := do
  sessionCommand (EngineTask.setQueue (env.engine .setQueue) found.runtimeTracks
    found.currentIndex found.currentTrackId) fun e => runtimeSyncFailed e.toString
  sessionCommand (EngineTask.setRepeat env.repeatEnv found.repeatMode) commandFailed
  setShuffleIf env body.shuffle
  sessionCommand (EngineTask.setVolume env.volumeEnv (env.percent (body.volume.getD savedVolume)))
    commandFailed
  startTrack env body.positionMs found

/-- `playback_session_handler`; it answers with the session, its queue and whether it plays. -/
def playbackSessionHandler (body : PlaybackSessionBody) : SessionRoute (Uuid × Uuid × Bool) := do
  let found ← MonadExcept.ofExcept (checked env body (← get))
  let queueId ← activeQueueId env
  replaceQueue env queueId body.queue
  let deviceId ← MonadExcept.ofExcept (parsedDeviceId env body.deviceId)
  createPlaybackSession env (newSession env body found queueId deviceId)
  synchronizeEngine env body found
  let snap ← sessionCommand (EngineTask.snapshot (env.engine .snapshot)) fun e =>
    v1Error 500 "ENGINE_ERROR" e.toString
  return (env.uuid .session, queueId, snap.lifecycle.isPlaying)

end

/-! ## The law -/

/-- The active queue, the items, the sessions, and of the engine the queue, the track and the volume are
the same. -/
structure SessionState.Same (s s' : SessionState) : Prop where
  db : s'.db = s.db
  updatedAt : s'.updatedAt = s.updatedAt
  playbackSessions : s'.playbackSessions = s.playbackSessions
  queue : s'.playbackEngine.engine.queue = s.playbackEngine.engine.queue
  currentTrack : s'.playbackEngine.engine.currentTrack = s.playbackEngine.engine.currentTrack
  volume : s'.playbackEngine.engine.volume = s.playbackEngine.engine.volume

def AllOrNothing (env : SessionEnv) (body : PlaybackSessionBody) (s : SessionState) : Prop :=
  ∀ e s', (playbackSessionHandler env body).exec s = (.error e, s') → s.Same s'

structure SessionEnv.DrawsNew (env : SessionEnv) (s : SessionState) : Prop where
  items : Function.Injective fun i => env.uuid (.item i)
  queue : env.uuid .queue ∉ s.db.queues.map QueueRow.id
  item : ∀ i, env.uuid (.item i) ∉ s.db.queueItems.map QueueItem.id
  session : env.uuid .session ∉ s.playbackSessions.map PlaybackSessionRow.id

def Storable (env : SessionEnv) (body : PlaybackSessionBody) : Prop :=
  (∃ id, parsedDeviceId env body.deviceId = .ok id) ∧ env.fault .saveSession = none

/-- The engine runs, not all of its outputs refuse a volume, and what is to be played can start. -/
def Accepts (env : SessionEnv) (found : Checked) (t : EngineTask) : Prop :=
  t.running = true ∧
  (t.engine.sinks = [] ∨
    t.engine.sinkErrors env.volumeEnv.setVolume ≠ t.engine.sinks.length) ∧
  ∀ p ∈ found.outputPlan,
    PlaybackEngine.preparedSinks env.playEnv p.2.sinks ≠ [] ∧ env.playEnv.decoderStart = .ok ()

/-- The active queue is there and empty, and was last changed at this moment. -/
def SessionState.EmptyAt (s : SessionState) (now : DateTime) : Prop :=
  ∃ row, s.db.activeQueue = some row ∧ (∀ item ∈ s.db.queueItems, item.queueId ≠ row.id) ∧
    s.updatedAt row.id = now

/-- A check fails, or the search for the queue; or the transaction does, and the queue was there; or
nothing fails; or, behind the transaction, it is the device id or the session that fails, and no queue
was put in the place of none. -/
def Settles (env : SessionEnv) (body : PlaybackSessionBody) (s : SessionState) : Prop :=
  match checked env body s with
  | .error _ => True
  | .ok found =>
    env.fault .active ≠ none ∨
    env.fault .commit ≠ none ∧ s.db.activeQueue ≠ none ∨
    env.fault .commit = none ∧
      (Storable env body ∧ Accepts env found s.playbackEngine ∨
        ¬ Storable env body ∧ body.queue = [] ∧ s.EmptyAt env.now)

/-! ## The engine's part -/

section

variable {t : EngineTask} {eenv : EngineEnv}

theorem issue_spec (eenv : EngineEnv) (cmd : EngineCommand)
    {P : PlaybackEngine → Except PlaybackError Unit → Prop} (h : ∃ tracks, t.Serves tracks)
    (hends : cmd.ends = false)
    (hcmd : Returns (t.engine.handleCommand eenv cmd) fun r => ∃ a, r.2.1 = .done a ∧ P r.1 a) :
    (∃ tracks, (t.issue eenv cmd).1.Serves tracks) ∧
      P (t.issue eenv cmd).1.engine (t.issue eenv cmd).2 := by
  obtain ⟨tracks, h⟩ := h
  refine ⟨⟨_, EngineTask.call_serves eenv h cmd hends⟩, ?_⟩
  obtain ⟨response, hresponse, a, rfl, ha⟩ := EngineTask.call_engine eenv h cmd hends
    (fun e response => ∃ a, response = .done a ∧ P e a) hcmd
  have hanswer : (t.issue eenv cmd).2 = a := by
    show EngineTask.result (t.call eenv cmd).2 = a
    rw [hresponse]
    rfl
  rw [hanswer]
  exact ha

/-- A running engine takes the queue, and keeps its sinks. -/
theorem setQueue_taken (eenv : EngineEnv) (h : t.running = true) (tracks : List Track) (index : ℕ)
    (id : Option Uuid) :
    (t.setQueue eenv tracks index id).2 = .ok () ∧
      (∃ new, (t.setQueue eenv tracks index id).1.Serves new) ∧
      (t.setQueue eenv tracks index id).1.engine.sinks = t.engine.sinks := by
  obtain ⟨r, hr, ⟨hholds, -⟩, hstage⟩ := (PlaybackEngine.handleSetQueue_spec
    (e := { t.engine with currentCommandOrigin := some .local }) tracks index id).and_returns
      (PlaybackEngine.stage_handleSetQueue eenv tracks index id)
  have hcommand : t.engine.handleCommand eenv (.setQueue tracks index id .local) =
      some ({ r.1 with currentCommandOrigin := none }, .done r.2, true) := by
    show (({ t.engine with currentCommandOrigin := some .local } :
      PlaybackEngine).handleSetQueue eenv tracks index id).map PlaybackEngine.respond >>= _ = _
    rw [hr]
    rfl
  have hissue : (t.setQueue eenv tracks index id).1 =
      { engine := { r.1 with currentCommandOrigin := none } } :=
    congrArg Prod.fst (EngineTask.issue_of_handled h hcommand)
  refine ⟨EngineTask.setQueue_of_running eenv h tracks index id, ⟨tracks, ?_⟩, ?_⟩
  · rw [hissue]
    exact ⟨rfl, hholds.of_standing_eq rfl⟩
  · rw [hissue]
    exact congrArg Prod.fst hstage

theorem setVolume_answer (volume : ℕ) (e : PlaybackEngine) :
    (e.handleSetVolume eenv volume).1.sinks = e.sinks ∧
      ((e.handleSetVolume eenv volume).2 = .ok () ↔
        e.sinks = [] ∨ e.sinkErrors eenv.setVolume ≠ e.sinks.length) := by
  have herrors : ({ e with volume := min volume 100 }.emitEvent
      (.volumeChanged (min volume 100))).sinkErrors eenv.setVolume =
        e.sinkErrors eenv.setVolume := rfl
  grind [PlaybackEngine.handleSetVolume, PlaybackEngine.emitEvent]

theorem play_answer (track : Track) (sinks : List AudioSink) (description : PlaybackOutputDescription)
    (positionMs : ℕ) (e : PlaybackEngine) :
    (e.handlePlay eenv track sinks description positionMs).2 = .ok () ↔
      PlaybackEngine.preparedSinks eenv sinks ≠ [] ∧ eenv.decoderStart = .ok () := by
  grind [PlaybackEngine.handlePlay, PlaybackEngine.startPlaybackInternal,
    PlaybackEngine.preparedSinks]

variable {env : SessionEnv} {body : PlaybackSessionBody} {found : Checked} {s s' : SessionState}

theorem sessionCommand_leaves {α : Type} {f : EngineTask → EngineTask × Except PlaybackError α}
    {onError : PlaybackError → ApiError} {P : α → SessionState → Prop}
    {E : ApiError → SessionState → Prop}
    (hok : ∀ a, (f s.playbackEngine).2 = .ok a →
      P a { s with playbackEngine := (f s.playbackEngine).1 })
    (herror : ∀ e e', (f s.playbackEngine).2 = .error e →
      E e' { s with playbackEngine := (f s.playbackEngine).1 }) :
    Handler.Leaves (sessionCommand f onError) s P E := by
  refine .update (fun a ha => hok a (mapError_eq_ok_iff.mp ha)) fun e he => ?_
  obtain ⟨e₀, he₀, -⟩ := mapError_eq_error_iff.mp he
  exact herror e₀ e he₀

/-- What the commands behind the queue leave as it is: all but the engine; and the task serves. -/
def Serving (s s' : SessionState) : Prop :=
  s'.playbackSessions = s.playbackSessions ∧ ∃ tracks, s'.playbackEngine.Serves tracks

/-- The track is started exactly where an output prepares and the decoder starts. -/
theorem startTrack_leaves {positionMs : ℕ} (h : ∃ tracks, s.playbackEngine.Serves tracks) :
    Handler.Leaves (startTrack env positionMs found) s
      (fun _ s' => Serving s s' ∧ ∀ p ∈ found.outputPlan,
        PlaybackEngine.preparedSinks env.playEnv p.2.sinks ≠ [] ∧
          env.playEnv.decoderStart = .ok ())
      fun _ s' => s'.playbackSessions = s.playbackSessions ∧ ¬ ∀ p ∈ found.outputPlan,
        PlaybackEngine.preparedSinks env.playEnv p.2.sinks ≠ [] ∧
          env.playEnv.decoderStart = .ok () := by
  unfold startTrack
  cases hplan : found.outputPlan with
  | some p =>
    obtain ⟨hserves, hanswer⟩ := issue_spec env.playEnv
      (.play p.1 p.2.sinks p.2.description positionMs .local) h
      (P := fun _ a => a = .ok () ↔ PlaybackEngine.preparedSinks env.playEnv p.2.sinks ≠ [] ∧
        env.playEnv.decoderStart = .ok ()) rfl
      (Returns.bind (.some ⟨_, rfl, play_answer _ _ _ _ _⟩) fun _ hr => .some hr)
    refine sessionCommand_leaves (fun a ha => ⟨⟨rfl, hserves⟩, ?_⟩) fun e _ he => ⟨rfl, fun hall => ?_⟩
    · rintro _ ⟨⟩
      exact hanswer.mp ha
    · cases (hanswer.mpr (hall p rfl)).symm.trans he
  | none =>
    dsimp only
    split
    next track _ =>
      obtain ⟨hserves, hok⟩ := issue_spec env.playEnv
        (.loadTrack track positionMs .local) h (P := fun _ a => a = .ok ()) rfl
        (Returns.bind (.some ⟨_, rfl, rfl⟩) fun _ hr => .some hr)
      refine sessionCommand_leaves (fun _ _ => ⟨⟨rfl, hserves⟩, by simp⟩) fun e _ he => ?_
      cases hok.symm.trans he
    next => exact .pure ⟨⟨rfl, h⟩, by simp⟩

theorem setShuffle_leaves {shuffle : Option Bool} (h : ∃ tracks, s.playbackEngine.Serves tracks) :
    Handler.Leaves (setShuffleIf env shuffle) s
      (fun _ s' => Serving s s' ∧ s'.playbackEngine.engine.sinks = s.playbackEngine.engine.sinks)
      fun _ _ => False := by
  unfold setShuffleIf
  split
  next shuf =>
    obtain ⟨hserves, hok, hsinks⟩ := issue_spec env.shuffleEnv (.setShuffle shuf .local) h
      (P := fun e a => a = .ok () ∧ e.sinks = s.playbackEngine.engine.sinks) rfl (by
        refine Returns.bind (Returns.map ((PlaybackEngine.recomputePlayOrder_eq _ _).bind
          fun e he => .some ?_) fun r hr => hr) fun r hr => .some hr
        obtain ⟨order, pos, rfl⟩ := he
        exact ⟨_, rfl, rfl, rfl⟩)
    exact sessionCommand_leaves (fun _ _ => ⟨⟨rfl, hserves⟩, hsinks⟩) fun e _ he =>
      nomatch hok.symm.trans he
  next => exact .pure ⟨⟨rfl, h⟩, rfl⟩

/-- The engine is synchronized exactly where it accepts. -/
theorem synchronizeEngine_leaves :
    Handler.Leaves (synchronizeEngine env body found) s
      (fun _ s' => Serving s s' ∧ Accepts env found s.playbackEngine)
      fun _ s' => s'.playbackSessions = s.playbackSessions ∧
        ¬ Accepts env found s.playbackEngine := by
  cases hrunning : s.playbackEngine.running with
  | false =>
    refine .bind (sessionCommand_leaves (fun a ha => ?_) fun _ _ _ => ⟨rfl, ?_⟩)
    · have hclosed : (s.playbackEngine.setQueue (env.engine .setQueue) found.runtimeTracks
          found.currentIndex found.currentTrackId).2 = .error .channelClosed := by
        rw [EngineTask.setQueue, EngineTask.call_of_stopped _ hrunning]
        rfl
      cases hclosed.symm.trans ha
    · simp [Accepts, hrunning]
  | true =>
    obtain ⟨hqueue, hserves, hsinks⟩ := setQueue_taken (env.engine .setQueue) hrunning
      found.runtimeTracks found.currentIndex found.currentTrackId
    refine .bind (sessionCommand_leaves (fun _ _ => ?_) fun e _ he => by cases hqueue.symm.trans he)
    obtain ⟨hserves, hrepeat, hkept⟩ := issue_spec env.repeatEnv
      (.setRepeat found.repeatMode .local) hserves
      (P := fun e a => a = .ok () ∧ e.sinks = s.playbackEngine.engine.sinks) rfl
      (Returns.bind (.some ⟨_, rfl, rfl, hsinks⟩) fun _ hr => .some hr)
    refine .bind (sessionCommand_leaves (fun _ _ => ?_) fun e _ he => by cases hrepeat.symm.trans he)
    refine .bind ((setShuffle_leaves hserves).mono (fun _ s₁ h => ?_) fun _ _ h => h.elim)
    obtain ⟨⟨hsessions, hserves⟩, hsinks⟩ := h
    replace hsinks := hsinks.trans hkept
    have herrors : s₁.playbackEngine.engine.sinkErrors env.volumeEnv.setVolume =
        s.playbackEngine.engine.sinkErrors env.volumeEnv.setVolume := by
      rw [PlaybackEngine.sinkErrors, PlaybackEngine.sinkErrors, hsinks]
    obtain ⟨hserves, hvolume⟩ := issue_spec env.volumeEnv
      (.setVolume (env.percent (body.volume.getD savedVolume)) .local) hserves
      (P := fun _ a => a = .ok () ↔ s.playbackEngine.engine.sinks = [] ∨
        s.playbackEngine.engine.sinkErrors env.volumeEnv.setVolume ≠
          s.playbackEngine.engine.sinks.length) rfl
      (Returns.bind (.some ⟨_, rfl, by
        rw [← herrors, ← hsinks]
        exact (setVolume_answer _ _).2⟩) fun _ hr => .some hr)
    refine .bind (sessionCommand_leaves (fun _ ha => ?_) fun e _ he => ⟨hsessions, fun haccepts => ?_⟩)
    · refine (startTrack_leaves hserves).mono (fun _ s₂ h => ?_) fun _ s₂ h => ?_
      · exact ⟨⟨h.1.1.trans hsessions, h.1.2⟩, hrunning, hvolume.mp ha, h.2⟩
      · exact ⟨h.1.trans hsessions, fun haccepts => h.2 haccepts.2.2⟩
    · cases (hvolume.mpr haccepts.2.1).symm.trans he

/-! ## The tables' part -/

/-- The active queue is found or created, unless the search fails. -/
theorem activeQueueId_leaves (hnew : env.DrawsNew s) :
    Handler.Leaves (activeQueueId env) s
      (fun id s' => env.fault .active = none ∧
        ((∃ row, s.db.activeQueue = some row ∧ id = row.id ∧ s' = s) ∨
          s.db.activeQueue = none ∧ s'.playbackSessions = s.playbackSessions ∧
            s'.playbackEngine = s.playbackEngine ∧ s'.db.queueItems = s.db.queueItems ∧
              s'.db.queues = s.db.queues ++ [⟨id, activeQueueName, env.now⟩]))
      fun _ s' => env.fault .active ≠ none ∧ s' = s := by
  unfold activeQueueId
  cases hfault : env.fault .active with
  | some text => exact .update (fun _ h => nomatch h) fun _ _ => ⟨nofun, rfl⟩
  | none =>
    cases hactive : s.db.activeQueue with
    | some row =>
      have hfind : findOrCreate env.toRequestEnv s.db = .ok (s.db, row.id) := by
        simp only [findOrCreate, hactive]
      refine .update (fun id h => ?_) fun _ h => ?_
      · simp only [hfind, hactive, reduceCtorEq, if_false] at h ⊢
        cases h
        exact ⟨trivial, .inl ⟨row, rfl, rfl, trivial⟩⟩
      · rw [hfind] at h
        cases h
    | none =>
      obtain ⟨db, hinsert⟩ : ∃ db, s.db.insertQueue ⟨env.uuid .queue, activeQueueName, env.now⟩ =
          .ok db := by
        rw [QueueTables.insertQueue, dif_neg hnew.queue]
        exact ⟨_, rfl⟩
      have hfind : findOrCreate env.toRequestEnv s.db = .ok (db, env.uuid .queue) := by
        simp only [findOrCreate, hactive, hinsert, statement]
      obtain ⟨-, hqueues, hitems⟩ := QueueTables.insertQueue_spec hinsert
      refine .update (fun id h => ?_) fun _ h => ?_
      · grind
      · rw [hfind] at h
        cases h

theorem tables_eq {db db' : QueueTables} (hqueues : db'.queues = db.queues)
    (hitems : db'.queueItems = db.queueItems) : db' = db := by
  cases db
  cases db'
  cases hqueues
  cases hitems
  rfl

/-- What stands behind the transaction is what was there exactly where nothing was put in the place of
nothing, at one moment. -/
structure Replaced (env : SessionEnv) (queue : List Uuid) (s s' : SessionState) : Prop where
  playbackSessions : s'.playbackSessions = s.playbackSessions
  playbackEngine : s'.playbackEngine = s.playbackEngine
  same_iff : s'.db = s.db ∧ s'.updatedAt = s.updatedAt ↔ queue = [] ∧ s.EmptyAt env.now

theorem Replaced.same (h : Replaced env body.queue s s') :
    s.Same s' ↔ body.queue = [] ∧ s.EmptyAt env.now := by
  rw [← h.same_iff]
  refine ⟨fun hsame => ⟨hsame.db, hsame.updatedAt⟩, fun hsame => ?_⟩
  exact ⟨hsame.1, hsame.2, h.playbackSessions, by rw [h.playbackEngine], by rw [h.playbackEngine],
    by rw [h.playbackEngine]⟩

/-- The items are replaced at once, or nothing is. -/
theorem replaceQueue_leaves {id : Uuid} {queue : List Uuid} {s₁ : SessionState}
    (hitems : Function.Injective fun i => env.uuid (.item i))
    (hitem : ∀ i, env.uuid (.item i) ∉ s₁.db.queueItems.map QueueItem.id)
    (hid : id ∈ s₁.db.queues.map QueueRow.id) :
    Handler.Leaves (replaceQueue env id queue) s₁
      (fun _ s' => env.fault .commit = none ∧ s'.playbackSessions = s₁.playbackSessions ∧
        s'.playbackEngine = s₁.playbackEngine ∧ s'.db.queues = s₁.db.queues ∧
        s'.db.queueItems = (s₁.db.deleteItems id).queueItems ++
          QueueTables.numbered id (fun i => env.uuid (.item i)) 0 queue ∧
        s'.updatedAt = Function.update s₁.updatedAt id env.now)
      fun _ s' => env.fault .commit ≠ none ∧ s' = s₁ := by
  unfold replaceQueue
  cases hfault : env.fault .commit with
  | some text => exact .update (fun _ h => nomatch h) fun _ _ => ⟨by simp, rfl⟩
  | none =>
    have hok : (∃ db, (s₁.db.deleteItems id).insertItems
        (QueueTables.numbered id (fun i => env.uuid (.item i)) 0 queue) = .ok db) ↔ _ :=
      QueueTables.insertItems_ok_iff fun item h => by
        rw [QueueTables.numbered_queueId h]
        exact hid
    obtain ⟨db, hdb⟩ := hok.mpr (by
      rw [List.map_append]
      refine List.Nodup.append ?_ (QueueTables.nodup_numbered hitems 0 queue) ?_
      · exact (s₁.db.deleteItems id).items_key
      · intro x hx hnumbered
        obtain ⟨item, hmem, rfl⟩ := List.mem_map.mp hx
        obtain ⟨other, hother, heq⟩ := List.mem_map.mp hnumbered
        obtain ⟨t, -, rfl⟩ := List.mem_map.mp hother
        refine hitem t.2 ?_
        rw [show env.uuid (.item t.2) = item.id from heq]
        exact List.mem_map_of_mem (List.mem_of_mem_filter hmem))
    obtain ⟨hqueues, hrows⟩ := QueueTables.insertItems_spec hdb
    refine .update (fun _ _ => ?_) fun _ h => ?_
    · rw [hdb]
      exact ⟨rfl, rfl, rfl, hqueues, hrows, rfl⟩
    · rw [hdb] at h
      cases h

/-- A queue that is found is the same afterwards exactly where nothing replaces nothing at one moment.
-/
theorem replaced_of_found {row : QueueRow} (hnew : env.DrawsNew s)
    (hactive : s.db.activeQueue = some row)
    (hqueues : s'.db.queues = s.db.queues)
    (hitems : s'.db.queueItems = (s.db.deleteItems row.id).queueItems ++
      QueueTables.numbered row.id (fun i => env.uuid (.item i)) 0 body.queue)
    (hupdated : s'.updatedAt = Function.update s.updatedAt row.id env.now) :
    s'.db = s.db ∧ s'.updatedAt = s.updatedAt ↔ body.queue = [] ∧ s.EmptyAt env.now := by
  constructor
  · rintro ⟨hdb, hsame⟩
    have hnil : body.queue = [] := by
      cases hqueue : body.queue with
      | nil => rfl
      | cons track rest =>
        refine absurd ?_ (hnew.item 0)
        rw [← hdb, hitems, hqueue]
        simp [QueueTables.numbered]
    rw [hnil] at hitems
    refine ⟨hnil, row, hactive, fun item hitem => ?_, ?_⟩
    · grind [QueueTables.numbered, QueueTables.deleteItems]
    · rw [← hsame, hupdated, Function.update_self]
  · rintro ⟨hnil, row', hrow', hempty, hnow⟩
    cases hactive.symm.trans hrow'
    refine ⟨?_, ?_⟩
    · refine tables_eq hqueues ?_
      rw [hitems, hnil]
      simpa [QueueTables.numbered, QueueTables.deleteItems] using hempty
    · rw [hupdated, ← hnow, Function.update_eq_self]

/-- The transaction behind the search: replaced, or the same exactly where the queue was there. -/
theorem replace_leaves {id : Uuid} {s₁ : SessionState} (hnew : env.DrawsNew s)
    (h : (∃ row, s.db.activeQueue = some row ∧ id = row.id ∧ s₁ = s) ∨
      s.db.activeQueue = none ∧ s₁.playbackSessions = s.playbackSessions ∧
        s₁.playbackEngine = s.playbackEngine ∧ s₁.db.queueItems = s.db.queueItems ∧
          s₁.db.queues = s.db.queues ++ [⟨id, activeQueueName, env.now⟩]) :
    Handler.Leaves (replaceQueue env id body.queue) s₁
      (fun _ s' => env.fault .commit = none ∧ Replaced env body.queue s s')
      fun _ s' => env.fault .commit ≠ none ∧ (s.Same s' ↔ s.db.activeQueue ≠ none) := by
  rcases h with ⟨row, hactive, rfl, rfl⟩ | ⟨hnone, hsessions, hengine, hitems, hqueues⟩
  · have hid := List.mem_map_of_mem (f := QueueRow.id) (QueueTables.activeQueue_mem hactive).1
    refine (replaceQueue_leaves hnew.items hnew.item hid).mono (fun _ s₂ h₂ => ?_) fun _ s₂ h₂ => ?_
    · obtain ⟨hcommit, hsessions, hengine, hqueues, hitems, hupdated⟩ := h₂
      exact ⟨hcommit, hsessions, hengine, replaced_of_found hnew hactive hqueues hitems hupdated⟩
    · rw [h₂.2]
      simp [h₂.1, hactive, SessionState.Same.mk]
  · have hlonger : s₁.db.queues ≠ s.db.queues := by simp [hqueues]
    refine (replaceQueue_leaves hnew.items (by rw [hitems]; exact hnew.item)
      (by simp [hqueues])).mono (fun _ s₂ h₂ => ?_) fun _ s₂ h₂ => ?_
    · obtain ⟨hcommit, hsessions', hengine', hqueues', -⟩ := h₂
      refine ⟨hcommit, hsessions'.trans hsessions, hengine'.trans hengine, ?_⟩
      refine iff_of_false (fun hsame => hlonger ?_) fun hempty => ?_
      · rw [← hqueues', hsame.1]
      · obtain ⟨-, row, hrow, -⟩ := hempty
        cases hnone.symm.trans hrow
    · rw [h₂.2]
      exact ⟨h₂.1, iff_of_false (fun hsame => hlonger (by rw [hsame.db])) fun h => h hnone⟩

theorem createSession_leaves {row : PlaybackSessionRow} {s₁ : SessionState}
    (hnew : row.id ∉ s₁.playbackSessions.map PlaybackSessionRow.id) :
    Handler.Leaves (createPlaybackSession env row) s₁
      (fun _ s' => env.fault .saveSession = none ∧ s'.playbackEngine = s₁.playbackEngine ∧
        s'.playbackSessions = s₁.playbackSessions ++ [row])
      fun _ s' => env.fault .saveSession ≠ none ∧ s' = s₁ := by
  unfold createPlaybackSession
  cases hfault : env.fault .saveSession with
  | some text => exact .update (fun _ h => nomatch h) fun _ _ => ⟨nofun, rfl⟩
  | none =>
    refine .update (fun _ _ => ?_) fun _ h => ?_
    · dsimp only
      rw [if_neg hnew]
      exact ⟨rfl, rfl, rfl⟩
    · dsimp only at h
      rw [if_neg hnew] at h
      cases h

/-- A request ends where all is settled, or fails and leaves all the same exactly there. -/
theorem handler_settled (hnew : env.DrawsNew s) :
    Handler.Leaves (playbackSessionHandler env body) s (fun _ _ => Settles env body s)
      fun _ s' => s.Same s' ↔ Settles env body s := by
  have hsame : s.Same s := ⟨rfl, rfl, rfl, rfl, rfl, rfl⟩
  refine .bind (.get (.bind (.ofExcept (fun found hfound => ?_) fun e he => ?_)))
  swap
  · simp [Settles, he, hsame]
  simp only [Settles, hfound]
  refine .bind ((activeQueueId_leaves hnew).mono (fun id s₁ h₁ => ?_) fun _ s₁ h₁ => ?_)
  swap
  · simp [h₁.1, h₁.2, hsame]
  obtain ⟨hactive, hqueue⟩ := h₁
  refine .bind ((replace_leaves hnew hqueue).mono (fun _ s₂ h₂ => ?_) fun _ s₂ h₂ => ?_)
  swap
  · simp [hactive, h₂.1, h₂.2]
  obtain ⟨hcommit, hreplaced⟩ := h₂
  simp only [hactive, hcommit, ne_eq, not_true_eq_false, false_and, false_or, true_and]
  -- from here on `Settles` says that all goes well, or that nothing was replaced
  refine .bind (.ofExcept (fun deviceId hdevice => ?_) fun e he => ?_)
  swap
  · have hfails : ¬ Storable env body := fun h => by
      obtain ⟨⟨id, hid⟩, -⟩ := h
      cases he.symm.trans hid
    simp [hreplaced.same, hfails]
  have hsession : (newSession env body found id deviceId).id ∉
      s₂.playbackSessions.map PlaybackSessionRow.id := by
    rw [hreplaced.playbackSessions]
    exact hnew.session
  refine .bind ((createSession_leaves hsession).mono (fun _ s₃ h₃ => ?_) fun _ s₃ h₃ => ?_)
  swap
  · have hfails : ¬ Storable env body := fun h => h₃.1 h.2
    rw [h₃.2]
    simp [hreplaced.same, hfails]
  obtain ⟨hsave, hengine, hsessions⟩ := h₃
  rw [hreplaced.playbackEngine] at hengine
  have hstorable : Storable env body := ⟨⟨deviceId, hdevice⟩, hsave⟩
  refine .bind (synchronizeEngine_leaves.mono (fun _ s₄ h₄ => ?_) fun _ s₄ h₄ => ?_)
  · rw [hengine] at h₄
    obtain ⟨⟨-, tracks, hserves⟩, haccepts⟩ := h₄
    refine .bind (sessionCommand_leaves (fun _ _ => .pure (.inl ⟨hstorable, haccepts⟩)) fun e _ he => ?_)
    cases (EngineTask.snapshot_of_running _ hserves.1).2.symm.trans he
  · rw [hengine] at h₄
    refine iff_of_false (fun h => ?_) fun h => ?_
    · have hlength := congrArg List.length h.playbackSessions
      rw [h₄.1, hsessions, hreplaced.playbackSessions] at hlength
      simp at hlength
    · grind

end

/-- A request that fails leaves everything as it was exactly where a check fails, or the search for the
queue, or nothing; or the transaction on a queue that is there; or where nothing was replaced. -/
theorem all_or_nothing_iff (env : SessionEnv) (body : PlaybackSessionBody) (s : SessionState)
    (hnew : env.DrawsNew s) : AllOrNothing env body s ↔ Settles env body s := by
  have h : Handler.Leaves (playbackSessionHandler env body) s _ _ := handler_settled hnew
  unfold Handler.Leaves at h
  cases hrun : (playbackSessionHandler env body).exec s with
  | mk outcome s' =>
    rw [hrun] at h
    cases outcome with
    | ok answer =>
      refine iff_of_true (fun e s₁ he => ?_) h
      cases hrun.symm.trans he
    | error e =>
      refine Iff.trans ⟨fun hall => hall e s' hrun, fun hsame e₁ s₁ he => ?_⟩ h
      cases hrun.symm.trans he
      exact hsame

def plainEnv : SessionEnv where
  now := 5
  uuid
    | .item i => 100 + i
    | .session => 2
    | _ => 3
  engine _ := { now := 0 }
  parseUuid _ := none

def oneItem : SessionState where
  db := {
    queues := [⟨1, activeQueueName, 0⟩]
    queueItems := [⟨9, 1, 7, 0⟩] }
  library := { tracks := fun id => .ok (some ⟨id, "/track", none⟩) }
  playbackEngine := { engine := .new {} 0 }

theorem oneItem_new : plainEnv.DrawsNew oneItem where
  items _ _ h := Nat.add_left_cancel h
  queue := by decide
  item i h := by
    have hid : 100 + i = 9 := List.mem_singleton.mp h
    omega
  session := by decide

def brokenEnv : SessionEnv where
  toRequestEnv := { plainEnv.toRequestEnv with
    fault := fun
      | .commit => some "disk I/O error"
      | _ => none }
  parseUuid := plainEnv.parseUuid

theorem SessionEnv.DrawsNew.broken (h : plainEnv.DrawsNew oneItem) : brokenEnv.DrawsNew oneItem where
  items := h.items
  queue := h.queue
  item := h.item
  session := h.session

def phoneBody : PlaybackSessionBody where
  queue := [8]
  deviceId := some "phone"

/-- The transaction fails, and the queue is there. -/
theorem all_or_nothing_one_item : AllOrNothing brokenEnv { queue := [8] } oneItem :=
  (all_or_nothing_iff brokenEnv { queue := [8] } oneItem oneItem_new.broken).mpr
    (Or.inr (Or.inl ⟨by decide, by decide⟩))

/-- The request is refused, and track 8 has taken the place of track 7. -/
theorem refused_session_replaces : ¬ AllOrNothing plainEnv phoneBody oneItem := by
  intro h
  have hsame := h (v1Error 400 "INVALID_DEVICE_ID" "device_id must be a valid UUID, got 'phone'") _ rfl
  have htracks := congrArg (fun db : QueueTables => db.queueItems.map QueueItem.trackId) hsame.db
  revert htracks
  decide

end MichiServer.Queue
