import MichiServer.Playback.Deck
import MichiServer.Queue.RestoreAlike
import MichiServer.Queue.Runs

/-!
# Where a transferred queue lands

A transfer hands the server a queue, the index of its current track and a position in it. The handler
pushes the queue to the engine and, unless the position is zero, seeks to it; neither command starts a
track. A new queue names the current track only where there is none and nothing plays, so on an engine
that has one the transfer leaves the engine on its own track, and moves the position of that.
-/

namespace MichiServer.Queue

open MichiServer.Logic MichiServer.Logic.Handler MichiServer.Playback

variable {env : RequestEnv} {s : AppState} {body : QueueTransferBody}

/-- The engine is on the track that was handed over, at the position that was, as the clock stands. -/
def QueueTransferBody.Landed (body : QueueTransferBody) (now : ℕ) (e : PlaybackEngine) : Prop :=
  e.trackId = body.trackIds[body.currentIndex]? ∧
    e.calculateCurrentPositionMs now = body.positionMs

/-- What the engine must be for the transfer to land: on the handed-over track already, or on none and
not playing; and where a seek is left out, at the start; where it does not stop the clock, with no time
on it. -/
def QueueTransferBody.Lands (body : QueueTransferBody) (now : ℕ) (e : PlaybackEngine) : Prop :=
  (e.trackId = body.trackIds[body.currentIndex]? ∨
      e.currentTrack = none ∧ e.state.isPlaying = false) ∧
    if body.positionMs = 0 then e.calculateCurrentPositionMs now = 0
    else
      e.state.isPlaying = true ∨
        ∀ started ∈ e.playingStartedAt, elapsedMs now started % 2 ^ 64 = 0

namespace AppState

def SameEngine (s s' : AppState) : Prop :=
  s'.playbackEngine = s.playbackEngine ∧ s'.library = s.library

end AppState

theorem transact_same_engine {α : Type} {call : DbCall}
    {f : QueueTables → Except ApiError (QueueTables × α)} :
    Leaves (transact env call f) s (fun _ s' => s.SameEngine s') fun _ _ => True :=
  transact_leaves (fun _ => trivial) fun _ _ _ => ⟨rfl, rfl⟩

theorem saveQueueState_same_engine {name : String} {trackIds : List Uuid} :
    Leaves (saveQueueState env name trackIds) s (fun _ s' => s.SameEngine s') fun _ _ => True := by
  refine .bind (transact_leaves (fun _ => trivial) fun db u _ => .bind (.modify ?_))
  exact transact_leaves (fun _ => trivial) fun _ _ _ => ⟨rfl, rfl⟩

/-! ## The two commands -/

variable {t : EngineTask}

variable {eenv : EngineEnv} {tracks : List Track}

theorem deck_of_setQueue {currentIndex : ℕ}
    {current : Option Uuid} (h : (t.setQueue eenv tracks currentIndex current).2 = .ok ()) :
    (t.setQueue eenv tracks currentIndex current).1.engine.deck = { t.engine.deck with
      currentTrack := t.engine.queuedTrack tracks
        (min (PlaybackEngine.resolvedIndex tracks currentIndex current) (tracks.length - 1)) } := by
  refine EngineTask.call_ok eenv (P := fun e => e.deck = { t.engine.deck with
      currentTrack := t.engine.queuedTrack tracks
        (min (PlaybackEngine.resolvedIndex tracks currentIndex current) (tracks.length - 1)) }) ?_ h
  refine Returns.bind ((PlaybackEngine.deck_handleSetQueue eenv _ tracks currentIndex
    current).map fun r hr => ?_) fun r hr => .some hr
  exact ⟨rfl, fun _ => hr⟩

/-- What a seek that succeeds does to an engine: the target is the base position, and where audio flows
the clock has stopped. -/
structure Sought (positionMs : ℕ) (e e' : PlaybackEngine) : Prop where
  currentTrack : e'.currentTrack = e.currentTrack
  flowing : e.state.isPlaying = true → e.currentTrack ≠ none →
    e'.basePositionMs = positionMs ∧ e'.playingStartedAt = none
  silent : e.state.isPlaying = false →
    e'.basePositionMs = positionMs ∧ e'.playingStartedAt = e.playingStartedAt

theorem sought_of_handleSeek {e : PlaybackEngine} {positionMs : ℕ}
    (h : (e.handleSeek eenv positionMs).2 = .ok ()) :
    Sought positionMs e (e.handleSeek eenv positionMs).1 := by
  revert h
  unfold PlaybackEngine.handleSeek
  dsimp only
  split
  · rename_i hplaying
    split
    · split
      · exact fun _ => ⟨rfl, fun _ _ => ⟨rfl, rfl⟩,
          fun hsilent => absurd (hsilent.symm.trans hplaying) Bool.false_ne_true⟩
      · exact nofun
    · rename_i hnone
      exact fun _ => ⟨rfl, fun _ hsome => absurd hnone hsome,
        fun hsilent => absurd (hsilent.symm.trans hplaying) Bool.false_ne_true⟩
  · rename_i hsilent
    exact fun _ => ⟨rfl, fun hplaying => absurd hplaying hsilent, fun _ => ⟨rfl, rfl⟩⟩

theorem sought_of_seek {positionMs : ℕ} (h : (t.seek eenv positionMs).2 = .ok ()) :
    Sought positionMs t.engine (t.seek eenv positionMs).1.engine := by
  refine EngineTask.call_ok eenv (P := fun e => Sought positionMs t.engine e) ?_ h
  refine Returns.bind (.some ?_) fun r hr => .some hr
  refine ⟨rfl, fun hok => ?_⟩
  obtain ⟨htrack, hflowing, hsilent⟩ := sought_of_handleSeek (e := { t.engine with
    currentCommandOrigin := some .local }) (EngineResponse.done.inj hok)
  exact ⟨htrack, hflowing, hsilent⟩

/-! ## The landing -/

theorem trackId_of_queued {e e₁ : PlaybackEngine} {id : Uuid}
    (currentIndex : ℕ) (hid : id ∈ tracks.map Track.id)
    (h : e₁.currentTrack = e.queuedTrack tracks
      (min (PlaybackEngine.resolvedIndex tracks currentIndex (some id)) (tracks.length - 1))) :
    e₁.trackId = some id ↔
      e.trackId = some id ∨ e.currentTrack = none ∧ e.state.isPlaying = false := by
  unfold PlaybackEngine.trackId
  rw [h]
  unfold PlaybackEngine.queuedTrack
  split
  next hvacant =>
    have hnone : e.currentTrack = none := Option.isNone_iff_eq_none.mp hvacant.2
    rw [← List.getElem?_map, PlaybackEngine.getElem?_resolvedIndex currentIndex hid]
    grind
  grind

theorem position_of_sought {e e' : PlaybackEngine} {positionMs now : ℕ}
    (hposition : positionMs < 2 ^ 64) (h : Sought positionMs e e') (htrack : e.currentTrack ≠ none) :
    e'.calculateCurrentPositionMs now = positionMs ↔
      e.state.isPlaying = true ∨
        ∀ started ∈ e.playingStartedAt, elapsedMs now started % 2 ^ 64 = 0 := by
  unfold PlaybackEngine.calculateCurrentPositionMs
  cases hplaying : e.state.isPlaying with
  | true =>
    obtain ⟨hbase, hclock⟩ := h.flowing hplaying htrack
    simp [hbase, hclock]
  | false =>
    obtain ⟨hbase, hclock⟩ := h.silent hplaying
    rw [hbase, hclock]
    cases e.playingStartedAt with
    | none => simp
    | some started =>
      simp
      omega

/-- The engine has landed exactly where the first place of the track is the one that was sent. -/
theorem landed_iff {e e₁ e' : PlaybackEngine} {now : ℕ}
    (hindex : body.currentIndex < body.trackIds.length) (htracks : tracks.map Track.id = body.trackIds)
    (hqueue : e₁.deck = { e.deck with
      currentTrack := e.queuedTrack tracks
        (min (PlaybackEngine.resolvedIndex tracks body.currentIndex
          body.trackIds[body.currentIndex]?) (tracks.length - 1)) })
    (hseek : if body.positionMs > 0 then Sought body.positionMs e₁ e' else e' = e₁) :
    body.Landed now e' ↔ body.Lands now e := by
  obtain ⟨id, hid⟩ : ∃ id, body.trackIds[body.currentIndex]? = some id :=
    ⟨_, List.getElem?_eq_getElem hindex⟩
  have hmem : id ∈ tracks.map Track.id := htracks ▸ List.mem_of_getElem? hid
  have hcurrent := congrArg Deck.currentTrack hqueue
  have hstate : e₁.state = e.state := congrArg Deck.state hqueue
  have hbase : e₁.basePositionMs = e.basePositionMs := congrArg Deck.basePositionMs hqueue
  have hclock : e₁.playingStartedAt = e.playingStartedAt :=
    congrArg Deck.playingStartedAt hqueue
  rw [hid] at hcurrent
  have htrack := trackId_of_queued body.currentIndex hmem hcurrent
  unfold QueueTransferBody.Landed QueueTransferBody.Lands
  rw [hid]
  by_cases hposition : body.positionMs = 0
  · grind [PlaybackEngine.calculateCurrentPositionMs]
  · rw [if_pos (by omega)] at hseek
    rw [if_neg hposition]
    have hsame : e'.trackId = e₁.trackId := congrArg (Option.map Track.id) hseek.currentTrack
    rw [hsame, ← htrack]
    refine and_congr_right fun hsome => ?_
    have hne : e₁.currentTrack ≠ none := fun hnone => by
      rw [PlaybackEngine.trackId, hnone] at hsome
      cases hsome
    rw [position_of_sought body.position_ms_lt hseek hne, hstate, hclock]

/-! ## The handler -/

theorem command_leaves_of_ok {α : Type} {f : EngineTask → EngineTask × Except PlaybackError α}
    {onError : PlaybackError → ApiError} {P : α → AppState → Prop}
    (hok : ∀ a, (f s.playbackEngine).2 = .ok a →
      P a { s with playbackEngine := (f s.playbackEngine).1 }) :
    Leaves (command f onError) s P fun _ _ => True :=
  .update (fun a ha => hok a (mapError_eq_ok_iff.mp ha)) fun _ _ => trivial

/-- A transfer that succeeds has landed exactly where it could. -/
theorem transfer_lands (hkeyed : Keyed s.library) (now : ℕ) :
    Leaves (queueTransferHandler env body) s
      (fun _ s' => body.Landed now s'.playbackEngine.engine ↔
        body.Lands now s.playbackEngine.engine)
      fun _ _ => True := by
  refine .bind (playbackEnabled_leaves (fun _ => trivial) ?_)
  refine .bind (.rejectIf (fun _ => trivial) fun _ => ?_)
  refine .bind (.rejectIf (fun _ => trivial) fun hindex => ?_)
  refine .bind (.get (.bind (.ofExcept (fun tracks hload => ?_) fun _ _ => trivial)))
  have htracks : tracks.map Track.id = body.trackIds :=
    idsOf_loadAll hkeyed (mapError_eq_ok_iff.mp hload)
  refine .bind (transact_same_engine.mono (fun q s₁ h₁ => ?_) fun _ _ _ => trivial)
  refine .bind (transact_same_engine.mono (fun _ s₂ h₂ => ?_) fun _ _ _ => trivial)
  refine .bind (saveQueueState_same_engine.mono (fun session s₃ h₃ => ?_) fun _ _ _ => trivial)
  have hengine : s₃.playbackEngine = s.playbackEngine := h₃.1.trans (h₂.1.trans h₁.1)
  refine .bind (command_leaves_of_ok fun _ hset => ?_)
  have hqueue := deck_of_setQueue hset
  rw [hengine] at hqueue ⊢
  have hlanded : ∀ e' : PlaybackEngine, _ →
      (body.Landed now e' ↔ body.Lands now s.playbackEngine.engine) :=
    fun _ => landed_iff (not_le.mp hindex) htracks hqueue
  refine .bind (.ite (fun hpositive => ?_) fun hzero => ?_)
  · refine command_leaves_of_ok fun _ hseek => .bind (.modify (.pure (hlanded _ ?_)))
    rw [if_pos hpositive]
    exact sought_of_seek hseek
  · refine .pure (.bind (.modify (.pure (hlanded _ ?_))))
    rw [if_neg hzero]

/-- **A transfer that is answered with success has brought the engine to the track and the position it
was asked for exactly where `Lands` says**, whatever the engine was doing. -/
theorem transfer_landed_iff (hkeyed : Keyed s.library) {response : QueueResponse} {s' : AppState}
    (h : (queueTransferHandler env body).exec s = (.ok response, s')) (now : ℕ) :
    body.Landed now s'.playbackEngine.engine ↔ body.Lands now s.playbackEngine.engine := by
  have hleaves : Leaves (queueTransferHandler env body) s _ _ := transfer_lands hkeyed now
  unfold Leaves at hleaves
  rw [h] at hleaves
  exact hleaves

theorem keyed_sampleLibrary : Keyed sampleLibrary := by
  intro id track h
  grind [sampleLibrary]

def phoneQueue : QueueTransferBody := ⟨[1, 2], 1, 30000, "phone", by decide⟩

set_option maxRecDepth 20000 in
/-- An engine that has no track yet takes the phone's. -/
theorem transfer_landed_iff_fresh :
    phoneQueue.Landed 0 ((queueTransferHandler (sampleEnv 1) phoneQueue).exec
      (AppState.fresh sampleLibrary 0)).2.playbackEngine.engine := by
  have hok : (queueTransferHandler (sampleEnv 1) phoneQueue).exec (AppState.fresh sampleLibrary 0) =
      (.ok (.accepted 1000 1002 1 30000), ((queueTransferHandler (sampleEnv 1) phoneQueue).exec
        (AppState.fresh sampleLibrary 0)).2) := Prod.ext (by decide) rfl
  refine (transfer_landed_iff keyed_sampleLibrary hok 0).mpr ⟨.inr ⟨rfl, rfl⟩, ?_⟩
  exact .inr nofun

def pausedElsewhere : AppState :=
  (AppState.fresh sampleLibrary 0).step
    (.engine (.recv { now := 0 } (.loadTrack { id := 9, filePath := "track.flac" } 0 .local)))

set_option maxRecDepth 20000 in
/-- The transfer is answered with success, and the engine stays on its own track, half a minute into
that. -/
theorem transferred_track_is_not_current :
    ((queueTransferHandler (sampleEnv 1) phoneQueue).exec pausedElsewhere).1 =
        .ok (.accepted 1000 1002 1 30000) ∧
      ((queueTransferHandler (sampleEnv 1) phoneQueue).exec
        pausedElsewhere).2.playbackEngine.engine.trackId = some 9 ∧
      ((queueTransferHandler (sampleEnv 1) phoneQueue).exec
        pausedElsewhere).2.playbackEngine.engine.basePositionMs = 30000 ∧
      ¬ phoneQueue.Landed 0 ((queueTransferHandler (sampleEnv 1) phoneQueue).exec
        pausedElsewhere).2.playbackEngine.engine := by
  have htrack : ((queueTransferHandler (sampleEnv 1) phoneQueue).exec
      pausedElsewhere).2.playbackEngine.engine.trackId = some 9 := by decide
  refine ⟨by decide, htrack, by decide, fun hlanded => ?_⟩
  rw [QueueTransferBody.Landed, htrack] at hlanded
  exact absurd hlanded.1 (by decide)

end MichiServer.Queue
