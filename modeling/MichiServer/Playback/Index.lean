import MichiServer.Playback.Answers
import MichiServer.Playback.Handle

/-!
# The index of the current track

A change of the track is announced with its id and its index in the queue, and a listener takes the two
to name one entry. They do when each announcement `Names` an entry of the queue. The engine announces
the tracks of its own queue rightly; what may fail is the current one, which a command may have put there
without the queue, and a new queue, which is searched for the id and not asked for the index.
-/

namespace MichiServer.Playback

open MichiServer.Logic

def Names (tracks : List Track) (id : Option Uuid) (index : ℕ) : Prop :=
  tracks[index]?.map Track.id = id

instance (tracks : List Track) (id : Option Uuid) (index : ℕ) : Decidable (Names tracks id index) :=
  inferInstanceAs (Decidable (_ = _))

namespace PlaybackEngine

/-- While there is a sink to start it on, the current track is the one at the engine's index. -/
def Aligned (e : PlaybackEngine) : Prop := e.sinks ≠ [] → Names e.queue e.trackId e.queueIndex

variable {env : EngineEnv} {e e' : PlaybackEngine}

theorem Aligned.covers (h : e.Aligned) : e.Covers (Names e.queue) where
  queued track index htrack := by
    show e.queue[index]?.map Track.id = _
    rw [htrack]
    rfl
  current hsinks track htrack := by
    have hnames := h hsinks
    rwa [trackId, htrack] at hnames

theorem aligned_startPlaybackInternal (env : EngineEnv) {track : Track} (positionMs : ℕ)
    (h : e.sinks ≠ [] → Names e.queue (some track.id) e.queueIndex) :
    (e.startPlaybackInternal env track positionMs).1.Aligned := by
  unfold startPlaybackInternal
  dsimp only
  split
  · rename_i hempty
    exact fun hsinks => absurd (List.isEmpty_iff.mp hempty) hsinks
  · rename_i hsome
    have hnames := h fun hnil => hsome (List.isEmpty_iff.mpr hnil)
    split
    · exact fun hsinks => absurd rfl hsinks
    · split
      · exact fun hsinks => absurd rfl hsinks
      · exact fun _ => hnames

theorem aligned_startOrFail (env : EngineEnv) {track : Track}
    (h : e.sinks ≠ [] → Names e.queue (some track.id) e.queueIndex) :
    (e.startOrFail env track).Aligned :=
  startOrFail_of (P := Aligned) (aligned_startPlaybackInternal env 0 h) fun _ _ h => h

def spot (e : PlaybackEngine) : List Track × ℕ × Option Track × List AudioSink :=
  (e.queue, e.queueIndex, e.currentTrack, e.sinks)

theorem Aligned.of_spot (h : e.Aligned) (heq : e'.spot = e.spot) : e'.Aligned := by
  grind [spot, Aligned, trackId]

theorem spot_cleanupPlayback (env : EngineEnv) (e : PlaybackEngine) :
    (e.cleanupPlayback env).1.spot = e.spot :=
  view_cleanupPlayback spot (fun _ _ => rfl) env e

theorem aligned_cleanup (env : EngineEnv) (e : PlaybackEngine) : (e.cleanup env).Aligned :=
  fun hsinks => absurd rfl hsinks

/-! ## Audio -/

theorem spot_advanceTimeline (now n : ℕ) (e : PlaybackEngine) :
    (e.advanceTimeline now n).spot = e.spot := by
  unfold advanceTimeline
  dsimp only
  split_ifs <;> rfl

theorem aligned_deliverChunk (env : EngineEnv) (n : ℕ) (h : e.Aligned) :
    (e.deliverChunk env n).Aligned := by
  by_cases hsinks : (e.fanOut env).survivingSinks = []
  · unfold deliverChunk
    dsimp only
    split
    · exact fun hsome => absurd rfl hsome
    · rename_i hsome
      exact absurd (List.isEmpty_iff.mpr hsinks) hsome
  · have hbefore : e.sinks ≠ [] := by
      grind [fanOut]
    have hafter : (e.afterFanOut env n).Aligned := by
      unfold afterFanOut
      dsimp only
      split <;> exact fun _ => h hbefore
    rw [deliverChunk_eq env n hsinks]
    split
    · exact hafter.of_spot (spot_advanceTimeline env.now n _)
    · exact hafter

theorem names_playOrderAt (pos : ℕ) :
    Returns (e.playOrderAt pos) fun r =>
      Names r.1.queue (some r.2.id) r.1.queueIndex := by
  refine (playOrderAt_track pos).mono fun r hr => ?_
  show r.1.queue[r.1.queueIndex]?.map Track.id = _
  rw [hr.2]
  rfl

theorem aligned_afterEof (env : EngineEnv) (h : e.Aligned) :
    Returns (e.afterEof env) fun e' => e'.Aligned := by
  have hat : ∀ (e₁ : PlaybackEngine) (pos : ℕ), Returns
      (e₁.playOrderAt pos >>= fun r => some (r.1.startOrFail env r.2)) fun e' => e'.Aligned :=
    fun e₁ pos => (names_playOrderAt pos).bind fun r hr =>
      .some (aligned_startOrFail env fun _ => hr)
  unfold afterEof
  cases e.repeatMode with
  | one =>
    dsimp only
    cases htrack : e.currentTrack with
    | none => exact .some h
    | some track =>
      exact .some (aligned_startOrFail env fun hsinks => h.covers.current hsinks track htrack)
  | all =>
    refine .ite (fun _ => .some h) fun _ => .ite (fun _ => .skip fun e₁ => ?_) fun _ => hat e _
    exact hat e₁ _
  | off => exact .ite (fun _ => hat e _) fun _ => .some h

theorem aligned_processAudioChunk (env : EngineEnv) (h : e.Aligned) :
    Returns (e.processAudioChunk env) fun e' => e'.Aligned := by
  unfold processAudioChunk
  split
  · exact .some h
  · split
    · have hended : Aligned ({ e with decoder := none }.emitEvent (.ended e.trackId)) := h
      exact aligned_afterEof env hended
    · exact .some (aligned_deliverChunk env _ h)
    · exact .some h

/-! ## Commands -/

theorem aligned_handlePlay (env : EngineEnv) {track : Track} (sinks : List AudioSink)
    (outputDesc : PlaybackOutputDescription) (positionMs : ℕ) (h : e.Aligned)
    (hnames : Names e.queue (some track.id) e.queueIndex) :
    (e.handlePlay env track sinks outputDesc positionMs).1.Aligned := by
  unfold handlePlay
  dsimp only
  split
  · exact h
  · have hspot := spot_cleanupPlayback env e.takeTimeline
    simp only [spot, Prod.mk.injEq] at hspot
    apply aligned_startPlaybackInternal
    intro _
    dsimp only
    rw [hspot.1, hspot.2.1]
    exact hnames

theorem aligned_handleLoadTrack (env : EngineEnv) {track : Track} (positionMs : ℕ)
    (hnames : Names e.queue (some track.id) e.queueIndex) :
    (e.handleLoadTrack env track positionMs).1.Aligned := by
  have hspot := spot_cleanupPlayback env e.takeTimeline
  simp only [spot, Prod.mk.injEq] at hspot
  intro _
  show Names (e.takeTimeline.cleanupPlayback env).1.queue (some track.id)
    (e.takeTimeline.cleanupPlayback env).1.queueIndex
  rw [hspot.1, hspot.2.1]
  exact hnames

theorem aligned_handleJumpToIndex (env : EngineEnv) (index : ℕ) (h : e.Aligned) :
    Returns (e.handleJumpToIndex env index) fun r => r.1.Aligned := by
  refine .ite (fun _ => .some h) fun _ => .knowing fun track htrack => ?_
  have hnames : Names e.queue (some track.id) index := h.covers.queued track index htrack
  refine .ite (fun _ => .some ?_) fun _ => .some fun _ => hnames
  exact aligned_startPlaybackInternal env 0 fun _ => hnames

theorem aligned_handlePause (env : EngineEnv) (h : e.Aligned) : (e.handlePause env).1.Aligned := by
  unfold handlePause
  dsimp only
  split <;> exact h

theorem aligned_handleResume (env : EngineEnv) (h : e.Aligned) :
    (e.handleResume env).1.Aligned := by
  unfold handleResume
  dsimp only
  split
  · exact h
  · split
    · split
      · rename_i track htrack
        apply aligned_startPlaybackInternal
        split <;> exact fun hsinks => h.covers.current hsinks track htrack
      · exact h
    · split
      · split
        · rename_i track htrack
          apply aligned_startPlaybackInternal
          exact fun hsinks => h.covers.current hsinks track htrack
        · exact h
      · exact h

theorem aligned_handleSeek (env : EngineEnv) (positionMs : ℕ) (h : e.Aligned) :
    (e.handleSeek env positionMs).1.Aligned := by
  unfold handleSeek
  dsimp only
  split
  · split
    · split <;> exact h
    · exact h
  · exact h

theorem aligned_moveTo (env : EngineEnv) {track : Track}
    (h : Names e.queue (some track.id) e.queueIndex) : (e.moveTo env track).1.Aligned := by
  unfold moveTo
  split
  · exact fun _ => h
  · exact aligned_startPlaybackInternal env 0 fun _ => h

theorem aligned_handleNext (env : EngineEnv) (h : e.Aligned) :
    Returns (e.handleNext env) fun r => r.1.Aligned := by
  refine .ite (fun _ => ?_) fun _ => .ite (fun _ => .skip fun e₁ => ?_) fun _ => .some ?_
  · exact (names_playOrderAt _).bind fun r hr => .some (aligned_moveTo env hr)
  · refine .skip fun index => .knowing fun track htrack => .some (aligned_moveTo env ?_)
    show e₁.queue[index]?.map Track.id = _
    rw [htrack]
    rfl
  · exact h.of_spot (spot_cleanupPlayback env e)

theorem aligned_restartCurrent (env : EngineEnv) (h : e.Aligned) :
    (e.restartCurrent env).1.Aligned := by
  unfold restartCurrent
  split
  · rename_i track htrack
    split
    · exact h
    · exact aligned_startPlaybackInternal env 0 fun hsinks => h.covers.current hsinks track htrack
  · exact h

theorem aligned_handlePrevious (env : EngineEnv) (h : e.Aligned) :
    Returns (e.handlePrevious env) fun r => r.1.Aligned := by
  refine .ite (fun _ => .some (aligned_restartCurrent env h)) fun _ => .ite (fun _ => ?_) fun _ =>
    .some (aligned_restartCurrent env h)
  exact (names_playOrderAt _).bind fun r hr => .some (aligned_moveTo env hr)

theorem aligned_handleSetVolume (env : EngineEnv) (volume : ℕ) (h : e.Aligned) :
    (e.handleSetVolume env volume).1.Aligned := by
  unfold handleSetVolume
  dsimp only
  split_ifs <;> exact h

theorem aligned_handleSetShuffle (env : EngineEnv) (shuffle : Bool) (h : e.Aligned) :
    Returns (e.handleSetShuffle env shuffle) fun r => r.1.Aligned := by
  refine (recomputePlayOrder_eq env.rng _).bind fun e₁ h₁ => .some ?_
  obtain ⟨order, pos, rfl⟩ := h₁
  exact h

theorem aligned_handleSetQueue (env : EngineEnv) (tracks : List Track) (currentIndex : ℕ)
    (currentTrackId : Option Uuid)
    (hnames : Names tracks ((e.queuedTrack tracks
      (min (resolvedIndex tracks currentIndex currentTrackId) (tracks.length - 1))).map Track.id)
      (min (resolvedIndex tracks currentIndex currentTrackId) (tracks.length - 1))) :
    Returns (e.handleSetQueue env tracks currentIndex currentTrackId) fun r => r.1.Aligned := by
  refine (recomputePlayOrder_eq env.rng _).bind fun e₁ h₁ => .some fun _ => ?_
  obtain ⟨order, pos, rfl⟩ := h₁
  unfold queuedTrack at hnames
  dsimp only
  split
  all_goals
    rename_i hvacant
    first
    | rw [if_pos hvacant] at hnames; exact hnames
    | rw [if_neg hvacant] at hnames; exact hnames

end PlaybackEngine

/-- The track that the command puts on the deck is the one at the index the engine has, or takes. -/
def EngineCommand.OnQueue (e : PlaybackEngine) : EngineCommand → Prop
  | .play track _ _ _ _ | .loadTrack track _ _ => Names e.queue (some track.id) e.queueIndex
  | .setQueue tracks currentIndex currentTrackId _ =>
    let index := min (PlaybackEngine.resolvedIndex tracks currentIndex currentTrackId)
      (tracks.length - 1)
    Names tracks ((e.queuedTrack tracks index).map Track.id) index
  | _ => True

namespace PlaybackEngine

variable {env : EngineEnv} {e e' : PlaybackEngine}

/-- A command on the engine's own queue keeps the index on the current track. -/
theorem aligned_handleCommand {cmd : EngineCommand} (h : e.Aligned) (hon : cmd.OnQueue e) :
    Returns (e.handleCommand env cmd) fun r => r.1.Aligned := by
  let begun : PlaybackEngine := { e with currentCommandOrigin := some cmd.origin }
  have hbegun : begun.Aligned := h
  have hinner : Returns (begun.handleCommandInner env cmd) fun r => r.1.Aligned := by
    cases cmd with
    | play track sinks outputDesc positionMs _ =>
      exact .some (aligned_handlePlay env sinks outputDesc positionMs hbegun hon)
    | loadTrack track positionMs _ => exact .some (aligned_handleLoadTrack env positionMs hon)
    | jumpToIndex index _ =>
      exact (aligned_handleJumpToIndex env index hbegun).map fun _ hr => hr
    | pause _ => exact .some (aligned_handlePause env hbegun)
    | resume _ => exact .some (aligned_handleResume env hbegun)
    | seek positionMs _ => exact .some (aligned_handleSeek env positionMs hbegun)
    | «next» _ => exact (aligned_handleNext env hbegun).map fun _ hr => hr
    | previous _ => exact (aligned_handlePrevious env hbegun).map fun _ hr => hr
    | stop _ =>
      have hspot := spot_cleanupPlayback env { begun with currentTimelineOrigin := .local }
      exact .some (hbegun.of_spot hspot)
    | setVolume volume _ => exact .some (aligned_handleSetVolume env volume hbegun)
    | setShuffle shuffle _ => exact (aligned_handleSetShuffle env shuffle hbegun).map fun _ hr => hr
    | setRepeat repeatMode _ => exact .some hbegun
    | setQueue tracks currentIndex currentTrackId _ =>
      have hset := aligned_handleSetQueue (e := begun) env tracks currentIndex currentTrackId hon
      exact hset.map fun _ hr => hr
    | getSnapshot => exact .some hbegun
    | shutdown => exact .some (aligned_cleanup env begun)
  exact hinner.bind fun r hr => .some hr

theorem announces_of_onQueue {cmd : EngineCommand} (h : e.Aligned) (hon : cmd.OnQueue e) :
    cmd.Announces (Names (cmd.queueAfter e.queue)) e := by
  cases cmd with
  | play _ _ _ _ _ => exact hon
  | loadTrack _ _ _ => exact hon
  | setQueue _ _ _ _ => exact hon
  | jumpToIndex _ _ => exact h.covers
  | resume _ => exact h.covers
  | «next» _ => exact h.covers
  | previous _ => exact h.covers
  | _ => trivial

end PlaybackEngine

namespace EngineTask

open PlaybackEngine

/-- The turn puts no track on the deck but the one at the engine's index. -/
def OnQueue (t : EngineTask) (input : EngineTurn) : Prop :=
  match input with
  | .recv _ cmd => cmd.OnQueue t.engine
  | .audio _ | .closed _ => True

variable {t t' : EngineTask} {input : EngineTurn}

theorem aligned_turn (h : t.engine.Aligned) (hon : t.OnQueue input) :
    Returns (t.turn input) fun t' => t'.engine.Aligned := by
  refine .ite (fun _ => .some h) fun _ => ?_
  cases input with
  | recv env cmd =>
    refine (aligned_handleCommand h hon).bind fun r hr => ?_
    exact .ite (fun _ => .some hr) fun _ => .some (aligned_cleanup env r.1)
  | closed env => exact .some (aligned_cleanup env t.engine)
  | audio env =>
    refine .ite (fun _ => ?_) fun _ => .some h
    exact (aligned_processAudioChunk env h).bind fun e he => .some he

end EngineTask

/-! ## Setting the queue -/

namespace PlaybackEngine

variable {env : EngineEnv} {e : PlaybackEngine} {tracks : List Track} {i : ℕ} {track : Track}

def FirstOf (tracks : List Track) (i : ℕ) (track : Track) : Prop :=
  ∀ earlier ∈ tracks.take i, earlier.id ≠ track.id

instance : Decidable (FirstOf tracks i track) := List.decidableBAll _ _

/-- The index is kept exactly where it is the first place of its track. -/
theorem resolvedIndex_eq_iff (htrack : tracks[i]? = some track) :
    min (resolvedIndex tracks i (some track.id)) (tracks.length - 1) = i ↔ FirstOf tracks i track := by
  obtain ⟨hlt, heq⟩ := List.getElem?_eq_some_iff.mp htrack
  obtain ⟨j, hj⟩ : ∃ j, tracks.findIdx? (fun t => t.id = track.id) = some j := by
    rw [← Option.isSome_iff_exists, List.findIdx?_isSome, List.any_eq_true]
    exact ⟨track, List.mem_of_getElem? htrack, by simp⟩
  obtain ⟨hjlt, hid, hbefore⟩ := List.findIdx?_eq_some_iff_getElem.mp hj
  have hmin : min (resolvedIndex tracks i (some track.id)) (tracks.length - 1) = j := by
    simp only [resolvedIndex, hj, Option.getD_some]
    omega
  rw [hmin]
  constructor
  · rintro rfl earlier hmem hsame
    obtain ⟨k, hk, rfl⟩ := List.mem_take_iff_getElem.mp hmem
    exact hbefore k (by omega) (decide_eq_true hsame)
  · intro hfirst
    by_contra hne
    rcases Nat.lt_or_gt_of_ne hne with hless | hmore
    · exact hfirst tracks[j] (List.mem_take_iff_getElem.mpr ⟨j, by omega, rfl⟩) (of_decide_eq_true hid)
    · exact hbefore i hmore (by rw [heq]; exact decide_eq_true rfl)

/-- What a new queue leaves. -/
theorem handleSetQueue_leaves (currentIndex : ℕ) (currentTrackId : Option Uuid) :
    let index := min (resolvedIndex tracks currentIndex currentTrackId) (tracks.length - 1)
    Returns (e.handleSetQueue env tracks currentIndex currentTrackId) fun r =>
      r.1.place = (tracks, index) ∧
      r.1.events = e.events ++ [⟨.queueChanged tracks.length, e.origin⟩,
        ⟨.trackChanged ((e.queuedTrack tracks index).map Track.id) index, e.origin⟩] ∧
      (r.1.shuffle = false → tracks ≠ [] → r.1.playOrder = List.range tracks.length ∧
        r.1.playOrderPos = index) := by
  intro index
  refine Returns.bind (P := fun e₁ => (∃ order pos, e₁ = { e with
      queue := tracks, queueIndex := index, playOrder := order, playOrderPos := pos }) ∧
    (e.shuffle = false → tracks ≠ [] →
      e₁.playOrder = List.range tracks.length ∧ e₁.playOrderPos = index)) ?_ ?_
  · intro e₁ he₁
    refine ⟨recomputePlayOrder_eq env.rng _ e₁ he₁, fun hshuffle hne => ?_⟩
    grind [recomputePlayOrder]
  · rintro e₁ ⟨⟨order, pos, rfl⟩, hnatural⟩
    refine .some ?_
    dsimp only
    unfold queuedTrack
    split
    · refine ⟨rfl, ?_, hnatural⟩
      simp [emitEvent, origin, trackId]
    · refine ⟨rfl, ?_, hnatural⟩
      simp [emitEvent, origin, trackId]

theorem handleNext_natural {next : Track} (hqueue : e.queue = tracks)
    (horder : e.playOrder = List.range tracks.length) (hpos : e.playOrderPos = i)
    (hnext : tracks[i + 1]? = some next) :
    ∃ r, e.handleNext env = some r ∧ r.1.queueIndex = i + 1 ∧
      (r.2 = .ok () → r.1.currentTrack = some next) := by
  subst hqueue hpos
  obtain ⟨hlt, -⟩ := List.getElem?_eq_some_iff.mp hnext
  have hmore : ¬ e.queue.isEmpty = true ∧ e.playOrderPos + 1 < e.playOrder.length := by
    grind
  have hindex : e.playOrder[e.playOrderPos + 1]? = some (e.playOrderPos + 1) := by
    rw [horder, List.getElem?_range hlt]
  let moved : PlaybackEngine := { e with
    playOrderPos := e.playOrderPos + 1, queueIndex := e.playOrderPos + 1 }
  refine ⟨moved.moveTo env next, ?_, ?_, fun hok => (moveTo_at hok).1⟩
  · grind [handleNext, playOrderAt]
  · exact congrArg (fun s => s.2.index) (standing_moveTo env moved next)

/-- **The index is kept**: the engine is at it, what it announces names entries of the new queue, and
without shuffle the next track is the one after it. -/
structure TakesIndex (tracks : List Track) (i : ℕ) (sent : List EngineEvent) (e' : PlaybackEngine) :
    Prop where
  index : e'.queueIndex = i
  announced : ∀ id index, .trackChanged id index ∈ sent → Names tracks id index
  next : e'.shuffle = false → ∀ next, tracks[i + 1]? = some next → ∀ env origin,
    ∃ e'' answer, e'.handleCommand env (.next origin) = some (e'', .done answer, true) ∧
      e''.queueIndex = i + 1 ∧ (answer = .ok () → e''.currentTrack = some next)

/-- The index that is given is taken exactly where it is the first place of its track. -/
theorem takesIndex_setQueue (env : EngineEnv) (e : PlaybackEngine) (origin : CommandOrigin)
    (htrack : tracks[i]? = some track) :
    ∃ e' sent, e.handleCommand env (.setQueue tracks i (some track.id) origin) =
        some (e', .done (.ok ()), true) ∧ e'.queue = tracks ∧
      e'.events = e.events ++ sent.map (⟨·, origin⟩) ∧
      (TakesIndex tracks i sent e' ↔
        FirstOf tracks i track ∧ (e.queuedTrack tracks i).map Track.id = some track.id) := by
  let begun : PlaybackEngine := { e with currentCommandOrigin := some origin }
  obtain ⟨r, hr, -, hok⟩ := @handleSetQueue_spec env begun tracks i (some track.id)
  obtain ⟨hplace, hevents, hnatural⟩ := handleSetQueue_leaves i (some track.id) r hr
  have hfirst := resolvedIndex_eq_iff htrack
  generalize min (resolvedIndex tracks i (some track.id)) (tracks.length - 1) = index at *
  obtain ⟨hqueue, hindex⟩ := Prod.mk.inj hplace
  refine ⟨{ r.1 with currentCommandOrigin := none }, [.queueChanged tracks.length,
    .trackChanged ((e.queuedTrack tracks index).map Track.id) index], ?_, hqueue, hevents, ?_⟩
  · show (begun.handleSetQueue env tracks i (some track.id)).map respond >>= _ = _
    rw [hr]
    simp [respond, hok]
  · constructor
    · intro h
      have hsame : index = i := hindex.symm.trans h.index
      have hannounced := h.announced _ index (List.mem_cons_of_mem _ List.mem_cons_self)
      grind [Names]
    · rintro ⟨hfirst', hqueued⟩
      obtain rfl : index = i := hfirst.mpr hfirst'
      refine ⟨hindex, ?_, ?_⟩
      · grind [EngineEvent.trackChanged.injEq, Names]
      · intro hshuffle next hnext env' origin'
        have hne : tracks ≠ [] := fun hnil => by simp [hnil] at htrack
        obtain ⟨horder, hpos⟩ := hnatural hshuffle hne
        obtain ⟨r', hr', hindex', htrack'⟩ := @handleNext_natural env'
          { r.1 with currentCommandOrigin := some origin' } _ _ _ hqueue horder hpos hnext
        refine ⟨{ r'.1 with currentCommandOrigin := none }, r'.2, ?_, hindex', htrack'⟩
        show (handleNext env' { r.1 with currentCommandOrigin := some origin' }).map respond >>= _ = _
        rw [hr']
        rfl

end PlaybackEngine

namespace EngineTask

open PlaybackEngine

variable {t : EngineTask} {input : EngineTurn}

structure Announcing (t : EngineTask) : Prop where
  queue : t.engine.QueueInv
  command : t.engine.currentCommandOrigin = none
  aligned : t.engine.Aligned

/-- The changes of the track that a turn announces name entries of the queue it leaves. -/
def AnnouncesRightly (t t' : EngineTask) : Prop :=
  ∃ (sent : List EngineEvent) (origin : CommandOrigin),
    t'.engine.events = t.engine.events ++ sent.map (⟨·, origin⟩) ∧
    ∀ id index, .trackChanged id index ∈ sent → Names t'.engine.queue id index

theorem announcing_turn (h : t.Announcing) (hon : t.OnQueue input) :
    Succeeds (t.turn input) fun t' => t'.Announcing ∧ t.AnnouncesRightly t' := by
  by_cases hrunning : t.running = true
  · obtain ⟨t', hturn, ⟨hqueue, hinv⟩, -⟩ := turn_holds hrunning ⟨rfl, h.queue⟩ input
    have hannounces : input.Announces (Names (input.queueAfter t.engine.queue)) t.engine := by
      cases input with
      | recv env cmd => exact announces_of_onQueue h.aligned hon
      | audio env => exact h.aligned.covers
      | closed env => trivial
    have htold := told_turn hrunning h.command hannounces t' hturn
    refine ⟨t', hturn, ⟨hinv, htold.command, aligned_turn h.aligned hon t' hturn⟩, ?_⟩
    obtain ⟨sent, hsent, hnames⟩ := htold.events
    exact ⟨sent, _, hsent, hqueue ▸ hnames⟩
  · refine .ite (fun _ => .some ⟨h, [], .local, ?_, nofun⟩) fun h' => absurd hrunning h'
    rw [List.map_nil, List.append_nil]

theorem run_announces (later : List EngineTurn) (h : t.Announcing)
    (hon : Along turn OnQueue t (later ++ [input])) :
    ∃ t₁ t₂, run t later = some t₁ ∧ t₁.turn input = some t₂ ∧ t₁.AnnouncesRightly t₂ := by
  induction later generalizing t with
  | nil =>
    obtain ⟨t₂, hturn, -, hrightly⟩ := announcing_turn h hon.1
    exact ⟨t, t₂, rfl, hturn, hrightly⟩
  | cons first later ih =>
    obtain ⟨t', hturn, h', -⟩ := announcing_turn h hon.1
    obtain ⟨t₁, t₂, hrun, hlast, hrightly⟩ := ih h' (hon.2 t' hturn)
    grind [run]

/-- **A queue keeps its index.** From every reachable state, setting the queue with an index in range and
the id of the track there keeps the index exactly when no track before it has that id, and the current
track, if there is one or something plays, has it. Then every change of the track that is announced later
names an entry of the queue, as long as the turns put no track on the deck but the one at the index. -/
theorem set_queue_keeps_index {format : PcmFormat} {now : ℕ} {before : List EngineTurn}
    (hrun : run (start format now) before = some t) {tracks : List Track} {i : ℕ} {track : Track}
    (htrack : tracks[i]? = some track) (env : EngineEnv) (origin : CommandOrigin) :
    ∃ e' sent, t.engine.handleCommand env (.setQueue tracks i (some track.id) origin) =
        some (e', .done (.ok ()), true) ∧
      e'.events = t.engine.events ++ sent.map (⟨·, origin⟩) ∧
      (TakesIndex tracks i sent e' ↔
        FirstOf tracks i track ∧ (t.engine.queuedTrack tracks i).map Track.id = some track.id) ∧
      (TakesIndex tracks i sent e' → ∀ later input,
        Along turn OnQueue { engine := e' } (later ++ [input]) →
        ∃ t₁ t₂, run { engine := e' } later = some t₁ ∧ t₁.turn input = some t₂ ∧
          t₁.AnnouncesRightly t₂) := by
  obtain ⟨t', hrun', hqueue, hcommand, -⟩ :=
    run_origins (t := start format now) before (queueInv_of_empty rfl rfl) rfl
  obtain rfl : t' = t := Option.some.inj (hrun'.symm.trans hrun)
  obtain ⟨e', sent, hhandled, -, hevents, hiff⟩ := takesIndex_setQueue env t'.engine origin htrack
  refine ⟨e', sent, hhandled, hevents, hiff, fun htakes later input hon => ?_⟩
  obtain ⟨hfirst, hqueued⟩ := hiff.mp htakes
  have hnames : EngineCommand.OnQueue t'.engine (.setQueue tracks i (some track.id) origin) := by
    show Names tracks ((t'.engine.queuedTrack tracks _).map Track.id) _
    rw [(resolvedIndex_eq_iff htrack).mpr hfirst, hqueued, Names, htrack]
    rfl
  have hinv := turn_queueInv (t := { engine := t'.engine }) hqueue
    (.recv env (.setQueue tracks i (some track.id) origin))
  have hset := aligned_handleSetQueue (e := { t'.engine with currentCommandOrigin := some origin })
    env tracks i (some track.id) hnames
  have haligned : Returns (t'.engine.handleCommand env (.setQueue tracks i (some track.id) origin))
      fun r => r.1.Aligned :=
    .bind (P := fun r => r.1.Aligned) (hset.map fun _ hr => hr) fun r hr => .some hr
  obtain ⟨t₂, hturn, hinv'⟩ := hinv
  have ht₂ : t₂ = { engine := e' } := by
    grind [turn]
  subst ht₂
  have htold := told_handleCommand (P := fun _ _ => True) (e := t'.engine) env
    (show EngineCommand.Announces _ _ (.setQueue tracks i (some track.id) origin) from trivial) _
    hhandled
  exact run_announces later ⟨hinv', htold.command, haligned _ hhandled⟩ hon

def tracksOf (ids : List Uuid) : List Track := ids.map fun id => ⟨id, "/music/" ++ toString id, none⟩

/-- Three tracks are queued on an empty deck, from the second; then the listener asks for the next. -/
theorem set_queue_keeps_index_second :
    ∃ e' t₁ t₂, PlaybackEngine.handleCommand { now := 1 }
        (.setQueue (tracksOf [1, 2, 3]) 1 (some 2) .local) (start {} 0).engine =
          some (e', .done (.ok ()), true) ∧
      e'.queueIndex = 1 ∧ run { engine := e' } [.recv { now := 2 } (.next .local)] = some t₁ ∧
      t₁.turn (.recv { now := 3 } (.previous .local)) = some t₂ ∧ t₁.AnnouncesRightly t₂ := by
  obtain ⟨e', sent, hhandled, -, hiff, hlater⟩ := @set_queue_keeps_index (start {} 0) {} 0 [] rfl
    (tracksOf [1, 2, 3]) 1 _ rfl { now := 1 } .local
  have htakes := hiff.mpr (by decide +kernel)
  have hon : ∀ first second : CommandOrigin, Along turn OnQueue { engine := e' }
      ([.recv { now := 2 } (.next first)] ++ [.recv { now := 3 } (.previous second)]) :=
    fun _ _ => ⟨trivial, fun _ _ => ⟨trivial, fun _ _ => trivial⟩⟩
  obtain ⟨t₁, t₂, hrun, hturn, hrightly⟩ := hlater htakes _ _ (hon .local .local)
  exact ⟨e', t₁, t₂, hhandled, htakes.index, hrun, hturn, hrightly⟩

/-- A queue with its first track again at its third place is started from there: the engine is at the
first place, and the next track is the second. -/
theorem set_queue_goes_to_first_of_two :
    (PlaybackEngine.handleCommand { now := 1 }
        (.setQueue (tracksOf [1, 2, 1, 3]) 2 (some 1) .local) (start {} 0).engine).any fun r =>
      r.1.queueIndex = 0 ∧
        (r.1.handleCommand { now := 2 } (.next .local)).any fun r' =>
          r'.1.queueIndex = 1 ∧ r'.1.trackId = some 2 := by
  decide +kernel

end EngineTask

end MichiServer.Playback
