import MichiServer.Playback.DeckRuns

/-!
# Shuffling

With shuffle and repeat on, the end of a track takes the engine to the next place of its play order or,
after the last one, to the front of an order drawn anew, whose first track is exchanged when it is the
one that has just ended. In the terms of a cursor this is a move forward, so a run of the engine walks
through cycles. Whatever does not touch the queue leaves it where it is: `programme` is the part of the
engine that says so.
-/

namespace MichiServer.Playback

open MichiServer.Order MichiServer.Logic

/-- The command leaves the queue, the place in it, and the way through it as they are. -/
def EngineCommand.keepsProgramme : EngineCommand → Bool
  | .jumpToIndex .. | .next _ | .previous _ | .setShuffle .. | .setRepeat .. | .setQueue .. => false
  | _ => true

namespace PlaybackEngine

variable {env : EngineEnv} {e : PlaybackEngine}

theorem programme_handleCommand {cmd : EngineCommand} (hkeeps : cmd.keepsProgramme = true) :
    Returns (e.handleCommand env cmd) fun r => r.1.programme = e.programme := by
  let begun : PlaybackEngine := { e with currentCommandOrigin := some cmd.origin }
  have hinner : Returns (begun.handleCommandInner env cmd) fun r =>
      r.1.programme = begun.programme := by
    cases cmd with
    | play track sinks outputDesc positionMs _ =>
      exact .some (programme_handlePlay env begun track sinks outputDesc positionMs)
    | loadTrack track positionMs _ =>
      exact .some (programme_cleanupPlayback env begun.takeTimeline)
    | pause _ => exact .some (programme_handlePause env begun)
    | resume _ => exact .some (programme_handleResume env begun)
    | seek positionMs _ => exact .some (programme_handleSeek env begun positionMs)
    | stop _ => exact .some (programme_handleStop env begun)
    | setVolume volume _ => exact .some (programme_handleSetVolume env begun volume)
    | getSnapshot => exact .some rfl
    | shutdown => exact .some (programme_cleanup env begun)
    | _ => cases hkeeps
  exact hinner.bind fun r hr => .some hr

/-! ## The end of a track -/

/-- A new cycle does not begin with the track that has just ended. -/
theorem front_of_new_cycle (rng : Rng) (justFinishedIdx : ℕ) (hshuffle : e.shuffle = true)
    (hlong : 1 < e.queue.length) :
    Returns (e.recomputePlayOrderNewCycle rng justFinishedIdx) fun e' =>
      e'.playOrder[0]? ≠ some justFinishedIdx := by
  have hnonempty : ¬ e.queue.isEmpty = true := fun h => by simp [List.isEmpty_iff.mp h] at hlong
  unfold recomputePlayOrderNewCycle
  dsimp only
  rw [if_neg hnonempty, if_pos hshuffle, if_pos hlong]
  have hperm := rng.shuffle_perm (List.range e.queue.length)
  generalize rng.shuffle (List.range e.queue.length) = order at hperm ⊢
  have hlen : order.length = e.queue.length := by rw [hperm.length_eq, List.length_range]
  refine .knowing fun first hfirst => .ite (fun hsame => ?_) fun hother => .some ?_
  · obtain ⟨hlo, hhi⟩ := rng.gen_range_mem 1 e.queue.length hlong
    obtain ⟨order', hswap, -, hfront⟩ :=
      exists_swap? (l := order) (i := 0) (j := rng.genRange 1 e.queue.length) (by omega) (by omega)
    rw [hswap]
    refine .some fun hagain => ?_
    -- the entry that has come to the front is another one of a list without repetitions
    have hagain' : order'[0]? = some justFinishedIdx := hagain
    rw [hfront, ← hsame, ← hfirst] at hagain'
    have hplace := (List.getElem?_inj (by omega) (hperm.nodup_iff.mpr List.nodup_range)).mp hagain'
    omega
  · grind

theorem startOrFail_at (track : Track) :
    (e.startOrFail env track).state = .failed ∨
      (e.startOrFail env track).currentTrack = some track := by
  have hstarts := starts_startPlaybackInternal env e track 0
  unfold startOrFail
  split
  · rename_i e₁ heq
    rw [heq] at hstarts
    refine .inr ?_
    show e₁.deck.currentTrack = some track
    generalize e₁.deck = d at hstarts
    cases hstarts with
    | ok => rfl
  · exact .inl rfl

/-- What the end of a track comes to, with shuffle and repeat on: the engine moves forward, and starts
the track it comes to. -/
structure MovesOn (e e' : PlaybackEngine) : Prop where
  queue : e'.queue = e.queue
  settings : e'.shuffle = e.shuffle ∧ e'.repeatMode = e.repeatMode
  cursor : e.cursor.Advances e'.cursor
  track : e'.state = .failed ∨ e'.currentTrack = e'.queue[e'.queueIndex]?

/-- To play at the next place is to move on. -/
theorem movesOn_playOrderAt {e₁ : PlaybackEngine} {pos : ℕ} (h₁ : e.Recued e₁)
    (hadvances : ∀ index, e₁.playOrder[pos]? = some index →
      e.cursor.Advances ⟨e.queue.length, e₁.playOrder, pos, index⟩) :
    Returns (e₁.playOrderAt pos >>= fun r => some (r.1.startOrFail env r.2)) fun e' =>
      e.MovesOn e' := by
  refine Returns.bind (P := fun r => ∃ index, e₁.playOrder[pos]? = some index ∧
    r.1 = { e₁ with playOrderPos := pos, queueIndex := index } ∧ e₁.queue[index]? = some r.2)
    (.knowing fun index hindex => .knowing fun track htrack => .some ⟨index, hindex, rfl, htrack⟩) ?_
  rintro ⟨e₂, track⟩ ⟨index, hindex, rfl, htrack⟩
  obtain ⟨order, pos₁, index₁, rfl⟩ := h₁
  refine .some ?_
  have hprogramme := programme_startOrFail env { e with
    playOrder := order, playOrderPos := pos, queueIndex := index } track
  simp only [programme, standing, Prod.mk.injEq] at hprogramme
  obtain ⟨⟨hqueue, hcursor⟩, hshuffle, hrepeat⟩ := hprogramme
  refine ⟨hqueue, ⟨hshuffle, hrepeat⟩, ?_, ?_⟩
  · rw [hcursor]
    exact hadvances index hindex
  · have hplace := congrArg Cursor.index hcursor
    grind [PlaybackEngine.cursor, startOrFail_at]

/-- At the end of a track the cursor moves on. -/
theorem movesOn_afterEof (hqueue : e.QueueInv) (hshuffle : e.shuffle = true)
    (hrepeat : e.repeatMode = .all) (hlong : 1 < e.queue.length) :
    Returns (e.afterEof env) fun e' => e.MovesOn e' := by
  unfold afterEof
  rw [hrepeat]
  have hnonempty : ¬ e.queue.isEmpty = true := fun h => by simp [List.isEmpty_iff.mp h] at hlong
  refine .ite (fun h => absurd h hnonempty) fun _ => .ite (fun hlast => ?_) fun hmore => ?_
  · have hfresh : Returns (e.beginCycle env.rng) fun e₁ => e.Recued e₁ ∧
        e₁.playOrder.Perm (List.range e.queue.length) ∧ e₁.playOrderPos = 0 ∧
        e₁.playOrder[0]? ≠ some e.queueIndex := by
      intro e₁ he₁
      obtain ⟨e₂, he₂, -, hperm, hzero⟩ := hqueue.beginCycle env.rng
      obtain rfl : e₂ = e₁ := Option.some.inj (he₂.symm.trans he₁)
      refine ⟨recued_beginCycle env.rng e₂ he₁, hperm, hzero, ?_⟩
      unfold beginCycle at he₁
      rw [if_pos hshuffle] at he₁
      exact front_of_new_cycle env.rng e.queueIndex hshuffle hlong e₂ he₁
    refine hfresh.bind fun e₁ ⟨hrecued, hperm, hzero, hother⟩ => ?_
    refine movesOn_playOrderAt hrecued fun index hindex => ?_
    rw [hzero] at hindex ⊢
    refine .again hlast hperm hindex fun hsame => hother ?_
    rw [hindex]
    exact congrArg some hsame
  · exact movesOn_playOrderAt ⟨_, _, _, rfl⟩ fun index hindex => .next hindex

end PlaybackEngine

/-! ## Runs -/

/-- The turn leaves the queue, the place in it, and the way through it to the ends of the tracks. -/
def EngineTurn.keepsProgramme : EngineTurn → Bool
  | .recv _ cmd => cmd.keepsProgramme
  | .audio _ | .closed _ => true

namespace EngineTask

open PlaybackEngine

def reachesEof (t : EngineTask) : EngineTurn → Bool
  | .audio env =>
    t.running && takesAudio t.engine && t.engine.decoder.isSome && (env.readPcm matches .ok 0)
  | .recv .. | .closed _ => false

/-- **The engine as the ends of tracks leave it**, one after the other. -/
def afterEnds : EngineTask → List EngineTurn → List PlaybackEngine
  | _, [] => []
  | t, input :: rest =>
    match t.turn input with
    | some t' =>
      if t.reachesEof input then t'.engine :: afterEnds t' rest else afterEnds t' rest
    | none => []

variable {t : EngineTask} {input : EngineTurn}

/-- A turn on which no track ends keeps the programme. -/
theorem programme_turn (hkeeps : input.keepsProgramme = true) (hgoes : t.reachesEof input = false) :
    Returns (t.turn input) fun t' => t'.engine.programme = t.engine.programme := by
  refine .ite (fun _ => .some rfl) fun hrunning => ?_
  have hrunning' : t.running = true := by simpa using hrunning
  cases input with
  | recv env cmd =>
    refine (programme_handleCommand hkeeps).bind fun r hr => ?_
    exact .ite (fun _ => .some hr) fun _ => .some ((programme_cleanup env r.1).trans hr)
  | closed env => exact .some (programme_cleanup env t.engine)
  | audio env =>
    refine .ite (fun htakes => ?_) fun _ => .some rfl
    refine Returns.bind (P := fun e => e.programme = t.engine.programme) ?_ fun e he => .some he
    simp only [reachesEof, hrunning', htakes, Bool.true_and] at hgoes
    unfold processAudioChunk
    split
    · exact .some rfl
    · rename_i hdecoder
      rw [hdecoder] at hgoes
      split
      · grind
      · exact .some (programme_deliverChunk env t.engine _)
      · exact .some rfl

/-- A turn on which a track ends moves the cursor on. -/
theorem movesOn_turn (hends : t.reachesEof input = true) (hqueue : t.engine.QueueInv)
    (hshuffle : t.engine.shuffle = true) (hrepeat : t.engine.repeatMode = .all)
    (hlong : 1 < t.engine.queue.length) :
    Returns (t.turn input) fun t' => t.engine.MovesOn t'.engine := by
  cases input with
  | recv env cmd => cases hends
  | closed env => cases hends
  | audio env =>
    simp only [reachesEof, Bool.and_eq_true] at hends
    obtain ⟨⟨⟨hrunning, htakes⟩, hdecoder⟩, hread⟩ := hends
    refine .ite (fun hstopped => absurd hrunning hstopped) fun _ => ?_
    refine .ite (fun _ => ?_) fun hidle => absurd htakes hidle
    refine Returns.bind (P := fun e => t.engine.MovesOn e) ?_ fun e he => .some he
    unfold processAudioChunk
    split
    · grind
    · split
      · have hended := @movesOn_afterEof env
          ({ t.engine with decoder := none }.emitEvent (.ended t.engine.trackId))
          hqueue hshuffle hrepeat hlong
        exact hended.mono fun e he => ⟨he.queue, he.settings, he.cursor, he.track⟩
      · grind
      · grind

/-- Over any run the tracks that end are those the cursor visits. -/
theorem run_visits (turns : List EngineTurn) (hqueue : t.engine.QueueInv)
    (hshuffle : t.engine.shuffle = true) (hrepeat : t.engine.repeatMode = .all)
    (hlong : 1 < t.engine.queue.length) (hkeeps : ∀ input ∈ turns, input.keepsProgramme = true) :
    t.engine.cursor.Visits (t.engine.queueIndex :: (afterEnds t turns).map queueIndex) ∧
      ∀ e ∈ afterEnds t turns, e.queue = t.engine.queue ∧
        (e.state = .failed ∨ e.currentTrack = e.queue[e.queueIndex]?) := by
  induction turns generalizing t with
  | nil => exact ⟨.rest _, fun e hmem => absurd hmem List.not_mem_nil⟩
  | cons input rest ih =>
    obtain ⟨t', hturn, hqueue'⟩ := turn_queueInv hqueue input
    have hrest : ∀ input ∈ rest, input.keepsProgramme = true := fun input hmem =>
      hkeeps input (List.mem_cons_of_mem _ hmem)
    unfold afterEnds
    rw [hturn]
    dsimp only
    split
    · rename_i hends
      have hmoves := movesOn_turn hends hqueue hshuffle hrepeat hlong t' hturn
      obtain ⟨hvisits, htracks⟩ := ih hqueue' (hmoves.settings.1.trans hshuffle)
        (hmoves.settings.2.trans hrepeat) (hmoves.queue ▸ hlong) hrest
      refine ⟨.move hmoves.cursor hvisits, ?_⟩
      intro e hmem
      rcases List.mem_cons.mp hmem with rfl | hmem
      · exact ⟨hmoves.queue, hmoves.track⟩
      · exact ⟨(htracks e hmem).1.trans hmoves.queue, (htracks e hmem).2⟩
    · rename_i hgoes
      have hprogramme := programme_turn (hkeeps input List.mem_cons_self)
        ((Bool.not_eq_true _).mp hgoes) t' hturn
      simp only [programme, standing, Prod.mk.injEq] at hprogramme
      obtain ⟨⟨hsame, hcursor⟩, hshuffle', hrepeat'⟩ := hprogramme
      obtain ⟨hvisits, htracks⟩ := ih hqueue' (hshuffle'.trans hshuffle) (hrepeat'.trans hrepeat)
        (hsame ▸ hlong) hrest
      have hindex : t'.engine.queueIndex = t.engine.queueIndex := congrArg Cursor.index hcursor
      grind

/-- **Shuffling is fair.** From any state a run reaches, with shuffle and repeat on and at least two
tracks in the queue: the indices the ends of the tracks take the engine to, its own before them, make
cycles that hold every index once, and no two neighbours among them are the same. The engine then plays
the track of its index, unless the track cannot be started. -/
theorem shuffled_cycles_are_fair {format : PcmFormat} {now : ℕ} {before : List EngineTurn}
    (hrun : run (start format now) before = some t) (hshuffle : t.engine.shuffle = true)
    (hrepeat : t.engine.repeatMode = .all) (hlong : 2 ≤ t.engine.queue.length)
    {turns : List EngineTurn} (hkeeps : ∀ input ∈ turns, input.keepsProgramme = true) :
    let indices := t.engine.queueIndex :: (afterEnds t turns).map queueIndex
    (∀ k, (t.engine.playOrderPos + k) % t.engine.queue.length = 0 →
        k + t.engine.queue.length ≤ indices.length →
        ((indices.drop k).take t.engine.queue.length).Perm (List.range t.engine.queue.length)) ∧
      indices.IsChain (· ≠ ·) ∧
      ∀ e ∈ afterEnds t turns, e.queue = t.engine.queue ∧
        (e.state = .failed ∨ e.currentTrack = e.queue[e.queueIndex]?) := by
  obtain ⟨t', hrun', hperm, hplace⟩ := run_queue_invariant format now before
  obtain rfl : t' = t := Option.some.inj (hrun'.symm.trans hrun)
  have hqueue : t'.engine.QueueInv := (queueInv_iff t'.engine).mpr ⟨hperm, hplace⟩
  obtain ⟨hvisits, htracks⟩ := run_visits turns hqueue hshuffle hrepeat hlong hkeeps
  have hne : 0 < t'.engine.cursor.len := Nat.zero_lt_of_lt hlong
  exact ⟨fun k hbegins hwhole => hvisits.cycle hqueue hne hbegins hwhole,
    hvisits.isChain hqueue hne, htracks⟩

def threeShuffled : List EngineTurn :=
  [.recv { now := 0 } (.setQueue [⟨1, "/music/a.flac", none⟩, ⟨2, "/music/b.flac", none⟩,
      ⟨3, "/music/c.flac", none⟩] 0 none .local),
    .recv { now := 0 } (.setShuffle true .local), .recv { now := 0 } (.setRepeat .all .local),
    .recv { now := 0 } (.play ⟨1, "/music/a.flac", none⟩ [⟨"kitchen", .receiver⟩]
      ⟨"kitchen", "Kitchen", "receiver", 1⟩ 0 .local)]

/-- Six tracks end, and the second order is drawn with the track that has just ended at its front. -/
theorem shuffled_cycles_are_fair_three :
    let rng : Rng := ⟨List.reverse, fun lo _ => lo, List.reverse_perm, fun _ _ h => ⟨le_rfl, h⟩⟩
    let turns := List.replicate 6 (EngineTurn.audio { now := 0, rng := rng })
    ∃ t, run (start {} 0) threeShuffled = some t ∧
      t.engine.queueIndex :: (afterEnds t turns).map queueIndex = [0, 1, 2, 1, 2, 0, 2] ∧
      ([1, 2, 0] : List ℕ).Perm (List.range 3) := by
  refine ⟨(run (start {} 0) threeShuffled).get rfl, (Option.some_get _).symm, by decide +kernel, ?_⟩
  have hkeeps : ∀ input ∈ List.replicate 6 (EngineTurn.audio { now := 0, rng := ⟨List.reverse,
      fun lo _ => lo, List.reverse_perm, fun _ _ h => ⟨le_rfl, h⟩⟩ }),
      input.keepsProgramme = true := by decide +kernel
  have hrun : run (start {} 0) threeShuffled =
      some ((run (start {} 0) threeShuffled).get rfl) := (Option.some_get _).symm
  have hfair := (shuffled_cycles_are_fair hrun (by decide +kernel) (by decide +kernel)
    (by decide +kernel) hkeeps).1 3
  exact hfair (by decide +kernel) (by decide +kernel)

end EngineTask

end MichiServer.Playback
