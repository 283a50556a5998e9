import MichiServer.Playback.Account
import MichiServer.Playback.QueueInvariant

/-!
# What it takes to be playing

The engine says `Playing` once the timeline of the current generation has reached the threshold of
`PLAYING_EVIDENCE_THRESHOLD_MS`. The timeline is not a count of what the sinks accepted: it moves by a
whole chunk as soon as one sink took a byte of it. So a history of the deliveries is kept beside the run,
with what every sink took of each chunk, and `Account.Truthful` reads the counters off it.
-/

namespace MichiServer.Playback

open MichiServer.Logic

/-- A decoded chunk of a generation, and what the sinks took of it. A sink whose write fails is dropped
from the fan-out and accepts nothing. -/
structure Delivery where
  generationId : ℕ
  bytes : ℕ
  accepted : List ℕ

namespace Delivery

def Heard (d : Delivery) : Prop := 0 < d.accepted.sum

instance (d : Delivery) : Decidable d.Heard := inferInstanceAs (Decidable (0 < d.accepted.sum))

def Whole (d : Delivery) : Prop := ∀ n ∈ d.accepted, n = 0 ∨ n = d.bytes

def best (d : Delivery) : ℕ := d.accepted.foldr max 0

theorem le_best {d : Delivery} {n : ℕ} (h : n ∈ d.accepted) : n ≤ d.best := by
  unfold best
  generalize d.accepted = accepted at h
  induction h with
  | head rest => exact Nat.le_max_left n _
  | tail m _ ih => exact Nat.le_trans ih (Nat.le_max_right m _)

theorem bytes_le_best {d : Delivery} (hwhole : d.Whole) (hheard : d.Heard) : d.bytes ≤ d.best := by
  obtain ⟨n, hn, hpos⟩ : ∃ n ∈ d.accepted, n ≠ 0 := by
    by_contra hnone
    push Not at hnone
    exact absurd (List.sum_eq_zero_iff_forall_eq_nat.mpr hnone) (Nat.pos_iff_ne_zero.mp hheard)
  have hall : n = d.bytes := (hwhole n hn).resolve_left hpos
  exact hall ▸ le_best hn

end Delivery

/-- The bytes of the chunks of a generation that some sink took a part of. -/
def heardBytes (generationId : ℕ) (ds : List Delivery) : ℕ :=
  ((ds.filter fun d => d.generationId = generationId ∧ d.Heard).map Delivery.bytes).sum

/-- The bytes of a generation that were accepted, of each chunk those of the sink that took the most. -/
def acceptedBytes (generationId : ℕ) (ds : List Delivery) : ℕ :=
  ((ds.filter fun d => d.generationId = generationId).map Delivery.best).sum

theorem heardBytes_cons (generationId : ℕ) (d : Delivery) (ds : List Delivery) :
    heardBytes generationId (d :: ds) =
      (if d.generationId = generationId ∧ d.Heard then d.bytes else 0) +
        heardBytes generationId ds := by
  grind [heardBytes]

theorem acceptedBytes_cons (generationId : ℕ) (d : Delivery) (ds : List Delivery) :
    acceptedBytes generationId (d :: ds) =
      (if d.generationId = generationId then d.best else 0) + acceptedBytes generationId ds := by
  grind [acceptedBytes]

theorem heardBytes_snoc (ds : List Delivery) (d : Delivery) :
    heardBytes d.generationId (ds ++ [d]) =
      heardBytes d.generationId ds + if d.Heard then d.bytes else 0 := by
  by_cases h : d.Heard <;> simp [heardBytes, h]

theorem heardBytes_of_lt {generationId : ℕ} {ds : List Delivery}
    (h : ∀ d ∈ ds, d.generationId < generationId) : heardBytes generationId ds = 0 := by
  have hnone : ds.filter (fun d => d.generationId = generationId ∧ d.Heard) = [] := by
    refine List.filter_eq_nil_iff.mpr fun d hd => ?_
    have hlt := h d hd
    simp
    omega
  rw [heardBytes, hnone]
  rfl

theorem heard_le_accepted (generationId : ℕ) {ds : List Delivery} (h : ∀ d ∈ ds, d.Whole) :
    heardBytes generationId ds ≤ acceptedBytes generationId ds := by
  induction ds with
  | nil => exact Nat.le_refl _
  | cons d rest ih =>
    grind [heardBytes_cons, acceptedBytes_cons, Delivery.bytes_le_best]

/-! ## The invariant -/

def Account.threshold (a : Account) : ℕ :=
  a.format.bytesForDurationMs playingEvidenceThresholdMs

/-- The counters are those of the deliveries `ds`, and a playing engine has sinks and has reached the
threshold. -/
structure Account.Truthful (a : Account) (ds : List Delivery) : Prop where
  past : ∀ d ∈ ds, d.generationId ≤ a.generationId
  timeline : a.trackPcmTimelineBytes = heardBytes a.generationId ds
  decoded : a.trackPcmTimelineBytes ≤ a.trackBytesDecoded
  playing : a.state = .playing → a.sinks ≠ [] ∧ a.threshold ≤ a.trackPcmTimelineBytes

structure Account.Delivers (a : Account) (d : Delivery) (a' : Account) : Prop where
  format : a'.format = a.format
  generationId : a'.generationId = a.generationId
  current : d.generationId = a.generationId
  decoded : a'.trackBytesDecoded = a.trackBytesDecoded + d.bytes
  timeline : a'.trackPcmTimelineBytes = a.trackPcmTimelineBytes + if d.Heard then d.bytes else 0
  playing : a'.state = .playing →
    a'.sinks ≠ [] ∧ (a.state = .playing ∨ a'.threshold ≤ a'.trackPcmTimelineBytes)

namespace Account

variable {a a' : Account} {ds : List Delivery} {d : Delivery}

/-- A move that delivers nothing keeps the account truthful. -/
theorem Truthful.moves (h : a.Truthful ds) (hmoves : a.Moves a') : a'.Truthful ds := by
  cases hmoves with
  | same format generationId decoded timeline playing =>
    constructor
    · rw [generationId]
      exact h.past
    · rw [timeline, generationId]
      exact h.timeline
    · rw [timeline, decoded]
      exact h.decoded
    · intro hplaying
      obtain ⟨hwas, hsinks⟩ := playing hplaying
      obtain ⟨hsome, hreached⟩ := h.playing hwas
      refine ⟨hsinks hsome, ?_⟩
      rw [threshold, format, timeline]
      exact hreached
  | reset format generationId decoded timeline playing =>
    have hlt : ∀ d ∈ ds, d.generationId < a'.generationId := fun d hd =>
      Nat.lt_of_le_of_lt (h.past d hd) generationId
    constructor
    · exact fun d hd => Nat.le_of_lt (hlt d hd)
    · rw [timeline, heardBytes_of_lt hlt]
    · rw [timeline]
      exact Nat.zero_le _
    · exact fun hplaying => absurd hplaying playing

/-- So does a delivery that is counted. -/
theorem Truthful.delivers (h : a.Truthful ds) (hd : a.Delivers d a') : a'.Truthful (ds ++ [d]) := by
  have hmore : a.trackPcmTimelineBytes ≤ a'.trackPcmTimelineBytes :=
    hd.timeline ▸ Nat.le_add_right _ _
  constructor
  · intro d' hd'
    rw [hd.generationId]
    rcases List.mem_append.mp hd' with hold | hnew
    · exact h.past d' hold
    · cases List.mem_singleton.mp hnew
      exact Nat.le_of_eq hd.current
  · rw [hd.timeline, hd.generationId, h.timeline, ← hd.current, heardBytes_snoc]
  · have hdecoded := h.decoded
    rw [hd.timeline, hd.decoded]
    split <;> omega
  · intro hplaying
    obtain ⟨hsinks, hwas | hreached⟩ := hd.playing hplaying
    · refine ⟨hsinks, Nat.le_trans ?_ hmore⟩
      rw [threshold, hd.format]
      exact (h.playing hwas).2
    · exact ⟨hsinks, hreached⟩

end Account

/-! ## The delivery of a chunk -/

def acceptedBy (env : EngineEnv) (sinks : List (AudioSink × ℕ)) : List ℕ :=
  sinks.filterMap fun sink =>
    match env.write sink.2 with
    | .written n => some n
    | .failed _ | .timedOut => none

theorem foldl_collect (env : EngineEnv) (sinks : List (AudioSink × ℕ)) (f : PlaybackEngine.FanOut) :
    (sinks.foldl (PlaybackEngine.FanOut.collect env) f).deliveredBytes =
        f.deliveredBytes + (acceptedBy env sinks).sum ∧
      (sinks.foldl (PlaybackEngine.FanOut.collect env) f).survivingSinks.length =
        f.survivingSinks.length + (acceptedBy env sinks).length := by
  induction sinks generalizing f with
  | nil => exact ⟨rfl, rfl⟩
  | cons sink rest ih =>
    obtain ⟨hbytes, hsinks⟩ := ih (f.collect env sink)
    rw [List.foldl_cons, hbytes, hsinks]
    grind [PlaybackEngine.FanOut.collect, acceptedBy]

namespace PlaybackEngine

variable {e : PlaybackEngine}

def deliveryOf (env : EngineEnv) (n : ℕ) (e : PlaybackEngine) : Delivery :=
  ⟨e.generationId, n, acceptedBy env e.sinks.zipIdx⟩

theorem fanOut_delivered (env : EngineEnv) (n : ℕ) (e : PlaybackEngine) :
    (e.fanOut env).deliveredBytes > 0 ↔ (e.deliveryOf env n).Heard := by
  have h := (foldl_collect env e.sinks.zipIdx { failedSinks := e.failedSinks }).1
  simp only [Nat.zero_add] at h
  unfold fanOut
  rw [h]
  rfl

def beginFlow (now : ℕ) (e : PlaybackEngine) : PlaybackEngine :=
  if e.state = .preparing ∨ e.state = .buffering then
    { e with state := .audioFlowing, playingStartedAt := some (e.playingStartedAt.getD now) }
  else e

def promote (e : PlaybackEngine) : PlaybackEngine :=
  if e.state = .audioFlowing ∧
      e.trackPcmTimelineBytes ≥ e.format.bytesForDurationMs playingEvidenceThresholdMs then
    { e with state := .playing }.emitEvent (.lifecycleChanged .playing e.trackId)
  else e

def checkpoint (now : ℕ) (e : PlaybackEngine) : PlaybackEngine :=
  if (e.state = .playing ∨ e.state = .audioFlowing) ∧ now - e.lastCheckpoint ≥ 2500000000 then
    let e := { e with lastCheckpoint := now }
    e.emitEvent (.positionCheckpoint e.trackId (e.calculateCurrentPositionMs now))
  else e

theorem advanceTimeline_eq (now n : ℕ) (e : PlaybackEngine) :
    e.advanceTimeline now n =
      ((({ e with trackPcmTimelineBytes := e.trackPcmTimelineBytes + n } :
        PlaybackEngine).beginFlow now).promote).checkpoint now :=
  rfl

theorem account_beginFlow (now : ℕ) (e : PlaybackEngine) :
    ∃ state, (e.beginFlow now).account = { e.account with state := state } ∧
      (state = .playing → e.state = .playing) := by
  unfold beginFlow
  split
  · exact ⟨.audioFlowing, rfl, nofun⟩
  · exact ⟨e.state, rfl, id⟩

theorem account_promote (e : PlaybackEngine) :
    ∃ state, e.promote.account = { e.account with state := state } ∧
      (state = .playing → e.state = .playing ∨
        e.account.threshold ≤ e.trackPcmTimelineBytes) := by
  unfold promote
  split
  next h => exact ⟨.playing, rfl, fun _ => .inr h.2⟩
  next h => exact ⟨e.state, rfl, .inl⟩

@[simp] theorem account_checkpoint (now : ℕ) (e : PlaybackEngine) :
    (e.checkpoint now).account = e.account := by
  unfold checkpoint
  split <;> rfl

/-- The timeline moves by the bytes of the chunk. -/
theorem account_advanceTimeline (now n : ℕ) (e : PlaybackEngine) :
    ∃ state, (e.advanceTimeline now n).account =
        { e.account with
          trackPcmTimelineBytes := e.trackPcmTimelineBytes + n
          state := state } ∧
      (state = .playing → e.state = .playing ∨
        e.account.threshold ≤ e.trackPcmTimelineBytes + n) := by
  let counted : PlaybackEngine :=
    { e with trackPcmTimelineBytes := e.trackPcmTimelineBytes + n }
  obtain ⟨state, hflow, hwas⟩ := account_beginFlow now counted
  obtain ⟨state', hpromote, hreached⟩ := account_promote (counted.beginFlow now)
  have hstate : (counted.beginFlow now).state = state := congrArg Account.state hflow
  have htimeline : (counted.beginFlow now).trackPcmTimelineBytes = e.trackPcmTimelineBytes + n :=
    congrArg Account.trackPcmTimelineBytes hflow
  refine ⟨state', ?_, fun hplaying => ?_⟩
  · rw [advanceTimeline_eq, account_checkpoint, hpromote, hflow]
    rfl
  · refine (hreached hplaying).imp (fun h => hwas (hstate ▸ h)) fun h => ?_
    rw [hflow, htimeline] at h
    exact h

/-- The engine once a chunk of `n` bytes has been offered to the sinks and some of them are left. -/
def afterFanOut (env : EngineEnv) (n : ℕ) (e : PlaybackEngine) : PlaybackEngine :=
  let f := e.fanOut env
  let e' := { e with
    trackBytesDecoded := e.trackBytesDecoded + n
    failedSinks := f.failedSinks }
  let e' :=
    if f.survivingSinks.length < e.sinks.length then
      { e' with outputHealth := "partial" }.emitEvent (.outputChanged "partial")
    else e'
  { e' with
    sinks := f.survivingSinks
    networkBytesSentTotal := e'.networkBytesSentTotal + f.deliveredBytes }

theorem deliverChunk_eq (env : EngineEnv) (n : ℕ) {e : PlaybackEngine}
    (h : (e.fanOut env).survivingSinks ≠ []) :
    e.deliverChunk env n =
      if (e.fanOut env).deliveredBytes > 0 then (e.afterFanOut env n).advanceTimeline env.now n
      else e.afterFanOut env n :=
  if_neg fun hempty => h (List.isEmpty_iff.mp hempty)

theorem account_afterFanOut (env : EngineEnv) (n : ℕ) (e : PlaybackEngine) :
    (e.afterFanOut env n).account =
      { e.account with
        trackBytesDecoded := e.trackBytesDecoded + n
        sinks := (e.fanOut env).survivingSinks } := by
  unfold afterFanOut
  dsimp only
  split <;> rfl

theorem not_heard_of_no_sinks (env : EngineEnv) (n : ℕ) {e : PlaybackEngine}
    (h : (e.fanOut env).survivingSinks = []) : ¬ (e.deliveryOf env n).Heard := by
  have hlength := (foldl_collect env e.sinks.zipIdx { failedSinks := e.failedSinks }).2
  have hnone : (acceptedBy env e.sinks.zipIdx).length = 0 := by
    rw [show e.sinks.zipIdx.foldl (FanOut.collect env) _ = e.fanOut env from rfl, h] at hlength
    simpa using hlength.symm
  grind [Delivery.Heard, deliveryOf]

/-- A chunk that is delivered is counted once. -/
theorem delivers_deliverChunk (env : EngineEnv) (n : ℕ) (e : PlaybackEngine) :
    e.account.Delivers (e.deliveryOf env n) (e.deliverChunk env n).account := by
  by_cases hsinks : (e.fanOut env).survivingSinks = []
  · have hnone := not_heard_of_no_sinks env n hsinks
    have hfailed : (e.deliverChunk env n).account =
        { e.account with
          trackBytesDecoded := e.trackBytesDecoded + n
          state := .failed
          sinks := [] } := by
      unfold deliverChunk
      exact congrArg account (if_pos (List.isEmpty_iff.mpr hsinks))
    rw [hfailed]
    exact ⟨rfl, rfl, rfl, rfl, (if_neg hnone).symm ▸ rfl, nofun⟩
  · have hafter := account_afterFanOut env n e
    rw [deliverChunk_eq env n hsinks]
    by_cases hheard : (e.deliveryOf env n).Heard
    · rw [if_pos ((fanOut_delivered env n e).mpr hheard)]
      obtain ⟨state, hadvanced, hplaying⟩ := account_advanceTimeline env.now n (e.afterFanOut env n)
      have hstate : (e.afterFanOut env n).state = e.state := congrArg Account.state hafter
      have htimeline : (e.afterFanOut env n).trackPcmTimelineBytes = e.trackPcmTimelineBytes :=
        congrArg Account.trackPcmTimelineBytes hafter
      rw [hafter, hstate, htimeline] at hplaying
      rw [hadvanced, hafter, htimeline]
      exact ⟨rfl, rfl, rfl, rfl, (if_pos hheard).symm ▸ rfl, fun h => ⟨hsinks, hplaying h⟩⟩
    · rw [if_neg fun h => hheard ((fanOut_delivered env n e).mp h), hafter]
      exact ⟨rfl, rfl, rfl, rfl, (if_neg hheard).symm ▸ rfl, fun h => ⟨hsinks, .inl h⟩⟩

end PlaybackEngine

/-! ## Runs -/

namespace EngineTask

def delivery (t : EngineTask) (input : EngineTurn) : Option Delivery :=
  match input with
  | .audio env =>
    if t.running ∧ takesAudio t.engine ∧ t.engine.decoder.isSome then
      match env.readPcm with
      | .ok (n + 1) => some (t.engine.deliveryOf env (min (n + 1) t.engine.chunkSize))
      | .ok 0 | .error _ => none
    else none
  | .recv _ _ | .closed _ => none

def deliveries (t : EngineTask) : List EngineTurn → List Delivery
  | [] => []
  | input :: rest =>
    (t.delivery input).toList ++
      match t.turn input with
      | some t' => deliveries t' rest
      | none => []

variable {t : EngineTask} {ds : List Delivery}

theorem truthful_of_moves {e : PlaybackEngine} {input : EngineTurn}
    (h : t.engine.account.Truthful ds) (hnone : t.delivery input = none) (hmoves : t.engine.Moves e) :
    e.account.Truthful (ds ++ (t.delivery input).toList) := by
  rw [hnone]
  simpa using h.moves hmoves

/-- A turn on audio counts what it delivers. -/
theorem audio_truthful {d : FfmpegPcmDecoder} (h : t.engine.account.Truthful ds) (env : EngineEnv)
    (hrunning : t.running = true) (htakes : takesAudio t.engine = true)
    (hdecoder : t.engine.decoder = some d) :
    Returns (t.engine.processAudioChunk env) fun e =>
      e.account.Truthful (ds ++ (t.delivery (.audio env)).toList) := by
  unfold PlaybackEngine.processAudioChunk
  rw [hdecoder]
  cases hread : env.readPcm with
  | ok n =>
    cases n with
    | zero =>
      have hnone : t.delivery (.audio env) = none := by simp [delivery, hread]
      refine (PlaybackEngine.settles_handleEof env t.engine).mono fun e he => ?_
      exact truthful_of_moves h hnone he.1
    | succ n =>
      have hsome : t.delivery (.audio env) =
          some (t.engine.deliveryOf env (min (n + 1) t.engine.chunkSize)) := by
        simp [delivery, hread, hrunning, htakes, hdecoder]
      rw [hsome]
      exact .some (h.delivers (PlaybackEngine.delivers_deliverChunk env _ t.engine))
  | error err =>
    have hnone : t.delivery (.audio env) = none := by simp [delivery, hread]
    exact .some (truthful_of_moves h hnone (PlaybackEngine.settles_decoderFailed err).1)

/-- Each turn counts what it delivers. -/
theorem turn_truthful (h : t.engine.account.Truthful ds) (input : EngineTurn) :
    Returns (t.turn input) fun t' => t'.engine.account.Truthful (ds ++ (t.delivery input).toList) := by
  have hsounding : t.engine.Sounding := fun hplaying => (h.playing hplaying).1
  by_cases hrunning : t.running = true
  · cases input with
    | recv env cmd =>
      have hcommand := PlaybackEngine.moves_handleCommand env cmd hsounding
      simp only [turn, hrunning, not_true_eq_false, if_false]
      refine hcommand.bind fun r hr => ?_
      refine .ite (fun _ => .some (truthful_of_moves h rfl hr)) fun _ => .some ?_
      exact truthful_of_moves h rfl (hr.trans (PlaybackEngine.settles_cleanup env r.1).1)
    | closed env =>
      simp only [turn, hrunning, not_true_eq_false, if_false]
      exact .some (truthful_of_moves h rfl (PlaybackEngine.settles_cleanup env t.engine).1)
    | audio env =>
      simp only [turn, hrunning, not_true_eq_false, if_false]
      refine .ite (fun htakes => ?_) fun htakes => ?_
      · cases hdecoder : t.engine.decoder with
        | none =>
          have hnone : t.delivery (.audio env) = none := by simp [delivery, hdecoder]
          simp only [PlaybackEngine.processAudioChunk, hdecoder]
          refine .some (truthful_of_moves h hnone ?_)
          exact PlaybackEngine.moves_of_state rfl rfl rfl rfl nofun
        | some d => exact (audio_truthful h env hrunning htakes hdecoder).bind fun e he => .some he
      · have hnone : t.delivery (.audio env) = none := by simp [delivery, htakes]
        exact .some (truthful_of_moves h hnone (.refl _))
  · have hnone : t.delivery input = none := by cases input <;> simp [delivery, hrunning]
    simp only [turn, hrunning]
    exact .some (truthful_of_moves h hnone (.refl _))

theorem run_truthful (turns : List EngineTurn) (h : t.engine.account.Truthful ds) :
    Returns (t.run turns) fun t' => t'.engine.account.Truthful (ds ++ t.deliveries turns) := by
  induction turns generalizing t ds with
  | nil => exact .some (by simpa [deliveries] using h)
  | cons input rest ih =>
    intro t'' hrun
    obtain ⟨t', hturn, hrest⟩ := Option.bind_eq_some_iff.mp hrun
    have htrue := ih (turn_truthful h input t' hturn) t'' hrest
    rw [deliveries, hturn]
    simpa using htrue

theorem run_new_truthful (format : PcmFormat) (now : ℕ) (turns : List EngineTurn) :
    Returns (run { engine := .new format now } turns) fun t =>
      t.engine.account.Truthful (deliveries { engine := .new format now } turns) := by
  have hnew : (PlaybackEngine.new format now).account.Truthful [] :=
    ⟨nofun, rfl, Nat.le_refl _, nofun⟩
  exact run_truthful (t := { engine := .new format now }) turns hnew

/-- A run ends in a state that is `Playing` only with sinks, after chunks of the current generation that
come to the threshold, of each of which some sink took a part; where the sinks take chunks whole, that is
what they accepted. The timeline never passes what was decoded. -/
theorem playing_is_heard (format : PcmFormat) (now : ℕ) (turns : List EngineTurn) :
    ∃ t, run { engine := .new format now } turns = some t ∧
      (t.engine.state = .playing →
        t.engine.sinks ≠ [] ∧
        t.engine.format.bytesForDurationMs playingEvidenceThresholdMs ≤
          heardBytes t.engine.generationId (deliveries { engine := .new format now } turns) ∧
        ((∀ d ∈ deliveries { engine := .new format now } turns, d.Whole) →
          t.engine.format.bytesForDurationMs playingEvidenceThresholdMs ≤
            acceptedBytes t.engine.generationId (deliveries { engine := .new format now } turns))) ∧
      t.engine.trackPcmTimelineBytes ≤ t.engine.trackBytesDecoded := by
  obtain ⟨t, hrun, -⟩ := run_queue_invariant format now turns
  have h := run_new_truthful format now turns t hrun
  refine ⟨t, hrun, fun hplaying => ?_, h.decoded⟩
  obtain ⟨hsinks, hreached⟩ := h.playing hplaying
  have hheard : t.engine.account.threshold ≤
      heardBytes t.engine.generationId (deliveries { engine := .new format now } turns) :=
    h.timeline ▸ hreached
  exact ⟨hsinks, hheard, fun hwhole => Nat.le_trans hheard (heard_le_accepted _ hwhole)⟩

def oneByteTurns : List EngineTurn :=
  .recv { now := 0 } (.play ⟨1, "/music/a.flac", none⟩ [⟨"kitchen", .receiver⟩]
      ⟨"kitchen", "Kitchen", "receiver", 1⟩ 0 .local) ::
    List.replicate 10 (.audio { now := 0, write := fun _ => .written 1, readPcm := .ok 1920 })

/-- The engine is playing, and ten bytes have been accepted in all. -/
theorem playing_on_ten_bytes :
    ¬ ∀ (turns : List EngineTurn) (t : EngineTask), run { engine := .new {} 0 } turns = some t →
      t.engine.state = .playing →
        t.engine.format.bytesForDurationMs playingEvidenceThresholdMs ≤
          ((deliveries { engine := .new {} 0 } turns).map fun d => d.accepted.sum).sum := by
  intro h
  have hplaying : (run { engine := .new {} 0 } oneByteTurns).map (fun t => t.engine.state) =
      some .playing := by decide
  obtain ⟨t, hrun, hstate⟩ := Option.map_eq_some_iff.mp hplaying
  have hformat : (run { engine := .new {} 0 } oneByteTurns).map (fun t => t.engine.format) =
      some {} := by decide
  have hbytes : ((deliveries { engine := .new {} 0 } oneByteTurns).map fun d =>
      d.accepted.sum).sum = 10 := by decide
  have hle := h oneByteTurns t hrun hstate
  rw [hrun] at hformat
  have hdefault : t.engine.format = {} := Option.some.inj hformat
  rw [hdefault, hbytes] at hle
  exact absurd hle (by decide)

end EngineTask

end MichiServer.Playback
