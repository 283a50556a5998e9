import MichiServer.Playback.DeckRuns
import MichiServer.Receivers.RtpStream

/-!
# The timeline and the receiver

`ReceiverAudioSink` of `receiver_sink.rs` hands the engine's chunks to the transport of its receiver,
which holds back what does not fill a packet and says what it sent. The engine takes a chunk for heard
when something was sent at it. So a chunk that fills no packet is never counted, though its bytes go out
with a later one: what the timeline lacks of the bytes decoded is what `held` adds up.
-/

namespace MichiServer.Receivers

def TransportError.debug : TransportError → String
  | .alreadyActive => "AlreadyActive"
  | .noSession => "NoSession"
  | .unreachable text => "Unreachable(" ++ text.quote ++ ")"
  | .capabilityMismatch text => "CapabilityMismatch(" ++ text.quote ++ ")"
  | .protocol text => "Protocol(" ++ text.quote ++ ")"
  | .other text => "Other(" ++ text.quote ++ ")"

/-- `ReceiverSessionManager::write_pcm`, with the transport that is active for the receiver. -/
def sessionWritePcm (receiverId : String) (pcmData : List UInt8)
    (line : Option RtpReceiverTransport × Wire) :
    (Option RtpReceiverTransport × Wire) × Except String ℕ :=
  match line.1 with
  | none => (line, .error ("NoActiveTransport for receiver " ++ receiverId))
  | some t =>
    match t.writePcm pcmData line.2 with
    | ((t', w'), .ok n) => ((some t', w'), .ok n)
    | ((t', w'), .error e) => ((some t', w'), .error ("write_pcm failed: " ++ e.debug))

namespace RtpReceiverTransport

theorem sendPending_of_healthy {t : RtpReceiverTransport} {w : Wire} {sent : ℕ}
    (hwire : ∀ k, w.failure k = none) :
    (t.sendPending w sent).2 = .ok ((sent + t.pendingPcm.length / chunkSize) * chunkSize) ∧
      (t.sendPending w sent).1.1.pendingPcm.length = t.pendingPcm.length % chunkSize ∧
      (t.sendPending w sent).1.1.socket = t.socket ∧
      ∀ k, (t.sendPending w sent).1.2.failure k = none := by
  fun_induction sendPending t w sent with
  | case1 t w sent hlen chunk packet w' hsend ih =>
    rw [Wire.send_of_none (hwire _)] at hsend
    obtain rfl := (Prod.mk.inj hsend).2
    grind [chunkSize]
  | case2 t w sent hlen chunk packet e w' hsend =>
    rw [Wire.send_of_none (hwire _)] at hsend
    cases hsend
  | case3 t w sent hlen =>
    have hlt := Nat.lt_of_not_le hlen
    exact ⟨by rw [Nat.div_eq_of_lt hlt, Nat.add_zero], (Nat.mod_eq_of_lt hlt).symm, rfl, hwire⟩

theorem writePcm_of_healthy {t : RtpReceiverTransport} {w : Wire} (hsocket : t.socket = true)
    (hwire : ∀ k, w.failure k = none) (pcmData : List UInt8) :
    ∃ t' w', t.writePcm pcmData w =
        ((t', w'), .ok ((t.pendingPcm.length + pcmData.length) / chunkSize * chunkSize)) ∧
      t'.pendingPcm.length = (t.pendingPcm.length + pcmData.length) % chunkSize ∧
      t'.socket = true ∧ ∀ k, w'.failure k = none := by
  obtain ⟨hok, hpending, hsocket', hwire'⟩ := @sendPending_of_healthy
    { t with pendingPcm := t.pendingPcm ++ pcmData } w 0 hwire
  grind [writePcm]

end RtpReceiverTransport

end MichiServer.Receivers

namespace MichiServer.Playback

open MichiServer.Logic MichiServer.Receivers

structure ReceiverAudioSink where
  receiverId : String
  state : SinkState := .preparing
  bytesReceived : ℕ := 0
  bytesSentToTransport : ℕ := 0
  lastError : Option String := none
  volume : ℕ := 80
  muted : Bool := false

def ReceiverAudioSink.writePcm (sink : ReceiverAudioSink) (data : List UInt8)
    (line : Option RtpReceiverTransport × Wire) :
    ReceiverAudioSink × (Option RtpReceiverTransport × Wire) × Except PlaybackError ℕ :=
  let sink := { sink with bytesReceived := sink.bytesReceived + data.length }
  if sink.muted then ({ sink with state := .ready }, line, .ok 0)
  else
    match sessionWritePcm sink.receiverId data line with
    | (line, .ok written) =>
      ({ sink with
          bytesSentToTransport := sink.bytesSentToTransport + written
          state := .audioFlowing
          lastError := none }, line, .ok written)
    | (line, .error e) =>
      ({ sink with state := .failed, lastError := some e }, line, .error (.playbackFailed e))

def WriteOutcome.ofResult : Except PlaybackError ℕ → WriteOutcome
  | .ok n => .written n
  | .error e => .failed e

structure ReceiverFeed where
  task : EngineTask
  sink : ReceiverAudioSink
  line : Option RtpReceiverTransport × Wire

namespace ReceiverFeed

open PlaybackEngine EngineTask

/-- A chunk has been decoded, and the engine takes its audio turn with it. -/
def chunk (f : ReceiverFeed) (input : EngineEnv × List UInt8) : Option ReceiverFeed :=
  let (sink, line, result) := f.sink.writePcm input.2 f.line
  let env := { input.1 with
    readPcm := .ok input.2.length
    write := fun _ => .ofResult result }
  (f.task.turn (.audio env)).map fun task => ⟨task, sink, line⟩

def feed (f : ReceiverFeed) (inputs : List (EngineEnv × List UInt8)) : Option ReceiverFeed :=
  inputs.foldlM chunk f

/-- A track is decoded for one healthy receiver: its transport has a socket that does not fail. -/
structure Healthy (f : ReceiverFeed) : Prop where
  running : f.task.running = true
  decodes : f.task.engine.state.decodes = true
  decoder : f.task.engine.decoder.isSome = true
  sinks : ∃ sink, f.task.engine.sinks = [sink]
  transport : ∃ t, f.line.1 = some t ∧ t.socket = true
  wire : ∀ k, f.line.2.failure k = none

def pending (f : ReceiverFeed) : ℕ := f.line.1.elim 0 fun t => t.pendingPcm.length

end ReceiverFeed

/-- Of chunks with these sizes, the bytes of those that fill no packet, where so many are pending. -/
def held (pending : ℕ) : List ℕ → ℕ
  | [] => 0
  | n :: rest =>
    (if pending + n < RtpReceiverTransport.chunkSize then n else 0) +
      held ((pending + n) % RtpReceiverTransport.chunkSize) rest

def ReceiverAudioSink.held (sink : ReceiverAudioSink) (pending : ℕ) (sizes : List ℕ) : ℕ :=
  if sink.muted then sizes.sum else Playback.held pending sizes

namespace ReceiverFeed

open PlaybackEngine EngineTask

variable {f f' : ReceiverFeed}

/-- A healthy line takes all it is given. -/
theorem write_of_healthy (h : f.Healthy) (data : List UInt8) :
    ∃ sink line written, f.sink.writePcm data f.line = (sink, line, .ok written) ∧
      sink.muted = f.sink.muted ∧ sink.bytesReceived = f.sink.bytesReceived + data.length ∧
      (∃ t, line.1 = some t ∧ t.socket = true) ∧ (∀ k, line.2.failure k = none) ∧
      (written = 0 ↔ f.sink.muted = true ∨ f.pending + data.length < RtpReceiverTransport.chunkSize) ∧
      (f.sink.muted = false → line.1.elim 0 (fun t => t.pendingPcm.length) =
        (f.pending + data.length) % RtpReceiverTransport.chunkSize) := by
  obtain ⟨t, ht, hsocket⟩ := h.transport
  unfold ReceiverAudioSink.writePcm
  dsimp only
  cases hmuted : f.sink.muted with
  | true =>
    rw [if_pos rfl]
    exact ⟨_, _, _, rfl, rfl, rfl, h.transport, h.wire, ⟨fun _ => .inl rfl, fun _ => rfl⟩, nofun⟩
  | false =>
    obtain ⟨t', w', hwrite, hpending, hsocket', hwire'⟩ :=
      RtpReceiverTransport.writePcm_of_healthy hsocket h.wire data
    have hsession : sessionWritePcm f.sink.receiverId data f.line = ((some t', w'), .ok
        ((t.pendingPcm.length + data.length) / RtpReceiverTransport.chunkSize *
          RtpReceiverTransport.chunkSize)) := by
      grind [sessionWritePcm]
    have hheld : f.pending = t.pendingPcm.length := by
      unfold pending
      rw [ht]
      rfl
    rw [if_neg Bool.false_ne_true, hsession]
    refine ⟨_, _, _, rfl, rfl, rfl, ⟨t', rfl, hsocket'⟩, hwire', ?_, fun _ => ?_⟩
    · grind [RtpReceiverTransport.chunkSize]
    · rw [hheld]
      exact hpending

variable {env : EngineEnv} {e : PlaybackEngine} {sink : AudioSink} {written : ℕ}

theorem fanOut_one (hsinks : e.sinks = [sink]) (hwrite : env.write 0 = .written written) :
    (e.fanOut env).survivingSinks = [sink] ∧ (e.fanOut env).deliveredBytes = written := by
  unfold fanOut
  rw [hsinks]
  simp [FanOut.collect, hwrite]

theorem heard_one (n : ℕ) (hsinks : e.sinks = [sink]) (hwrite : env.write 0 = .written written) :
    (e.deliveryOf env n).Heard ↔ written ≠ 0 := by
  grind [deliveryOf, Delivery.Heard, acceptedBy]

/-- With one sink that writes, a chunk leaves decoder and sinks alone. -/
theorem deck_deliverChunk_one
    (n : ℕ) (hsinks : e.sinks = [sink]) (hwrite : env.write 0 = .written written)
    (hdecodes : e.state.decodes = true) :
    (e.deliverChunk env n).state.decodes = true ∧ (e.deliverChunk env n).decoder = e.decoder ∧
      (e.deliverChunk env n).sinks = [sink] := by
  obtain ⟨hsurviving, hdelivered⟩ := fanOut_one hsinks hwrite
  have hsome : (e.fanOut env).survivingSinks ≠ [] := by rw [hsurviving]; exact List.cons_ne_nil _ _
  have hafter := deck_afterFanOut env n e
  rw [hsurviving] at hafter
  have hstate : (e.afterFanOut env n).state = e.state := congrArg Deck.state hafter
  rw [deliverChunk_eq env n hsome]
  split
  · obtain ⟨state, clock, hadvanced, hflow⟩ :=
      deck_advanceTimeline env.now n (e.afterFanOut env n)
    rw [hafter] at hadvanced
    refine ⟨?_, congrArg Deck.decoder hadvanced, congrArg Deck.sinks hadvanced⟩
    have hflowing : ((e.afterFanOut env n).advanceTimeline env.now n).state = state :=
      congrArg Deck.state hadvanced
    grind [PlaybackLifecycle.decodes_of_isPlaying]
  · exact ⟨hstate ▸ hdecodes, congrArg Deck.decoder hafter, congrArg Deck.sinks hafter⟩

structure Hands (f : ReceiverFeed) (n : ℕ) (f' : ReceiverFeed) : Prop where
  healthy : f'.Healthy
  format : f'.task.engine.format = f.task.engine.format
  muted : f'.sink.muted = f.sink.muted
  received : f'.sink.bytesReceived = f.sink.bytesReceived + n
  decoded : f'.task.engine.trackBytesDecoded = f.task.engine.trackBytesDecoded + n
  timeline : f'.task.engine.trackPcmTimelineBytes = f.task.engine.trackPcmTimelineBytes +
    if f.sink.muted = true ∨ f.pending + n < RtpReceiverTransport.chunkSize then 0 else n
  pending : f.sink.muted = false →
    f'.pending = (f.pending + n) % RtpReceiverTransport.chunkSize

/-- A chunk is handed on whole. -/
theorem hands_chunk (h : f.Healthy) (input : EngineEnv × List UInt8) (hne : input.2 ≠ [])
    (hle : input.2.length ≤ f.task.engine.chunkSize) :
    Succeeds (f.chunk input) fun f' => f.Hands input.2.length f' := by
  obtain ⟨sink, line, written, hwrite, hmuted, hreceived, htransport, hwire, hzero, hpending⟩ :=
    write_of_healthy h input.2
  obtain ⟨only, honly⟩ := h.sinks
  let env : EngineEnv := { input.1 with
    readPcm := .ok input.2.length
    write := fun _ => .ofResult (.ok written) }
  obtain ⟨hdecodes, hdecoder, hsinks⟩ :=
    @deck_deliverChunk_one env _ _ _ input.2.length honly rfl h.decodes
  have hdelivers := delivers_deliverChunk env input.2.length f.task.engine
  have hheard := @heard_one env _ _ _ input.2.length honly rfl
  have hturn : f.task.turn (.audio env) =
      some { engine := f.task.engine.deliverChunk env input.2.length } := by
    obtain ⟨decoder, hsome⟩ := Option.isSome_iff_exists.mp h.decoder
    obtain ⟨n, hn⟩ : ∃ n, input.2.length = n + 1 :=
      Nat.exists_eq_succ_of_ne_zero (mt List.length_eq_zero_iff.mp hne)
    have hread : env.readPcm = .ok (n + 1) := congrArg Except.ok hn
    have hmin : min (n + 1) f.task.engine.chunkSize = input.2.length := by omega
    unfold turn processAudioChunk
    dsimp only
    rw [h.running, takesAudio_eq, h.decodes, hsome, hread]
    dsimp only
    rw [hmin]
    rfl
  refine ⟨⟨{ engine := f.task.engine.deliverChunk env input.2.length }, sink, line⟩, ?_, ?_⟩
  · grind [chunk]
  · refine ⟨⟨rfl, hdecodes, ?_, ⟨only, hsinks⟩, htransport, hwire⟩, hdelivers.format, hmuted,
      hreceived, hdelivers.decoded, ?_, hpending⟩
    · show (f.task.engine.deliverChunk env input.2.length).decoder.isSome = true
      rw [hdecoder]
      exact h.decoder
    · refine hdelivers.timeline.trans (congrArg (f.task.engine.trackPcmTimelineBytes + ·) ?_)
      by_cases hunheard : f.sink.muted = true ∨
          f.pending + input.2.length < RtpReceiverTransport.chunkSize
      · grind
      · rw [if_neg hunheard, if_pos (hheard.mpr fun hnone => hunheard (hzero.mp hnone))]
        rfl

/-- **What the timeline lacks**: after any chunks, the bytes of those that filled no packet. -/
theorem feed_spec (h : f.Healthy) (inputs : List (EngineEnv × List UInt8))
    (hinputs : ∀ input ∈ inputs, input.2 ≠ [] ∧ input.2.length ≤ f.task.engine.chunkSize) :
    Succeeds (f.feed inputs) fun f' =>
      f'.sink.bytesReceived = f.sink.bytesReceived + (inputs.map (·.2.length)).sum ∧
      f'.task.engine.trackBytesDecoded =
        f.task.engine.trackBytesDecoded + (inputs.map (·.2.length)).sum ∧
      f'.task.engine.trackPcmTimelineBytes + f.sink.held f.pending (inputs.map (·.2.length)) =
        f.task.engine.trackPcmTimelineBytes + (inputs.map (·.2.length)).sum := by
  induction inputs generalizing f with
  | nil =>
    refine .some ⟨rfl, rfl, ?_⟩
    unfold ReceiverAudioSink.held
    split <;> rfl
  | cons input rest ih =>
    obtain ⟨hne, hle⟩ := hinputs input List.mem_cons_self
    obtain ⟨f₁, hchunk, hhands⟩ := hands_chunk h input hne hle
    have hsize : f₁.task.engine.chunkSize = f.task.engine.chunkSize := by
      unfold chunkSize
      rw [hhands.format]
    obtain ⟨f', hfeed, hreceived, hdecoded, htimeline⟩ := ih hhands.healthy fun input' hmem =>
      hsize ▸ hinputs input' (List.mem_cons_of_mem _ hmem)
    refine ⟨f', ?_, ?_, ?_, ?_⟩
    · grind [feed]
    · rw [hreceived, hhands.received, List.map_cons, List.sum_cons, Nat.add_assoc]
    · rw [hdecoded, hhands.decoded, List.map_cons, List.sum_cons, Nat.add_assoc]
    · rw [hhands.timeline] at htimeline
      unfold ReceiverAudioSink.held at htimeline ⊢
      rw [hhands.muted] at htimeline
      rw [List.map_cons, List.sum_cons]
      cases hmuted : f.sink.muted with
      | true =>
        simp only [hmuted, true_or, if_true] at htimeline ⊢
        omega
      | false =>
        rw [hhands.pending hmuted] at htimeline
        grind [Playback.held]

/-- **The timeline tracks the delivery.** From the start of a track on, with one healthy receiver and
whatever chunks are decoded: everything decoded is handed to the sink, and the timeline is within a
packet of it exactly when the chunks that fill no packet have no more bytes than a packet together. -/
theorem timeline_tracks_delivery_iff (h : f.Healthy)
    (hdecoded : f.task.engine.trackBytesDecoded = 0)
    (htimeline : f.task.engine.trackPcmTimelineBytes = 0)
    {inputs : List (EngineEnv × List UInt8)}
    (hinputs : ∀ input ∈ inputs, input.2 ≠ [] ∧ input.2.length ≤ f.task.engine.chunkSize) :
    ∃ f', f.feed inputs = some f' ∧
      f'.task.engine.trackBytesDecoded = (inputs.map (·.2.length)).sum ∧
      f'.sink.bytesReceived = f.sink.bytesReceived + (inputs.map (·.2.length)).sum ∧
      (f'.task.engine.trackBytesDecoded ≤
            f'.task.engine.trackPcmTimelineBytes + RtpReceiverTransport.chunkSize ∧
          f'.task.engine.trackPcmTimelineBytes ≤
            f'.task.engine.trackBytesDecoded + RtpReceiverTransport.chunkSize ↔
        f.sink.held f.pending (inputs.map (·.2.length)) ≤ RtpReceiverTransport.chunkSize) := by
  obtain ⟨f', hfeed, hreceived, hbytes, hlacks⟩ := feed_spec h inputs hinputs
  rw [hdecoded, Nat.zero_add] at hbytes
  rw [htimeline, Nat.zero_add] at hlacks
  refine ⟨f', hfeed, hbytes, hreceived, ?_⟩
  rw [hbytes]
  omega

def kitchenFeed : ReceiverFeed where
  task := (run (start {} 0) (kitchenChunks 0)).get rfl
  sink := { receiverId := "kitchen" }
  line := (some { targetAddr := "kitchen:5004", socket := true, ssrc := 7 }, { failure := fun _ => none })

def chunksOf (bytes : ℕ) (n : ℕ) : List (EngineEnv × List UInt8) :=
  List.replicate n ({ now := 1 }, List.replicate bytes 0)

theorem healthy_kitchenFeed : kitchenFeed.Healthy :=
  ⟨rfl, rfl, rfl, ⟨_, rfl⟩, ⟨_, rfl, rfl⟩, fun _ => rfl⟩

theorem chunksOf_fit {bytes : ℕ} (n : ℕ) (hpos : 0 < bytes) (hle : bytes ≤ 1920) :
    ∀ input ∈ chunksOf bytes n,
      input.2 ≠ [] ∧ input.2.length ≤ kitchenFeed.task.engine.chunkSize := by
  intro input hmem
  obtain ⟨-, rfl⟩ := List.mem_replicate.mp hmem
  have hsize : kitchenFeed.task.engine.chunkSize = 1920 := by decide +kernel
  grind

/-- The decoder fills its buffer every time. -/
theorem timeline_tracks_delivery_whole :
    ∃ f', kitchenFeed.feed (chunksOf 1920 3) = some f' ∧
      f'.task.engine.trackBytesDecoded ≤
        f'.task.engine.trackPcmTimelineBytes + RtpReceiverTransport.chunkSize := by
  obtain ⟨f', hfeed, -, -, hiff⟩ := timeline_tracks_delivery_iff healthy_kitchenFeed rfl rfl
    (@chunksOf_fit 1920 3 (by decide) (by decide))
  exact ⟨f', hfeed, (hiff.mpr (by decide +kernel)).1⟩

/-- The decoder's buffer is filled by half each time: every second chunk fills no packet, and after six
of them the timeline lacks 3000 of the 6000 bytes, which are all but 240 of them sent. -/
theorem timeline_lacks_every_second_chunk :
    ∃ f', kitchenFeed.feed (chunksOf 1000 6) = some f' ∧
      f'.task.engine.trackBytesDecoded = 6000 ∧
      f'.task.engine.trackPcmTimelineBytes = 3000 := by
  obtain ⟨f', hfeed, -, hdecoded, htimeline⟩ := feed_spec healthy_kitchenFeed (chunksOf 1000 6)
    (chunksOf_fit 6 (by decide) (by decide))
  have hheld : kitchenFeed.sink.held kitchenFeed.pending ((chunksOf 1000 6).map (·.2.length)) = 3000 := by
    decide +kernel
  have hsum : ((chunksOf 1000 6).map (·.2.length)).sum = 6000 := by decide +kernel
  have hfresh : kitchenFeed.task.engine.trackBytesDecoded = 0 ∧
      kitchenFeed.task.engine.trackPcmTimelineBytes = 0 := ⟨rfl, rfl⟩
  grind

end ReceiverFeed

end MichiServer.Playback
