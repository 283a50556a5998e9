import Mathlib.Data.Nat.Notation
import Mathlib.Data.Nat.ModEq
import MichiServer.Files.Patch

/-!
# The RTP transport of a receiver

`RtpReceiverTransport` of `transport.rs`: PCM is buffered, cut into chunks of 1920 bytes, and each
chunk is sent as one RTP packet. The socket is the `Wire`, which says of every send whether it fails,
and keeps what was sent. When a packet is due is left out: no field that is read here depends on it.
-/

namespace MichiServer.Receivers

inductive TransportError where
  | alreadyActive
  | noSession
  | unreachable (text : String)
  | capabilityMismatch (text : String)
  | protocol (text : String)
  | other (text : String)

structure TransportStreamConfig where
  codec : String
  sampleRate : ℕ
  bitDepth : ℕ
  channels : ℕ
  packetMs : ℕ
deriving DecidableEq

def TransportStreamConfig.receiverV1LiteDefault : TransportStreamConfig where
  codec := "pcm_s16le"
  sampleRate := 48000
  bitDepth := 16
  channels := 2
  packetMs := 10

/-- `RtpReceiverTransport`. The socket is bound and connected, or there is none; the handle is its
session id. -/
structure RtpReceiverTransport where
  targetAddr : String
  socket : Bool := false
  config : Option TransportStreamConfig := none
  handle : Option String := none
  sequenceNumber : UInt16 := 0
  timestamp : UInt32 := 0
  ssrc : UInt32
  payloadType : UInt8 := 97
  pendingPcm : List UInt8 := []
  packetsSent : ℕ := 0
  bytesSent : ℕ := 0
  sendErrors : ℕ := 0

/-- The connected socket: what the `n`-th send fails with, if it fails, how many sends there were, and
the packets that were sent. -/
structure Wire where
  failure : ℕ → Option String
  attempts : ℕ := 0
  sent : List (List UInt8) := []

def Wire.send (w : Wire) (packet : List UInt8) : Except String Unit × Wire :=
  match w.failure w.attempts with
  | none => (.ok (), { w with attempts := w.attempts + 1, sent := w.sent ++ [packet] })
  | some e => (.error e, { w with attempts := w.attempts + 1 })

theorem Wire.send_of_none {w : Wire} (h : w.failure w.attempts = none) (packet : List UInt8) :
    w.send packet =
      (.ok (), { w with attempts := w.attempts + 1, sent := w.sent ++ [packet] }) := by
  rw [Wire.send, h]

theorem Wire.send_of_some {w : Wire} {e : String} (h : w.failure w.attempts = some e)
    (packet : List UInt8) : w.send packet = (.error e, { w with attempts := w.attempts + 1 }) := by
  rw [Wire.send, h]

def toBeBytesU16 (n : UInt16) : List UInt8 := [(n >>> 8).toUInt8, n.toUInt8]

def toBeBytesU32 (n : UInt32) : List UInt8 :=
  [(n >>> 24).toUInt8, (n >>> 16).toUInt8, (n >>> 8).toUInt8, n.toUInt8]

namespace RtpReceiverTransport

def new (targetAddr : String) (ssrc : UInt32) : RtpReceiverTransport where
  targetAddr := targetAddr
  ssrc := ssrc

def buildRtpPacket (payloadType : UInt8) (sequenceNumber : UInt16) (timestamp ssrc : UInt32)
    (marker : Bool) (payload : List UInt8) : List UInt8 :=
  let mPt := if marker then 0x80 ||| (payloadType &&& 0x7F) else payloadType &&& 0x7F
  [0x80, mPt] ++ toBeBytesU16 sequenceNumber ++ toBeBytesU32 timestamp ++
    toBeBytesU32 ssrc ++ payload

/-- `start`, with the answer of the socket, the new session id and the two random numbers. -/
def start (t : RtpReceiverTransport) (config : TransportStreamConfig) (bound : Except String Unit)
    (sessionId : String) (sequenceNumber : UInt16) (timestamp : UInt32) :
    RtpReceiverTransport × Except TransportError String :=
  if t.handle.isSome then (t, .error .alreadyActive)
  else if config ≠ .receiverV1LiteDefault then
    (t, .error (.capabilityMismatch
      (s!"unsupported receiver-v1-lite config: codec={config.codec}, sr={config.sampleRate}, " ++
        s!"bd={config.bitDepth}, ch={config.channels}, packet_ms={config.packetMs}")))
  else
    match bound with
    | .error e => (t, .error (.unreachable e))
    | .ok () =>
      ({ t with
          socket := true
          config := some config
          handle := some sessionId
          sequenceNumber := sequenceNumber
          timestamp := timestamp
          pendingPcm := []
          packetsSent := 0
          bytesSent := 0
          sendErrors := 0 }, .ok sessionId)

def chunkSize : ℕ := 1920

/-- The loop of `write_pcm`. A chunk is drained before it is sent, and a send that fails ends the loop
before the sequence number and the timestamp go on. -/
def sendPending (t : RtpReceiverTransport) (w : Wire) (packetsSent : ℕ) :
    (RtpReceiverTransport × Wire) × Except TransportError ℕ :=
  if chunkSize ≤ t.pendingPcm.length then
    let chunk := t.pendingPcm.take chunkSize
    let packet := buildRtpPacket t.payloadType t.sequenceNumber t.timestamp t.ssrc false chunk
    match w.send packet with
    | (.ok (), w') =>
      sendPending
        { t with
          pendingPcm := t.pendingPcm.drop chunkSize
          packetsSent := t.packetsSent + 1
          bytesSent := t.bytesSent + chunk.length
          sequenceNumber := t.sequenceNumber + 1
          timestamp := t.timestamp + 480 }
        w' (packetsSent + 1)
    | (.error e, w') =>
      (({ t with
          pendingPcm := t.pendingPcm.drop chunkSize
          sendErrors := t.sendErrors + 1 }, w'), .error (.other e))
  else ((t, w), .ok (packetsSent * chunkSize))
termination_by t.pendingPcm.length
decreasing_by
  simp only [List.length_drop, chunkSize] at *
  omega

def writePcm (t : RtpReceiverTransport) (pcmData : List UInt8) (w : Wire) :
    (RtpReceiverTransport × Wire) × Except TransportError ℕ :=
  if t.socket then sendPending { t with pendingPcm := t.pendingPcm ++ pcmData } w 0
  else ((t, w), .error .noSession)

def writeAll (t : RtpReceiverTransport) (w : Wire) (writes : List (List UInt8)) :
    RtpReceiverTransport × Wire :=
  writes.foldl (fun s pcmData => (s.1.writePcm pcmData s.2).1) (t, w)

end RtpReceiverTransport

/-!
## What a receiver hears

The sends of a transport number the chunks of the input: the `k`-th send is of the `k`-th chunk,
whether it fails or not. Its packet should bear the number `k`; it bears the number of the sends
before it that did not fail, and the two agree modulo the widths of the sequence number and of the
timestamp exactly when the number of failures is a multiple of `2 ^ 27`.
-/

open Files

/-! ## Packets -/

theorem toBeBytesU16_inj {a b : UInt16} (h : toBeBytesU16 a = toBeBytesU16 b) : a = b := by
  simp only [toBeBytesU16, List.cons.injEq, and_true] at h
  obtain ⟨hhigh, hlow⟩ := h
  have hhigh := congrArg UInt8.toNat hhigh
  have hlow := congrArg UInt8.toNat hlow
  simp only [UInt16.toNat_toUInt8, UInt16.toNat_shiftRight, Nat.shiftRight_eq_div_pow] at hhigh hlow
  have ha := a.toNat_lt
  have hb := b.toNat_lt
  apply UInt16.toNat_inj.mp
  grind

/-- A word is told by its bytes. -/
theorem toBeBytesU32_inj {a b : UInt32} (h : toBeBytesU32 a = toBeBytesU32 b) : a = b := by
  simp only [toBeBytesU32, List.cons.injEq, and_true] at h
  obtain ⟨h₃, h₂, h₁, h₀⟩ := h
  have h₃ := congrArg UInt8.toNat h₃
  have h₂ := congrArg UInt8.toNat h₂
  have h₁ := congrArg UInt8.toNat h₁
  have h₀ := congrArg UInt8.toNat h₀
  have e₃ : (24 : UInt32).toNat % 32 = 24 := rfl
  have e₂ : (16 : UInt32).toNat % 32 = 16 := rfl
  have e₁ : (8 : UInt32).toNat % 32 = 8 := rfl
  simp only [UInt32.toNat_toUInt8, UInt32.toNat_shiftRight, Nat.shiftRight_eq_div_pow, e₁, e₂, e₃] at *
  -- the quotients agree from the top byte down
  have none : a.toNat / 2 ^ 32 = b.toNat / 2 ^ 32 := by
    rw [Nat.div_eq_of_lt a.toNat_lt, Nat.div_eq_of_lt b.toNat_lt]
  have first : a.toNat / 2 ^ 24 = b.toNat / 2 ^ 24 :=
    Nat.ext_div_mod (by rw [Nat.div_div_eq_div_mul, Nat.div_div_eq_div_mul]; exact none) h₃
  have second : a.toNat / 2 ^ 16 = b.toNat / 2 ^ 16 :=
    Nat.ext_div_mod (by rw [Nat.div_div_eq_div_mul, Nat.div_div_eq_div_mul]; exact first) h₂
  have third : a.toNat / 2 ^ 8 = b.toNat / 2 ^ 8 :=
    Nat.ext_div_mod (by rw [Nat.div_div_eq_div_mul, Nat.div_div_eq_div_mul]; exact second) h₁
  exact UInt32.toNat_inj.mp (Nat.ext_div_mod third h₀)

namespace RtpReceiverTransport

theorem buildRtpPacket_inj {pt : UInt8} {s s' : UInt16} {ts ts' ssrc : UInt32} {marker : Bool}
    {payload : List UInt8}
    (h : buildRtpPacket pt s ts ssrc marker payload =
      buildRtpPacket pt s' ts' ssrc marker payload) : s = s' ∧ ts = ts' := by
  simp only [buildRtpPacket, List.append_assoc, List.append_cancel_left_eq] at h
  obtain ⟨hs, hrest⟩ := List.append_inj h rfl
  obtain ⟨hts, -⟩ := List.append_inj hrest rfl
  exact ⟨toBeBytesU16_inj hs, toBeBytesU32_inj hts⟩

end RtpReceiverTransport

/-! ## The stream -/

section

variable (failure : ℕ → Option String)

def failuresBefore (k : ℕ) : ℕ := (List.range k).countP fun j => (failure j).isSome

def sentBefore (k : ℕ) : ℕ := (List.range k).countP fun j => (failure j).isNone

theorem sentBefore_of_none {k : ℕ} (h : failure k = none) :
    sentBefore failure (k + 1) = sentBefore failure k + 1 := by
  simp [sentBefore, List.range_succ, h]

theorem sentBefore_of_some {k : ℕ} {e : String} (h : failure k = some e) :
    sentBefore failure (k + 1) = sentBefore failure k := by
  simp [sentBefore, List.range_succ, h]

theorem sentBefore_add_failuresBefore (k : ℕ) :
    sentBefore failure k + failuresBefore failure k = k := by
  induction k with
  | zero => rfl
  | succ k ih =>
    simp only [sentBefore, failuresBefore, List.range_succ, List.countP_append,
      List.countP_singleton] at ih ⊢
    cases failure k <;> simp <;> omega

end

def chunk (bytes : List UInt8) (k : ℕ) : List UInt8 :=
  slice bytes (RtpReceiverTransport.chunkSize * k) RtpReceiverTransport.chunkSize

structure StreamStart where
  sequenceNumber : UInt16
  timestamp : UInt32
  ssrc : UInt32

namespace StreamStart

def packet (s : StreamStart) (n : ℕ) (payload : List UInt8) : List UInt8 :=
  RtpReceiverTransport.buildRtpPacket 97 (s.sequenceNumber + .ofNat n)
    (s.timestamp + .ofNat (480 * n)) s.ssrc false payload

def packets (s : StreamStart) (failure : ℕ → Option String) (bytes : List UInt8) (number : ℕ → ℕ)
    (sends : ℕ) : List (List UInt8) :=
  ((List.range sends).filter fun k => (failure k).isNone).map fun k =>
    s.packet (number k) (chunk bytes k)

section

variable {s : StreamStart} {failure : ℕ → Option String} {bytes : List UInt8} {number : ℕ → ℕ}
  {sends : ℕ}

theorem packets_of_none (h : failure sends = none) :
    s.packets failure bytes number (sends + 1) =
      s.packets failure bytes number sends ++ [s.packet (number sends) (chunk bytes sends)] := by
  simp [packets, List.range_succ, List.filter_append, h]

theorem packets_of_some {e : String} (h : failure sends = some e) :
    s.packets failure bytes number (sends + 1) = s.packets failure bytes number sends := by
  simp [packets, List.range_succ, List.filter_append, h]

end

end StreamStart

/-- **Payload integrity.** The `k`-th send is of the packet that bears the number `k` and carries the
`k`-th chunk, a send that fails leaves its number out, and the chunks followed by what is pending are
the input. -/
structure PayloadIntegrity (s : StreamStart) (failure : ℕ → Option String) (bytes : List UInt8)
    (r : RtpReceiverTransport × Wire) : Prop where
  sent : r.2.sent = s.packets failure bytes id r.2.attempts
  input : (List.range r.2.attempts).flatMap (chunk bytes) ++ r.1.pendingPcm = bytes

/-- What a transport in use is, after it was given the input: as `PayloadIntegrity`, with the numbers
that the transport gives. -/
structure Streaming (s : StreamStart) (failure : ℕ → Option String) (bytes : List UInt8)
    (t : RtpReceiverTransport) (w : Wire) : Prop where
  socket : t.socket = true
  payloadType : t.payloadType = 97
  ssrc : t.ssrc = s.ssrc
  wire : w.failure = failure
  drained : RtpReceiverTransport.chunkSize * w.attempts ≤ bytes.length
  pending : t.pendingPcm = bytes.drop (RtpReceiverTransport.chunkSize * w.attempts)
  sequenceNumber : t.sequenceNumber = s.sequenceNumber + .ofNat (sentBefore failure w.attempts)
  timestamp : t.timestamp = s.timestamp + .ofNat (480 * sentBefore failure w.attempts)
  sent : w.sent = s.packets failure bytes (sentBefore failure) w.attempts

namespace Streaming

open RtpReceiverTransport

variable {s : StreamStart} {failure : ℕ → Option String} {bytes : List UInt8}
  {t : RtpReceiverTransport} {w : Wire}

theorem chunk_append {k : ℕ} (h : chunkSize * (k + 1) ≤ bytes.length) (more : List UInt8) :
    chunk (bytes ++ more) k = chunk bytes k := by
  grind [chunkSize, chunk, slice]

/-- More bytes may be taken in. -/
theorem append (h : Streaming s failure bytes t w) (more : List UInt8) :
    Streaming s failure (bytes ++ more) { t with pendingPcm := t.pendingPcm ++ more } w where
  socket := h.socket
  payloadType := h.payloadType
  ssrc := h.ssrc
  wire := h.wire
  drained := by
    have hdrained := h.drained
    rw [List.length_append]
    omega
  pending := by
    rw [List.drop_append_of_le_length h.drained, h.pending]
  sequenceNumber := h.sequenceNumber
  timestamp := h.timestamp
  sent := by
    rw [h.sent]
    refine List.map_congr_left fun k hk => ?_
    have hlt : k < w.attempts := List.mem_range.mp (List.mem_of_mem_filter hk)
    have hle : chunkSize * (k + 1) ≤ chunkSize * w.attempts := Nat.mul_le_mul_left _ hlt
    rw [chunk_append (Nat.le_trans hle h.drained)]

theorem head_chunk (h : Streaming s failure bytes t w) :
    t.pendingPcm.take chunkSize = chunk bytes w.attempts := by
  rw [h.pending]
  rfl

theorem drained_succ (h : Streaming s failure bytes t w)
    (hlen : chunkSize ≤ t.pendingPcm.length) :
    chunkSize * (w.attempts + 1) ≤ bytes.length := by
  have hdrained := h.drained
  rw [h.pending, List.length_drop] at hlen
  rw [Nat.mul_succ]
  omega

theorem pending_succ (h : Streaming s failure bytes t w) :
    t.pendingPcm.drop chunkSize = bytes.drop (chunkSize * (w.attempts + 1)) := by
  rw [h.pending, List.drop_drop, Nat.mul_succ]

/-- A chunk that is sent is one packet more. -/
theorem sent_chunk (h : Streaming s failure bytes t w)
    (hlen : chunkSize ≤ t.pendingPcm.length) (hsent : failure w.attempts = none) :
    Streaming s failure bytes
      { t with
        pendingPcm := t.pendingPcm.drop chunkSize
        packetsSent := t.packetsSent + 1
        bytesSent := t.bytesSent + (t.pendingPcm.take chunkSize).length
        sequenceNumber := t.sequenceNumber + 1
        timestamp := t.timestamp + 480 }
      { w with
        attempts := w.attempts + 1
        sent := w.sent ++ [buildRtpPacket t.payloadType t.sequenceNumber t.timestamp t.ssrc
          false (t.pendingPcm.take chunkSize)] } where
  socket := h.socket
  payloadType := h.payloadType
  ssrc := h.ssrc
  wire := h.wire
  drained := h.drained_succ hlen
  pending := h.pending_succ
  sequenceNumber := by
    rw [h.sequenceNumber, sentBefore_of_none failure hsent, UInt16.ofNat_add, UInt16.add_assoc]
    rfl
  timestamp := by
    rw [h.timestamp, sentBefore_of_none failure hsent, Nat.mul_succ, UInt32.ofNat_add,
      UInt32.add_assoc]
    rfl
  sent := by
    rw [StreamStart.packets_of_none hsent, h.sent, h.head_chunk, h.payloadType, h.ssrc,
      h.sequenceNumber, h.timestamp]
    rfl

theorem lost_chunk (h : Streaming s failure bytes t w)
    (hlen : chunkSize ≤ t.pendingPcm.length) {e : String}
    (hfailed : failure w.attempts = some e) :
    Streaming s failure bytes
      { t with
        pendingPcm := t.pendingPcm.drop chunkSize
        sendErrors := t.sendErrors + 1 }
      { w with attempts := w.attempts + 1 } where
  socket := h.socket
  payloadType := h.payloadType
  ssrc := h.ssrc
  wire := h.wire
  drained := h.drained_succ hlen
  pending := h.pending_succ
  sequenceNumber := by rw [sentBefore_of_some failure hfailed]; exact h.sequenceNumber
  timestamp := by rw [sentBefore_of_some failure hfailed]; exact h.timestamp
  sent := by rw [StreamStart.packets_of_some hfailed]; exact h.sent

theorem sendPending (h : Streaming s failure bytes t w) (n : ℕ) :
    Streaming s failure bytes (t.sendPending w n).1.1 (t.sendPending w n).1.2 := by
  fun_induction RtpReceiverTransport.sendPending t w n with
  | case1 t w n hlen chunk packet w' hsend ih =>
    cases hfate : w.failure w.attempts with
    | none =>
      rw [Wire.send_of_none hfate] at hsend
      cases hsend
      exact ih (h.sent_chunk hlen (h.wire ▸ hfate))
    | some e =>
      rw [Wire.send_of_some hfate] at hsend
      cases hsend
  | case2 t w n hlen chunk packet e w' hsend =>
    cases hfate : w.failure w.attempts with
    | none =>
      rw [Wire.send_of_none hfate] at hsend
      cases hsend
    | some e' =>
      rw [Wire.send_of_some hfate] at hsend
      cases hsend
      exact h.lost_chunk hlen (h.wire ▸ hfate)
  | case3 t w n hlen => exact h

theorem writePcm (h : Streaming s failure bytes t w) (pcmData : List UInt8) :
    Streaming s failure (bytes ++ pcmData) (t.writePcm pcmData w).1.1
      (t.writePcm pcmData w).1.2 := by
  rw [RtpReceiverTransport.writePcm, if_pos h.socket]
  exact (h.append pcmData).sendPending 0

theorem writeAll (h : Streaming s failure bytes t w) (writes : List (List UInt8)) :
    Streaming s failure (bytes ++ writes.flatten) (t.writeAll w writes).1
      (t.writeAll w writes).2 := by
  induction writes generalizing bytes t w with
  | nil => simpa [RtpReceiverTransport.writeAll] using h
  | cons pcmData rest ih =>
    rw [List.flatten_cons, ← List.append_assoc]
    exact ih (h.writePcm pcmData)

theorem input (h : Streaming s failure bytes t w) :
    (List.range w.attempts).flatMap (chunk bytes) ++ t.pendingPcm = bytes := by
  rw [h.pending]
  have hchunks : ∀ n, chunkSize * n ≤ bytes.length →
      (List.range n).flatMap (chunk bytes) = bytes.take (chunkSize * n) := by
    intro n
    induction n with
    | zero => simp
    | succ n ih =>
      intro hn
      rw [Nat.mul_succ] at hn
      rw [List.range_succ, List.flatMap_append, ih (by omega), Nat.mul_succ, List.take_add]
      simp [chunk, slice]
  rw [hchunks w.attempts h.drained, List.take_append_drop]

end Streaming

/-! ## Payload integrity -/

/-- Two packets of one payload are the same exactly where their numbers are, modulo 2^27. -/
theorem StreamStart.packet_eq_iff (s : StreamStart) (a b : ℕ) (payload : List UInt8) :
    s.packet a payload = s.packet b payload ↔ a % 2 ^ 27 = b % 2 ^ 27 := by
  constructor
  · intro h
    obtain ⟨-, htimestamp⟩ := RtpReceiverTransport.buildRtpPacket_inj h
    have hnat := congrArg UInt32.toNat (UInt32.add_right_inj s.timestamp |>.mp htimestamp)
    simp only [UInt32.toNat_ofNat'] at hnat
    -- of the 480 samples of a chunk, 32 go into the modulus and 15 are prime to it
    have hscaled : Nat.ModEq (32 * 2 ^ 27) (32 * (15 * a)) (32 * (15 * b)) := by
      rw [← Nat.mul_assoc, ← Nat.mul_assoc]
      exact hnat
    have hodd : Nat.ModEq (2 ^ 27) (15 * a) (15 * b) := Nat.ModEq.mul_left_cancel' (by decide) hscaled
    exact Nat.ModEq.cancel_left_of_coprime (by decide) hodd
  · intro h
    have hseq : UInt16.ofNat a = UInt16.ofNat b := by
      apply UInt16.toNat_inj.mp
      simp only [UInt16.toNat_ofNat']
      omega
    have htimestamp : UInt32.ofNat (480 * a) = UInt32.ofNat (480 * b) := by
      apply UInt32.toNat_inj.mp
      simp only [UInt32.toNat_ofNat']
      omega
    rw [packet, packet, hseq, htimestamp]

theorem Streaming.integrity_iff {s : StreamStart} {failure : ℕ → Option String}
    {bytes : List UInt8} {t : RtpReceiverTransport} {w : Wire} (h : Streaming s failure bytes t w) :
    PayloadIntegrity s failure bytes (t, w) ↔
      ∀ k < w.attempts, failure k = none → 2 ^ 27 ∣ failuresBefore failure k := by
  have hpackets : w.sent = s.packets failure bytes id w.attempts ↔
      ∀ k < w.attempts, failure k = none →
        sentBefore failure k % 2 ^ 27 = k % 2 ^ 27 := by
    rw [h.sent, StreamStart.packets, StreamStart.packets, List.map_inj_left]
    simp [StreamStart.packet_eq_iff]
  have hcount : ∀ k, sentBefore failure k % 2 ^ 27 = k % 2 ^ 27 ↔
      2 ^ 27 ∣ failuresBefore failure k := by
    intro k
    have hsum := sentBefore_add_failuresBefore failure k
    omega
  simp only [hcount] at hpackets
  exact ⟨fun hp => hpackets.mp hp.sent, fun hk => ⟨hpackets.mpr hk, h.input⟩⟩

def started (targetAddr sessionId : String) (s : StreamStart) : RtpReceiverTransport :=
  ((RtpReceiverTransport.new targetAddr s.ssrc).start .receiverV1LiteDefault (.ok ())
    sessionId s.sequenceNumber s.timestamp).1

theorem started_streaming (targetAddr sessionId : String) (s : StreamStart)
    (failure : ℕ → Option String) :
    Streaming s failure [] (started targetAddr sessionId s) { failure := failure } := by
  constructor <;> simp [started, RtpReceiverTransport.start, RtpReceiverTransport.new,
    StreamStart.packets, sentBefore]

/-- **The stream of a session.** After any calls of `write_pcm` and with any failures of the socket,
the packets have payload integrity exactly when every packet that was sent comes after a multiple of
`2 ^ 27` sends that failed: after none, as long as the timestamp has not wrapped. -/
theorem payload_integrity_iff (targetAddr sessionId : String) (s : StreamStart)
    (failure : ℕ → Option String) (writes : List (List UInt8)) :
    PayloadIntegrity s failure writes.flatten
        ((started targetAddr sessionId s).writeAll { failure := failure } writes) ↔
      ∀ k < ((started targetAddr sessionId s).writeAll { failure := failure } writes).2.attempts,
        failure k = none → 2 ^ 27 ∣ failuresBefore failure k :=
  ((started_streaming targetAddr sessionId s failure).writeAll writes).integrity_iff

theorem writeChunk {t : RtpReceiverTransport} {w : Wire} {pcmData : List UInt8}
    (hsocket : t.socket = true) (hpending : t.pendingPcm = [])
    (hlen : pcmData.length = RtpReceiverTransport.chunkSize) :
    (t.writePcm pcmData w).1.1.socket = true ∧ (t.writePcm pcmData w).1.1.pendingPcm = [] ∧
      (t.writePcm pcmData w).1.2.attempts = w.attempts + 1 := by
  have hdrop : pcmData.drop RtpReceiverTransport.chunkSize = [] := by rw [← hlen, List.drop_length]
  rw [RtpReceiverTransport.writePcm, if_pos hsocket, RtpReceiverTransport.sendPending]
  simp only [hpending, List.nil_append, hlen, Nat.le_refl, if_true, hdrop]
  cases hfate : w.failure w.attempts with
  | none =>
    grind [Wire.send_of_none, RtpReceiverTransport.sendPending, RtpReceiverTransport.chunkSize]
  | some e =>
    simp only [Wire.send_of_some hfate]
    simp [hsocket]

theorem write_chunks {t : RtpReceiverTransport} {w : Wire} (hsocket : t.socket = true)
    (hpending : t.pendingPcm = []) {writes : List (List UInt8)}
    (hlen : ∀ pcmData ∈ writes, pcmData.length = RtpReceiverTransport.chunkSize) :
    (t.writeAll w writes).2.attempts = w.attempts + writes.length := by
  induction writes generalizing t w with
  | nil => rfl
  | cons pcmData rest ih =>
    obtain ⟨hsocket', hpending', hattempts⟩ :=
      writeChunk (w := w) hsocket hpending (hlen pcmData (List.mem_cons_self ..))
    have hrest := ih (w := (t.writePcm pcmData w).1.2) hsocket' hpending'
      fun other hother => hlen other (List.mem_cons_of_mem _ hother)
    rw [hattempts] at hrest
    rw [List.length_cons, Nat.add_comm rest.length 1, ← Nat.add_assoc]
    exact hrest

/-- Two chunks are written and the first send fails: the second chunk is sent under the number of the
first, and no number is missing. -/
theorem lost_chunk_is_renumbered :
    ¬ ∀ targetAddr sessionId s failure writes, PayloadIntegrity s failure writes.flatten
      ((started targetAddr sessionId s).writeAll { failure := failure } writes) := by
  intro h
  let silence : List UInt8 := List.replicate RtpReceiverTransport.chunkSize 0
  let failure : ℕ → Option String := fun k => if k = 0 then some "network unreachable" else none
  have hintegrity := h "127.0.0.1:9000" "session" ⟨0, 0, 0⟩ failure [silence, silence]
  have hstreaming := (started_streaming "127.0.0.1:9000" "session" ⟨0, 0, 0⟩ failure).writeAll
    [silence, silence]
  have hattempts : ((started "127.0.0.1:9000" "session" ⟨0, 0, 0⟩).writeAll
      { failure := failure } [silence, silence]).2.attempts = 2 := by
    refine write_chunks rfl rfl fun pcmData hmem => ?_
    grind
  have hwraps := hstreaming.integrity_iff.mp hintegrity 1 (by rw [hattempts]; decide) rfl
  exact absurd hwraps (by decide)

end MichiServer.Receivers
