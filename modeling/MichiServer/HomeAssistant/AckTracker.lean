import Mathlib.Data.Finset.Card
import MichiServer.Basic
import MichiServer.Logic.Trace

/-!
# What the broker has acknowledged

When the broker accepts a connection, one publication for each entity is handed to the client, and after
them those of the states. A packet goes out under an id that the broker's acknowledgement names, and ids
come again once they are acknowledged. `MqttAckTracker` keeps the ids, sorted into two sets as they go
out, and the event loop says that discovery is published when the tracker says that it is completed.

What the tracker is for is said of the ledger of the packets since the connection: discovery is through
when the first packets, one for each entity, are all acknowledged. `Tracks` relates the two, and no
order of the acknowledgements tells them apart.
-/

namespace MichiServer.HomeAssistant

open MichiServer.Logic

structure MqttAckTracker where
  discoveryPkids : Finset UInt16
  statePkids : Finset UInt16
  discoveryInFlight : Bool
  expectedDiscoveryCount : ℕ
  ackedDiscoveryCount : ℕ
deriving DecidableEq

inductive AckOutcome where
  | discoveryProgress (acked total : ℕ)
  | discoveryCompleted
  | stateAcknowledged
  | unclassified
deriving DecidableEq

namespace MqttAckTracker

def new : MqttAckTracker := ⟨∅, ∅, false, 0, 0⟩

/-- Every field is written. -/
def onDiscoveryBatchStart (expectedCount : ℕ) : MqttAckTracker :=
  ⟨∅, ∅, decide (expectedCount > 0), expectedCount, 0⟩

def onOutgoingPublish (t : MqttAckTracker) (pkid : UInt16) : MqttAckTracker :=
  if t.discoveryInFlight ∧
      t.discoveryPkids.card + t.ackedDiscoveryCount < t.expectedDiscoveryCount then
    { t with discoveryPkids := insert pkid t.discoveryPkids }
  else { t with statePkids := insert pkid t.statePkids }

def onPuback (t : MqttAckTracker) (pkid : UInt16) : AckOutcome × MqttAckTracker :=
  if pkid ∈ t.discoveryPkids then
    let pkids := t.discoveryPkids.erase pkid
    let acked := t.ackedDiscoveryCount + 1
    if acked ≥ t.expectedDiscoveryCount ∧ pkids = ∅ then
      (.discoveryCompleted,
        { t with discoveryPkids := pkids, ackedDiscoveryCount := acked, discoveryInFlight := false })
    else
      (.discoveryProgress acked t.expectedDiscoveryCount,
        { t with discoveryPkids := pkids, ackedDiscoveryCount := acked })
  else if pkid ∈ t.statePkids then
    (.stateAcknowledged, { t with statePkids := t.statePkids.erase pkid })
  else (.unclassified, t)

/-- Every field is written. -/
def onDisconnect : MqttAckTracker := ⟨∅, ∅, false, 0, 0⟩

end MqttAckTracker

/-- The part of `HaRuntimeStatus` that the event loop writes. -/
structure HaRuntimeStatus where
  connected : Bool
  discoveryPublished : Bool
  lastPublishedAt : Option DateTime
  lastError : Option String
deriving DecidableEq

/-- The object ids of `entities`. -/
def entities : List String :=
  ["track_title", "artist", "album", "playback_status", "volume", "track_duration",
    "playback_position", "server_status", "play_pause", "play", "pause", "stop", "next_track",
    "previous_track", "volume_set"]

/-- `publish` is what the client answers for each entity; every failure is counted and the last one
reported. -/
def publishDiscovery (publish : String → Except String Unit) : Except String Unit :=
  let errors := entities.filterMap fun objectId =>
    match publish objectId with
    | .ok () => none
    | .error e => some s!"failed to publish discovery for {objectId}: {e}"
  match errors.getLast? with
  | none => .ok ()
  | some lastErr =>
    .error s!"Discovery publication incomplete ({errors.length} errors, last: {lastErr})"

/-- What `eventloop.poll` gives. A command that is received, a state that is due and every other packet
leave the tracker and the status alone. -/
inductive Notification where
  | connAck (publish : String → Except String Unit)
  | outgoingPublish (pkid : UInt16)
  | pubAck (pkid : UInt16) (now : DateTime)
  | disconnect
  | error (text : String)
  | other

structure HaLoop where
  ackTracker : MqttAckTracker
  status : HaRuntimeStatus
deriving DecidableEq

/-- The status that `run` starts with, and the tracker of the first connection. -/
def HaLoop.start : HaLoop := ⟨.new, ⟨false, false, none, none⟩⟩

/-- One turn of the event loop. An error ends it, and the next connection has a tracker of its own. -/
def HaLoop.poll (s : HaLoop) : Notification → HaLoop
  | .connAck publish =>
    let status := { s.status with connected := true, discoveryPublished := false, lastError := none }
    match publishDiscovery publish with
    | .ok () => ⟨.onDiscoveryBatchStart entities.length, status⟩
    | .error e => ⟨.onDisconnect, { status with discoveryPublished := false, lastError := some e }⟩
  | .outgoingPublish pkid => { s with ackTracker := s.ackTracker.onOutgoingPublish pkid }
  | .pubAck pkid now =>
    let (outcome, tracker) := s.ackTracker.onPuback pkid
    match outcome with
    | .discoveryCompleted =>
      ⟨tracker, if s.status.connected then { s.status with discoveryPublished := true, lastError := none }
        else s.status⟩
    | .stateAcknowledged =>
      ⟨tracker, if s.status.connected then { s.status with lastPublishedAt := some now } else s.status⟩
    | .discoveryProgress _ _ | .unclassified => ⟨tracker, s.status⟩
  | .disconnect => ⟨.onDisconnect, { s.status with connected := false, discoveryPublished := false }⟩
  | .error text =>
    ⟨.new, { s.status with connected := false, discoveryPublished := false, lastError := some text }⟩
  | .other => s

/-! ## The ledger of a connection -/

/-- A packet that went out, and whether it has been acknowledged. -/
structure Sent where
  pkid : UInt16
  acked : Bool
deriving DecidableEq

/-- The packets since the connection, the first one first. -/
abbrev Ledger := List Sent

namespace Ledger

/-- The ids that wait for their acknowledgement. -/
def waiting (l : Ledger) : List UInt16 := (l.filter fun s => !s.acked).map Sent.pkid

def ack : Ledger → UInt16 → Ledger
  | [], _ => []
  | s :: rest, pkid => if s.pkid = pkid ∧ s.acked = false then ⟨pkid, true⟩ :: rest else s :: ack rest pkid

def send (l : Ledger) (pkid : UInt16) : Ledger := l ++ [⟨pkid, false⟩]

/-- The first `n` packets have gone out, and all are acknowledged. -/
def Confirmed (n : ℕ) (l : Ledger) : Prop := (l.take n).countP Sent.acked = n

instance (n : ℕ) (l : Ledger) : Decidable (Confirmed n l) := inferInstanceAs (Decidable (_ = _))

/-- What an acknowledgement is to be answered with, where the first `n` packets are discovery's. -/
def outcome (n : ℕ) (l : Ledger) (pkid : UInt16) : AckOutcome :=
  if pkid ∈ waiting (l.take n) then
    if (l.ack pkid).Confirmed n then .discoveryCompleted
    else .discoveryProgress (((l.ack pkid).take n).countP Sent.acked) n
  else if pkid ∈ waiting (l.drop n) then .stateAcknowledged
  else .unclassified

def record (l : Ledger) : Notification → Ledger
  | .outgoingPublish pkid => l.send pkid
  | .pubAck pkid _ => l.ack pkid
  | _ => l

theorem waiting_append (l l' : Ledger) : waiting (l ++ l') = waiting l ++ waiting l' := by
  simp [waiting]

theorem waiting_send (l : Ledger) (pkid : UInt16) : waiting (l.send pkid) = waiting l ++ [pkid] :=
  waiting_append l _

theorem waiting_take_append_drop (n : ℕ) (l : Ledger) :
    waiting l = waiting (l.take n) ++ waiting (l.drop n) := by
  rw [← waiting_append, List.take_append_drop]

/-- Each packet waits or is acknowledged. -/
theorem length_waiting_add (l : Ledger) : (waiting l).length + l.countP Sent.acked = l.length := by
  induction l with
  | nil => rfl
  | cons s rest ih => cases h : s.acked <;> simp [waiting, h] at ih ⊢ <;> omega

theorem ack_of_not_mem {l : Ledger} {pkid : UInt16} (h : pkid ∉ waiting l) : l.ack pkid = l := by
  induction l with
  | nil => rfl
  | cons s rest ih => grind [ack, waiting]

theorem take_ack (n : ℕ) (l : Ledger) (pkid : UInt16) : (l.ack pkid).take n = ack (l.take n) pkid := by
  induction l generalizing n with
  | nil => simp [ack]
  | cons s rest ih => cases n with grind [ack]

theorem drop_ack (n : ℕ) (l : Ledger) (pkid : UInt16) :
    (l.ack pkid).drop n = if pkid ∈ waiting (l.take n) then l.drop n else ack (l.drop n) pkid := by
  induction l generalizing n with
  | nil => simp [ack, waiting]
  | cons s rest ih =>
    cases n with
    | zero => simp [waiting]
    | succ n =>
      have ih := ih n
      by_cases hs : s.pkid = pkid ∧ s.acked = false
      · simp [ack, hs, waiting]
      · grind [ack, waiting]

theorem waiting_ack (l : Ledger) (pkid : UInt16) : waiting (l.ack pkid) = (waiting l).erase pkid := by
  induction l with
  | nil => rfl
  | cons s rest ih => grind [ack, waiting]

theorem countP_ack {l : Ledger} {pkid : UInt16} (h : pkid ∈ waiting l) :
    (l.ack pkid).countP Sent.acked = l.countP Sent.acked + 1 := by
  induction l with
  | nil => simp [waiting] at h
  | cons s rest ih => grind [ack, waiting]

theorem countP_take_send (n : ℕ) (l : Ledger) (pkid : UInt16) :
    ((l.send pkid).take n).countP Sent.acked = (l.take n).countP Sent.acked := by
  rw [send, List.take_append, List.countP_append, Nat.add_eq_left, List.countP_eq_zero]
  intro s hs
  simp [List.mem_singleton.mp (List.mem_of_mem_take hs)]

theorem confirmed_ack_of_not_mem {n : ℕ} {l : Ledger} {pkid : UInt16} (h : pkid ∉ waiting (l.take n)) :
    (l.ack pkid).Confirmed n ↔ l.Confirmed n := by
  rw [Confirmed, Confirmed, take_ack, ack_of_not_mem h]

end Ledger

open Ledger

/-- The tracker knows of the ledger what it has to. -/
structure Tracks (n : ℕ) (t : MqttAckTracker) (l : Ledger) : Prop where
  expected : t.expectedDiscoveryCount = n
  discovery : t.discoveryPkids = (waiting (l.take n)).toFinset
  state : t.statePkids = (waiting (l.drop n)).toFinset
  acked : t.ackedDiscoveryCount = (l.take n).countP Sent.acked
  inFlight : t.discoveryInFlight = decide ¬ l.Confirmed n

variable {n : ℕ} {t : MqttAckTracker} {l : Ledger}

theorem tracks_batch_start (n : ℕ) : Tracks n (.onDiscoveryBatchStart n) [] where
  expected := rfl
  discovery := by simp [MqttAckTracker.onDiscoveryBatchStart, waiting]
  state := by simp [MqttAckTracker.onDiscoveryBatchStart, waiting]
  acked := by simp [MqttAckTracker.onDiscoveryBatchStart]
  inFlight := by
    refine decide_eq_decide.mpr (Nat.pos_iff_ne_zero.trans (not_congr ?_))
    exact ⟨fun h => h.symm ▸ rfl, fun h => by simpa [Confirmed] using h.symm⟩

theorem nodup_waiting_take (h : (waiting l).Nodup) : (waiting (l.take n)).Nodup :=
  (List.nodup_append.mp (waiting_take_append_drop n l ▸ h)).1

/-- There is room among discovery's packets exactly while fewer have gone out. -/
theorem Tracks.room_iff (h : Tracks n t l) (hdistinct : (waiting l).Nodup) :
    (t.discoveryInFlight = true ∧
      t.discoveryPkids.card + t.ackedDiscoveryCount < t.expectedDiscoveryCount) ↔
      l.length < n := by
  have hcard : t.discoveryPkids.card = (waiting (l.take n)).length := by
    rw [h.discovery, List.toFinset_card_of_nodup (nodup_waiting_take hdistinct)]
  have hcount := length_waiting_add (l.take n)
  rw [List.length_take] at hcount
  rw [hcard, h.acked, h.expected, hcount, h.inFlight, decide_eq_true_eq, Confirmed]
  omega

theorem confirmed_send (n : ℕ) (l : Ledger) (pkid : UInt16) :
    (l.send pkid).Confirmed n ↔ l.Confirmed n := by
  rw [Confirmed, Confirmed, countP_take_send]

/-- The tracker takes an outgoing packet in as the ledger does. -/
theorem Tracks.outgoing (h : Tracks n t l) (hdistinct : (waiting l).Nodup) (pkid : UInt16) :
    Tracks n (t.onOutgoingPublish pkid) (l.send pkid) := by
  have hacked : t.ackedDiscoveryCount = ((l.send pkid).take n).countP Sent.acked := by
    rw [countP_take_send, h.acked]
  have hinFlight : t.discoveryInFlight = decide ¬ (l.send pkid).Confirmed n :=
    h.inFlight.trans (decide_eq_decide.mpr (not_congr (confirmed_send n l pkid).symm))
  rw [MqttAckTracker.onOutgoingPublish]
  by_cases hroom : l.length < n
  · have htake : (l.send pkid).take n = send (l.take n) pkid := by
      rw [List.take_of_length_le (Nat.le_of_lt hroom), List.take_of_length_le]
      simpa [Ledger.send] using Nat.succ_le_of_lt hroom
    have hdrop : (l.send pkid).drop n = l.drop n := by
      rw [List.drop_of_length_le (Nat.le_of_lt hroom), List.drop_of_length_le]
      simpa [Ledger.send] using Nat.succ_le_of_lt hroom
    rw [if_pos ((h.room_iff hdistinct).mpr hroom)]
    refine ⟨h.expected, ?_, by rw [hdrop]; exact h.state, hacked, hinFlight⟩
    rw [htake, waiting_send, h.discovery]
    ext
    simp
  · have hle := Nat.le_of_not_lt hroom
    have htake : (l.send pkid).take n = l.take n := List.take_append_of_le_length hle
    have hdrop : (l.send pkid).drop n = send (l.drop n) pkid := List.drop_append_of_le_length hle
    rw [if_neg (mt (h.room_iff hdistinct).mp hroom)]
    refine ⟨h.expected, by rw [htake]; exact h.discovery, ?_, hacked, hinFlight⟩
    rw [hdrop, waiting_send, h.state]
    ext
    simp

theorem toFinset_erase {ids : List UInt16} (h : ids.Nodup) (pkid : UInt16) :
    (ids.erase pkid).toFinset = ids.toFinset.erase pkid := by
  ext
  simp [h.mem_erase_iff]

/-- What is left of the first packets. -/
theorem confirmed_iff (n : ℕ) (l : Ledger) :
    l.Confirmed n ↔ n ≤ (l.take n).countP Sent.acked ∧ waiting (l.take n) = [] := by
  have hlength := length_waiting_add (l.take n)
  have hle : (l.take n).length ≤ n := List.length_take_le ..
  rw [← List.length_eq_zero_iff, Confirmed]
  omega

/-- An acknowledgement is answered as the ledger has it. -/
theorem Tracks.puback (h : Tracks n t l) (hdistinct : (waiting l).Nodup) (pkid : UInt16) :
    (t.onPuback pkid).1 = l.outcome n pkid ∧ Tracks n (t.onPuback pkid).2 (l.ack pkid) := by
  obtain ⟨hexpected, hdiscovery, hstate, hacked, hinFlight⟩ := h
  rw [waiting_take_append_drop n l] at hdistinct
  obtain ⟨hfirst, hrest, -⟩ := List.nodup_append.mp hdistinct
  have htake := take_ack n l pkid
  have hdrop := drop_ack n l pkid
  by_cases hdisc : pkid ∈ waiting (l.take n)
  · have hcount := countP_ack hdisc
    have hids : t.discoveryPkids.erase pkid = (waiting (ack (l.take n) pkid)).toFinset := by
      rw [waiting_ack, toFinset_erase hfirst, hdiscovery]
    have hbusy : ¬ l.Confirmed n := fun hconfirmed => by
      simp [((confirmed_iff n l).mp hconfirmed).2] at hdisc
    have hdone : (t.ackedDiscoveryCount + 1 ≥ t.expectedDiscoveryCount ∧
        t.discoveryPkids.erase pkid = ∅) ↔ (l.ack pkid).Confirmed n := by
      rw [confirmed_iff, htake, hids, List.toFinset_eq_empty_iff, hexpected, hacked, hcount]
    rw [if_pos hdisc] at hdrop
    have hmem : pkid ∈ t.discoveryPkids := by rwa [hdiscovery, List.mem_toFinset]
    by_cases hconfirmed : (l.ack pkid).Confirmed n
    · have hlast := hdone.mpr hconfirmed
      simp only [MqttAckTracker.onPuback, outcome, if_pos hmem, if_pos hdisc, if_pos hlast, if_pos hconfirmed]
      exact ⟨trivial, hexpected, by rw [htake, hids], by rw [hdrop, hstate], by rw [htake, hcount, hacked],
        by simp [hconfirmed]⟩
    · have hmore := mt hdone.mp hconfirmed
      simp only [MqttAckTracker.onPuback, outcome, if_pos hmem, if_pos hdisc, if_neg hmore, if_neg hconfirmed]
      exact ⟨by rw [htake, hcount, hacked, hexpected], hexpected, by rw [htake, hids], by rw [hdrop, hstate],
        by rw [htake, hcount, hacked], by simp [hinFlight, hbusy, hconfirmed]⟩
  · have hsame := confirmed_ack_of_not_mem hdisc
    rw [if_neg hdisc] at hdrop
    rw [ack_of_not_mem hdisc] at htake
    have hmem : pkid ∉ t.discoveryPkids := by rwa [hdiscovery, List.mem_toFinset]
    have hkept {t' : MqttAckTracker} (h : t' = { t with statePkids := t'.statePkids })
        (h' : t'.statePkids = (waiting (ack (l.drop n) pkid)).toFinset) : Tracks n t' (l.ack pkid) := by
      rw [h]
      exact ⟨hexpected, by rw [htake, hdiscovery], by rw [hdrop, h'], by rw [htake, hacked], by simp [hsame, hinFlight]⟩
    simp only [MqttAckTracker.onPuback, outcome, if_neg hmem, if_neg hdisc, hstate, List.mem_toFinset]
    by_cases hlater : pkid ∈ waiting (l.drop n)
    · simp only [if_pos hlater]
      exact ⟨trivial, hkept rfl (by rw [waiting_ack, toFinset_erase hrest])⟩
    · simp only [if_neg hlater]
      exact ⟨trivial, hkept rfl (by rw [ack_of_not_mem hlater, hstate])⟩

/-! ## A connection -/

/-- The client uses no id that waits for its acknowledgement. -/
def Fresh (l : Ledger) : Notification → Prop
  | .outgoingPublish pkid => pkid ∉ waiting l
  | _ => True

/-- The connection is neither lost nor made anew. -/
def Notification.Connected : Notification → Prop
  | .connAck _ | .disconnect | .error _ => False
  | _ => True

instance (l : Ledger) : (e : Notification) → Decidable (Fresh l e)
  | .outgoingPublish _ => inferInstanceAs (Decidable (_ ∉ _))
  | .connAck _ | .pubAck _ _ | .disconnect | .error _ | .other => .isTrue trivial

instance : (e : Notification) → Decidable e.Connected
  | .connAck _ | .disconnect | .error _ => .isFalse id
  | .outgoingPublish _ | .pubAck _ _ | .other => .isTrue trivial

/-- Where the loop stands after what the ledger records of the connection. -/
structure Follows (s : HaLoop) (l : Ledger) : Prop where
  tracks : Tracks entities.length s.ackTracker l
  distinct : (waiting l).Nodup
  connected : s.status.connected = true
  published : s.status.discoveryPublished = true ↔ l.Confirmed entities.length

variable {s : HaLoop}

/-- Discovery is completed by the acknowledgement that confirms its last packet. -/
theorem outcome_eq_completed_iff (n : ℕ) (l : Ledger) (pkid : UInt16) :
    l.outcome n pkid = .discoveryCompleted ↔ ¬ l.Confirmed n ∧ (l.ack pkid).Confirmed n := by
  by_cases hdisc : pkid ∈ waiting (l.take n)
  · have hbusy : ¬ l.Confirmed n := fun hconfirmed => by
      simp [((confirmed_iff n l).mp hconfirmed).2] at hdisc
    by_cases hconfirmed : (l.ack pkid).Confirmed n <;> simp [outcome, hdisc, hconfirmed, hbusy]
  · rw [outcome, if_neg hdisc, confirmed_ack_of_not_mem hdisc]
    split <;> simp

/-- What is confirmed stays so. -/
theorem Ledger.Confirmed.ack (h : l.Confirmed n) (pkid : UInt16) : (l.ack pkid).Confirmed n :=
  (confirmed_ack_of_not_mem (by simp [((confirmed_iff n l).mp h).2])).mpr h

/-- The loop follows the ledger through each notification of a connection. -/
theorem Follows.poll (h : Follows s l) {e : Notification} (he : e.Connected) (hfresh : Fresh l e) :
    Follows (s.poll e) (l.record e) := by
  cases e with
  | connAck publish => exact he.elim
  | disconnect => exact he.elim
  | error text => exact he.elim
  | other => exact h
  | outgoingPublish pkid =>
    refine ⟨h.tracks.outgoing h.distinct pkid, ?_, h.connected, ?_⟩
    · rw [record, waiting_send]
      exact List.nodup_append.mpr ⟨h.distinct, List.nodup_singleton pkid, by grind [Fresh]⟩
    · exact h.published.trans (confirmed_send _ l pkid).symm
  | pubAck pkid now =>
    obtain ⟨houtcome, htracks⟩ := h.tracks.puback h.distinct pkid
    have hcompleted := outcome_eq_completed_iff entities.length l pkid
    have hdistinct : (waiting (l.ack pkid)).Nodup := by
      rw [waiting_ack]
      exact h.distinct.erase pkid
    have hconnected := h.connected
    -- an acknowledgement that does not complete discovery confirms nothing
    have hkept (hnot : l.outcome entities.length pkid ≠ .discoveryCompleted) :
        s.status.discoveryPublished = true ↔ (l.ack pkid).Confirmed entities.length := by
      refine h.published.trans ⟨fun hconfirmed => hconfirmed.ack pkid, fun hconfirmed => ?_⟩
      by_contra hopen
      exact hnot (hcompleted.mpr ⟨hopen, hconfirmed⟩)
    simp only [HaLoop.poll, record, houtcome]
    cases hout : l.outcome entities.length pkid with
    | discoveryCompleted =>
      refine ⟨htracks, hdistinct, by simp [hconnected], ?_⟩
      simpa [hconnected] using (hcompleted.mp hout).2
    | stateAcknowledged =>
      refine ⟨htracks, hdistinct, by simp [hconnected], ?_⟩
      simp only [hconnected, if_true]
      exact hkept (by simp [hout])
    | discoveryProgress acked total =>
      exact ⟨htracks, hdistinct, hconnected, hkept (by simp [hout])⟩
    | unclassified => exact ⟨htracks, hdistinct, hconnected, hkept (by simp [hout])⟩

theorem Follows.run {during : List Notification} (h : Follows s l) (hduring : ∀ e ∈ during, e.Connected)
    (hfresh : Trace.Obeys Ledger.record Fresh l during) :
    Follows (Trace.run HaLoop.poll s during) (Trace.run Ledger.record l during) := by
  induction during generalizing s l with
  | nil => exact h
  | cons e rest ih =>
    obtain ⟨he, hrest⟩ := List.forall_mem_cons.mp hduring
    exact ih (h.poll he hfresh.1) hrest hfresh.2

/-- **When discovery is published.** Whatever came before, once the broker has accepted a connection and
the client has taken every publication, the status says that discovery is published exactly when the
first packets of the connection, one for each entity, have all been acknowledged; and an acknowledgement
is answered with `DiscoveryCompleted` exactly when it is the one that makes it so. -/
theorem discovery_published_iff (before : List Notification) {publish : String → Except String Unit}
    {during : List Notification} (hpublish : publishDiscovery publish = .ok ())
    (hduring : ∀ e ∈ during, e.Connected) (hfresh : Trace.Obeys Ledger.record Fresh [] during) :
    let s := Trace.run HaLoop.poll .start (before ++ .connAck publish :: during)
    let l := Trace.run Ledger.record [] during
    (s.status.discoveryPublished = true ↔ l.Confirmed entities.length) ∧
      ∀ pkid, (s.ackTracker.onPuback pkid).1 = .discoveryCompleted ↔
        ¬ l.Confirmed entities.length ∧ (l.ack pkid).Confirmed entities.length := by
  have hstart : Follows ((Trace.run HaLoop.poll .start before).poll (.connAck publish)) [] := by
    rw [HaLoop.poll, hpublish]
    exact ⟨tracks_batch_start _, List.nodup_nil, rfl, nofun, nofun⟩
  have h := hstart.run hduring hfresh
  rw [Trace.run_append]
  refine ⟨h.published, fun pkid => ?_⟩
  rw [← outcome_eq_completed_iff]
  exact iff_of_eq (congrArg (· = _) (h.tracks.puback h.distinct pkid).1)

def sentAndAcked (pkids : List UInt16) : List Notification :=
  pkids.map .outgoingPublish ++ pkids.reverse.map fun pkid => .pubAck pkid 0

def fifteen : List UInt16 := [1, 2, 3, 4, 5, 6, 7, 8, 9, 10, 11, 12, 13, 14, 15]

/-- A connection on which all fifteen discovery packets are sent and acknowledged. -/
theorem discovery_published_fifteen :
    (Trace.run HaLoop.poll .start ([.disconnect] ++ .connAck (fun _ => .ok ()) ::
      sentAndAcked fifteen)).status.discoveryPublished = true :=
  (discovery_published_iff [.disconnect] (by decide) (by decide +kernel) (by decide +kernel)).1.mpr
    (by decide +kernel)

/-! ## Any run -/

/-- How many acknowledgements have come since the last connection. -/
def countAcks (n : ℕ) : Notification → ℕ
  | .connAck _ => 0
  | .pubAck _ _ => n + 1
  | _ => n

/-- Discovery's ids are those of a connection, and what is counted was acknowledged on it. -/
structure Counts (s : HaLoop) (n : ℕ) : Prop where
  expected : s.ackTracker.discoveryPkids = ∅ ∨
    s.ackTracker.expectedDiscoveryCount = entities.length
  room : s.ackTracker.discoveryInFlight = true →
    s.ackTracker.expectedDiscoveryCount = entities.length
  acked : s.ackTracker.ackedDiscoveryCount ≤ n
  published : s.status.discoveryPublished = true → s.status.connected = true ∧ entities.length ≤ n

/-- The count of acknowledgements stays right through each notification. -/
theorem Counts.poll {k : ℕ} (h : Counts s k) (e : Notification) : Counts (s.poll e) (countAcks k e) := by
  obtain ⟨hexpected, hroom, hacked, hpublished⟩ := h
  cases e with
  | connAck publish =>
    rw [HaLoop.poll]
    split
    · exact ⟨.inr rfl, fun _ => rfl, Nat.le_refl 0, nofun⟩
    · exact ⟨.inl rfl, nofun, Nat.le_refl 0, nofun⟩
  | disconnect => exact ⟨.inl rfl, nofun, Nat.zero_le k, nofun⟩
  | error text => exact ⟨.inl rfl, nofun, Nat.zero_le k, nofun⟩
  | other => exact ⟨hexpected, hroom, hacked, hpublished⟩
  | outgoingPublish pkid =>
    simp only [HaLoop.poll, MqttAckTracker.onOutgoingPublish, countAcks]
    split
    next h => exact ⟨.inr (hroom h.1), hroom, hacked, hpublished⟩
    · exact ⟨hexpected, hroom, hacked, hpublished⟩
  | pubAck pkid now =>
    have hlater (h : s.status.discoveryPublished = true) :
        s.status.connected = true ∧ entities.length ≤ k + 1 :=
      ⟨(hpublished h).1, Nat.le_succ_of_le (hpublished h).2⟩
    by_cases hdisc : pkid ∈ s.ackTracker.discoveryPkids
    · have hcount := hexpected.resolve_left (Finset.ne_empty_of_mem hdisc)
      have hacked' : s.ackTracker.ackedDiscoveryCount + 1 ≤ k + 1 := Nat.succ_le_succ hacked
      simp only [HaLoop.poll, MqttAckTracker.onPuback, hdisc, if_true, countAcks]
      by_cases hlast : s.ackTracker.ackedDiscoveryCount + 1 ≥ s.ackTracker.expectedDiscoveryCount ∧
          s.ackTracker.discoveryPkids.erase pkid = ∅
      · simp only [if_pos hlast]
        refine ⟨.inr hcount, nofun, hacked', fun h => ?_⟩
        grind
      · simp only [if_neg hlast]
        exact ⟨.inr hcount, hroom, hacked', hlater⟩
    · simp only [HaLoop.poll, MqttAckTracker.onPuback, hdisc, if_false, countAcks]
      have hlate := Nat.le_succ_of_le hacked
      by_cases hstate : pkid ∈ s.ackTracker.statePkids
      · simp only [if_pos hstate]
        split <;> exact ⟨hexpected, hroom, hlate, hlater⟩
      · simp only [if_neg hstate]
        exact ⟨hexpected, hroom, hlate, hlater⟩

/-- **Never too early.** In every run of the event loop, whatever ids the client takes, the status says
that discovery is published only while it says connected, and only after as many acknowledgements on the
last connection as there are entities. -/
theorem published_after_acks (events : List Notification)
    (h : (Trace.run HaLoop.poll .start events).status.discoveryPublished = true) :
    (Trace.run HaLoop.poll .start events).status.connected = true ∧
      entities.length ≤ Trace.run countAcks 0 events := by
  suffices hrun : ∀ s k, Counts s k →
      Counts (Trace.run HaLoop.poll s events) (Trace.run countAcks k events) from
    (hrun .start 0 ⟨.inl rfl, nofun, Nat.le_refl 0, nofun⟩).published h
  clear h
  induction events with
  | nil => exact fun s k hs => hs
  | cons e rest ih => exact fun s k hs => ih _ _ (hs.poll e)

/-- Fifteen acknowledgements stand before the mark that discovery is published. -/
theorem published_after_acks_fifteen :
    entities.length ≤ Trace.run countAcks 0
      (.connAck (fun _ => .ok ()) :: sentAndAcked fifteen) :=
  (published_after_acks _ (by decide +kernel)).2

end MichiServer.HomeAssistant
