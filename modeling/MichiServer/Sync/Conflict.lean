import Mathlib.Data.Prod.Lex
import Mathlib.Data.String.Basic
import MichiServer.Basic
import MichiServer.Order.Glued
import MichiServer.Order.Settle

/-!
# Precedence between playback states

`PlaybackState` is what the servers of a household exchange, and `has_precedence_over` decides which
of two states is the authority. Its documentation calls it a strict total order.

The function is a chain of comparisons that switches keys: two states of one device are ordered by
epoch, sequence, lamport clock and time; states of different devices by lamport clock and device, or
by epoch, time, sequence and device when neither carries a clock. `incarnationKey` and `crossKey`
are the two keys read off that chain, and `hasPrecedenceOver_iff` says the chain is exactly the
order glued from them, so the general facts about glued orders (`MichiServer.Order.Glue`) apply:
irreflexivity, asymmetry and comparability hold without exception, transitivity fails exactly on a
straddled triple. A reboot makes one: the rebooted device restarts its lamport clock, and a peer
whose clock lies between the two incarnations closes a cycle.
-/

namespace MichiServer.Sync

open MichiServer.Order

structure PlaybackState where
  trackId : Option Uuid := none
  positionMs : ℕ := 0
  playing : Bool := false
  volume : F64 := 0x3FE999999999999A
  updatedAt : DateTime
  playlistId : Option Uuid := none
  queuePosition : Option ℕ := none
  deviceId : Option String := none
  shuffle : Bool := false
  repeatMode : String := "off"
  eventId : Option Uuid := none
  sequence : Option ℕ := none
  epoch : Option ℕ := none
  bootId : Option Uuid := none
  lamport : Option ℕ := none
deriving DecidableEq

namespace PlaybackState

def hasPrecedenceOver (self other : PlaybackState) : Bool :=
  let selfDev := self.deviceId.getD ""
  let otherDev := other.deviceId.getD ""
  let selfLamport := self.lamport.getD 0
  let otherLamport := other.lamport.getD 0
  let selfEpoch := self.epoch.getD 0
  let otherEpoch := other.epoch.getD 0
  let selfSeq := self.sequence.getD 0
  let otherSeq := other.sequence.getD 0
  if selfDev ≠ "" ∧ selfDev = otherDev then
    if selfEpoch ≠ otherEpoch then selfEpoch > otherEpoch
    else if selfSeq ≠ otherSeq then selfSeq > otherSeq
    else if selfLamport ≠ otherLamport then selfLamport > otherLamport
    else if self.updatedAt ≠ other.updatedAt then self.updatedAt > other.updatedAt
    else false
  else if (selfLamport > 0 ∨ otherLamport > 0) ∧ selfLamport ≠ otherLamport then
    selfLamport > otherLamport
  else if (selfLamport > 0 ∨ otherLamport > 0) ∧ selfDev ≠ otherDev then selfDev > otherDev
  else if selfEpoch ≠ otherEpoch then selfEpoch > otherEpoch
  else if self.updatedAt ≠ other.updatedAt then self.updatedAt > other.updatedAt
  else if selfSeq ≠ otherSeq then selfSeq > otherSeq
  else selfDev > otherDev

/-! ## The two keys -/

/-- The device a state came from, the empty name when it does not say. -/
def device (s : PlaybackState) : String := s.deviceId.getD ""

/-- The order of one device's own states: epoch, sequence, lamport clock, time. -/
def incarnationKey (s : PlaybackState) : ℕ ×ₗ ℕ ×ₗ ℕ ×ₗ DateTime :=
  toLex (s.epoch.getD 0, toLex (s.sequence.getD 0, toLex (s.lamport.getD 0, s.updatedAt)))

/-- The order across devices: the lamport clock, then the device when there is a clock, and epoch,
time, sequence and device when there is none. -/
def crossKey (s : PlaybackState) : ℕ ×ₗ String ×ₗ ℕ ×ₗ DateTime ×ₗ ℕ ×ₗ String :=
  toLex (s.lamport.getD 0, toLex (if s.lamport.getD 0 > 0 then s.device else "",
    toLex (s.epoch.getD 0, toLex (s.updatedAt, toLex (s.sequence.getD 0, s.device)))))

def sameDevice (a b : PlaybackState) : Prop := a.device ≠ "" ∧ a.device = b.device

instance (a b : PlaybackState) : Decidable (sameDevice a b) :=
  inferInstanceAs (Decidable (_ ∧ _))

theorem crossKey_device {a b : PlaybackState} (h : a.crossKey = b.crossKey) :
    a.device = b.device :=
  congrArg (fun k => (ofLex (ofLex (ofLex (ofLex (ofLex k).2).2).2).2).2) h

def precedence : Glue PlaybackState (ℕ ×ₗ ℕ ×ₗ ℕ ×ₗ DateTime)
    (ℕ ×ₗ String ×ₗ ℕ ×ₗ DateTime ×ₗ ℕ ×ₗ String) where
  same := sameDevice
  own := incarnationKey
  cross := crossKey
  same_symm h := ⟨h.2 ▸ h.1, h.2.symm⟩
  same_trans h h' := ⟨h.1, h.2.trans h'.2⟩
  cross_ne hx hxz h := hxz ⟨hx.1, crossKey_device h⟩

theorem hasPrecedenceOver_iff (a b : PlaybackState) :
    a.hasPrecedenceOver b = true ↔ precedence.Above a b := by
  simp only [hasPrecedenceOver, Glue.Above, precedence, sameDevice, incarnationKey, crossKey,
    device, Prod.Lex.toLex_lt_toLex]
  generalize a.deviceId.getD "" = da, b.deviceId.getD "" = db
  generalize a.lamport.getD 0 = la, b.lamport.getD 0 = lb
  generalize a.epoch.getD 0 = ea, b.epoch.getD 0 = eb
  generalize a.sequence.getD 0 = sa, b.sequence.getD 0 = sb
  generalize a.updatedAt = ta, b.updatedAt = tb
  split
  · grind
  · grind

theorem hasPrecedenceOver_asymm (a b : PlaybackState) (h : a.hasPrecedenceOver b = true) :
    ¬ b.hasPrecedenceOver a = true := by
  rw [hasPrecedenceOver_iff] at h ⊢
  exact Glue.asymm h

/-! ## The documented order -/

def Precedes (a b : PlaybackState) : Prop := a.hasPrecedenceOver b = true

def DifferentDevices (a b : PlaybackState) : Prop :=
  a.device ≠ "" ∧ b.device ≠ "" ∧ a.device ≠ b.device

/-- A state of another device stands between two states of one device in the order across devices,
while the upper one of the two is not the newer one in the device's own order. -/
def Straddled (x z y : PlaybackState) : Prop :=
  x.device ≠ "" ∧ x.device = y.device ∧ z.device ≠ x.device ∧
    y.crossKey < z.crossKey ∧ z.crossKey < x.crossKey ∧ x.incarnationKey ≤ y.incarnationKey

theorem precedence_above : precedence.Above = Precedes := by
  funext a b
  exact propext (hasPrecedenceOver_iff a b).symm

theorem precedence_apart : precedence.Apart = DifferentDevices := by
  funext a b
  simp only [Glue.Apart, precedence, sameDevice, DifferentDevices, and_true]
  grind

theorem precedence_straddled : precedence.Straddled = Straddled := by
  funext x z y
  simp only [Glue.Straddled, precedence, sameDevice, Straddled]
  grind

theorem precedes_strictTotalOn_iff (S : Set PlaybackState) :
    StrictTotalOn Precedes DifferentDevices S ↔
      ∀ x ∈ S, ∀ z ∈ S, ∀ y ∈ S, ¬ Straddled x z y := by
  rw [← precedence_above, ← precedence_apart, ← precedence_straddled]
  exact Glue.strictTotalOn_iff

/-- **The order on three states.** `has_precedence_over` is a strict total order on three states
exactly when no two of them, of one device, are straddled by the third. -/
theorem has_precedence_over_strict_total_iff (a b c : PlaybackState) :
    StrictTotalOn Precedes DifferentDevices {a, b, c} ↔
      ∀ x ∈ ({a, b, c} : Set PlaybackState), ∀ z ∈ ({a, b, c} : Set PlaybackState),
        ∀ y ∈ ({a, b, c} : Set PlaybackState), ¬ Straddled x z y :=
  precedes_strictTotalOn_iff {a, b, c}

/-! ## A reboot under a running peer -/

def beforeReboot : PlaybackState where
  updatedAt := 0
  deviceId := some "server-a"
  sequence := some 50
  epoch := some 10
  lamport := some 100

def afterReboot : PlaybackState where
  updatedAt := 10000000000
  deviceId := some "server-a"
  sequence := some 1
  epoch := some 11
  lamport := some 1

def runningPeer : PlaybackState where
  updatedAt := 5000000000
  deviceId := some "server-b"
  sequence := some 7
  epoch := some 10
  lamport := some 50

/-- The three states go round in a circle: before the reboot, the peer, after the reboot, and again
before it. -/
theorem has_precedence_over_not_transitive :
    ¬ StrictTotalOn Precedes DifferentDevices {beforeReboot, runningPeer, afterReboot} := by
  intro h
  have circle : Precedes beforeReboot afterReboot :=
    h.trans beforeReboot (.inl rfl) runningPeer (.inr (.inl rfl)) afterReboot (.inr (.inr rfl))
      (by unfold Precedes; decide) (by unfold Precedes; decide)
  exact absurd circle (by unfold Precedes; decide)

end PlaybackState

/-!
## Conflict resolution between remote states

`apply_remote_playback_state` builds a `PlaybackState` from a peer's message and compares it with the
state it holds: it keeps its own when that has precedence, and adopts the message otherwise. With
every engine operation succeeding, a server that is offered several messages folds that rule over
the order of their arrival.

Servers that were offered the same messages agree when the fold does not depend on the order, and
`Order.settle_converges_iff` says when that is, for any asymmetric relation. Precedence is asymmetric
but not transitive, so the fold can run in circles, and states that are no one's authority over each
other are adopted last come, last held.
-/

/-- What a peer sends, the arguments of `apply_remote_playback_state`. -/
structure RemoteState where
  trackId : Option Uuid := none
  positionMs : ℕ := 0
  playing : Bool := false
  volume : F64 := 0x3FE999999999999A
  updatedAt : DateTime
  originDeviceId : Option String := none
  eventId : Option Uuid := none
  sequence : Option ℕ := none
  epoch : Option ℕ := none
  bootId : Option Uuid := none
  lamport : Option ℕ := none

namespace RemoteState

/-- The state a message stands for, as `apply_remote_playback_state` builds it before comparing. -/
def incomingState (m : RemoteState) : PlaybackState where
  trackId := m.trackId
  positionMs := m.positionMs
  playing := m.playing
  volume := m.volume
  updatedAt := m.updatedAt
  playlistId := none
  queuePosition := none
  deviceId := m.originDeviceId
  shuffle := false
  repeatMode := "off"
  eventId := m.eventId
  sequence := m.sequence
  epoch := m.epoch
  bootId := m.bootId
  lamport := m.lamport

theorem incomingState_injective : Function.Injective incomingState := by
  intro m m' h
  cases m
  cases m'
  simpa [incomingState] using h

end RemoteState

/-- Conflict resolution for one message: retain the current authority when it has precedence, adopt
the message otherwise. -/
def resolveConflict (current : PlaybackState) (m : RemoteState) : PlaybackState :=
  if current.hasPrecedenceOver m.incomingState then current else m.incomingState

def winningState (current : PlaybackState) (arrivals : List RemoteState) : PlaybackState :=
  arrivals.foldl resolveConflict current

/-- Two servers that start alike and receive the same messages, each in its own order and with its
own repetitions, hold the same state. -/
def SyncConverges (current : PlaybackState) (messages : List RemoteState) : Prop :=
  ∀ first second, Delivers messages first → Delivers messages second →
    winningState current first = winningState current second

theorem winningState_eq_settle (current : PlaybackState) (arrivals : List RemoteState) :
    winningState current arrivals =
      settle PlaybackState.hasPrecedenceOver current
        (arrivals.map RemoteState.incomingState) := by
  simp only [winningState, settle, List.foldl_map]
  rfl

theorem delivers_map {messages arrivals : List RemoteState} :
    Delivers (messages.map RemoteState.incomingState) (arrivals.map RemoteState.incomingState) ↔
      Delivers messages arrivals := by
  constructor
  · intro h m
    have hm := h m.incomingState
    grind [RemoteState.incomingState_injective]
  · intro h x
    simp only [List.mem_map]
    constructor
    · rintro ⟨m, hm, rfl⟩
      exact ⟨m, (h m).mp hm, rfl⟩
    · rintro ⟨m, hm, rfl⟩
      exact ⟨m, (h m).mpr hm, rfl⟩

theorem exists_arrivals {messages : List RemoteState} {offers : List PlaybackState}
    (h : Delivers (messages.map RemoteState.incomingState) offers) :
    ∃ arrivals : List RemoteState, arrivals.map RemoteState.incomingState = offers := by
  have hx : ∀ x ∈ offers, ∃ m : RemoteState, m.incomingState = x := fun x hx => by
    obtain ⟨m, _, hm⟩ := List.mem_map.mp ((h x).mp hx)
    exact ⟨m, hm⟩
  clear h
  induction offers with
  | nil => exact ⟨[], rfl⟩
  | cons x rest ih =>
    obtain ⟨m, rfl⟩ := hx x List.mem_cons_self
    obtain ⟨arrivals, rfl⟩ := ih fun y hy => hx y (List.mem_cons_of_mem _ hy)
    exact ⟨m :: arrivals, rfl⟩

theorem syncConverges_iff_converges (current : PlaybackState) (messages : List RemoteState) :
    SyncConverges current messages ↔
      Converges PlaybackState.hasPrecedenceOver current
        (messages.map RemoteState.incomingState) := by
  constructor
  · intro h first second h1 h2
    obtain ⟨arrivals1, rfl⟩ := exists_arrivals h1
    obtain ⟨arrivals2, rfl⟩ := exists_arrivals h2
    rw [← winningState_eq_settle, ← winningState_eq_settle]
    exact h arrivals1 arrivals2 (delivers_map.mp h1) (delivers_map.mp h2)
  · intro h first second h1 h2
    rw [winningState_eq_settle, winningState_eq_settle]
    exact h _ _ (delivers_map.mpr h1) (delivers_map.mpr h2)

/-- **When servers converge.** Every order and every repetition of the messages leaves the same
winner exactly when the current state has precedence over each message (or is the state it stands
for), or one message has precedence over every other and the current state has none over it. -/
theorem sync_converges_iff (current : PlaybackState) (messages : List RemoteState) :
    SyncConverges current messages ↔
      (∀ m ∈ messages, m.incomingState = current ∨
          current.hasPrecedenceOver m.incomingState = true) ∨
        ∃ w ∈ messages, ¬ current.hasPrecedenceOver w.incomingState = true ∧
          ∀ m ∈ messages, m = w ∨
            w.incomingState.hasPrecedenceOver m.incomingState = true := by
  rw [syncConverges_iff_converges,
    settle_converges_iff PlaybackState.hasPrecedenceOver_asymm]
  simp only [Dominates, List.mem_map, exists_exists_and_eq_and, forall_exists_index, and_imp,
    forall_apply_eq_imp_iff₂, RemoteState.incomingState_injective.eq_iff]

/-! ## The circle, delivered twice -/

def rebootMessages : List RemoteState :=
  [{ updatedAt := 0, originDeviceId := some "server-a", sequence := some 50, epoch := some 10,
     lamport := some 100 },
   { updatedAt := 5000000000, originDeviceId := some "server-b", sequence := some 7,
     epoch := some 10, lamport := some 50 },
   { updatedAt := 10000000000, originDeviceId := some "server-a", sequence := some 1,
     epoch := some 11, lamport := some 1 }]

def freshState : PlaybackState where
  updatedAt := -1000000000

/-- In order of sending, the rebooted device wins; in the reverse order, its old state does. -/
theorem sync_diverges_on_reboot : ¬ SyncConverges freshState rebootMessages := by
  intro h
  have heq := h rebootMessages rebootMessages.reverse (fun _ => Iff.rfl)
    (fun _ => List.mem_reverse)
  exact absurd heq (by decide)

end MichiServer.Sync
