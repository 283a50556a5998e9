import MichiServer.Logic.Trace
import MichiServer.Sync.Conflict

/-!
# The feed of a sync socket

A sync socket starts with the snapshot of the playback state and passes on what the broadcast channel
brings. It remembers the last state it sent, the "monotonic tracker", and skips a state over which
that one has precedence.

The tracker holds one state. With a transitive precedence that is enough, and precedence is
transitive except around a straddled triple. So the feed falls back behind an earlier state exactly
when the state it sends closes a circle with that one and the last, and it stays monotone in every run
in which no step closes one.
-/

namespace MichiServer.Sync

open MichiServer.Order MichiServer.Logic

/-- `==` of two `f64`: a NaN equals nothing, the two zeros equal each other. -/
def f64Eq (a b : F64) : Bool :=
  let magnitude (x : F64) : F64 := x &&& 0x7FFFFFFFFFFFFFFF
  if magnitude a > 0x7FF0000000000000 ∨ magnitude b > 0x7FF0000000000000 then false
  else a = b ∨ magnitude a = 0 ∧ magnitude b = 0

namespace PlaybackState

def eq (a b : PlaybackState) : Bool :=
  f64Eq a.volume b.volume && decide ({ a with volume := 0 } = { b with volume := 0 })

variable {x y z : PlaybackState}

/-! ## Circles -/

/-- Three states of which the upper of each pair is the lower of the next: two of one device, and a
third that straddles them. -/
def Circle (x z y : PlaybackState) : Prop := Straddled y z x ∨ Straddled x y z ∨ Straddled z x y

instance (x z y : PlaybackState) : Decidable (Straddled x z y) := inferInstanceAs (Decidable (_ ∧ _))

instance (x z y : PlaybackState) : Decidable (Circle x z y) := inferInstanceAs (Decidable (_ ∨ _))

theorem crossKey_of_incarnationKey (hdevice : x.device = y.device)
    (hkey : x.incarnationKey = y.incarnationKey) : x.crossKey = y.crossKey := by
  simp only [incarnationKey, EmbeddingLike.apply_eq_iff_eq, Prod.mk.injEq] at hkey
  grind [crossKey]

theorem Straddled.precedes (h : Straddled x z y) : Precedes x z ∧ Precedes z y ∧ Precedes y x := by
  have hglue : precedence.Straddled x z y := precedence_straddled ▸ h
  obtain ⟨hxz, hzy, -⟩ := hglue.not_trans
  rw [precedence_above] at hxz hzy
  refine ⟨hxz, hzy, ?_⟩
  obtain ⟨hnamed, hdevice, -, hyz, hzx, hown⟩ := h
  have hlt : x.incarnationKey < y.incarnationKey := hown.lt_of_ne fun hkey =>
    absurd (crossKey_of_incarnationKey hdevice hkey) (hyz.trans hzx).ne'
  rw [← precedence_above]
  exact .inl ⟨⟨hdevice ▸ hnamed, hdevice.symm⟩, hlt⟩

theorem Circle.precedes (h : Circle x z y) : Precedes x y := by
  rcases h with h | h | h
  · exact h.precedes.2.2
  · exact h.precedes.1
  · exact h.precedes.2.1

theorem Precedes.last_or_circle (h : Precedes x y) (z : PlaybackState) :
    Precedes x z ∨ Precedes z y ∨ Circle x z y := by
  rw [← precedence_above] at h ⊢
  have hcases := Glue.above_or_above_or_straddled h z
  rw [precedence_straddled] at hcases
  exact hcases

end PlaybackState

/-! ## The send task -/

structure StateMessage extends RemoteState where
  playlistId : Option Uuid := none
  queuePosition : Option ℕ := none

def StateMessage.msgState (m : StateMessage) : PlaybackState :=
  { m.incomingState with playlistId := m.playlistId, queuePosition := m.queuePosition }

/-- What wakes the send task, with the outcome of the write it may lead to. -/
inductive FeedEvent
  | state (message : StateMessage) (written : Bool)
  | other (written : Bool)
  | lagged (missed : ℕ)
  | closed

/-- The send task: its tracker, and beside it the states it has sent, the last one first. While it
runs, the tracker is the last one sent. -/
structure Feed where
  lastSentState : Option PlaybackState
  sent : List PlaybackState
  running : Bool
  tracked : running = true → lastSentState = sent.head?

namespace Feed

def connect (initialPlaybackState : PlaybackState) : Feed where
  lastSentState := some initialPlaybackState
  sent := [initialPlaybackState]
  running := true
  tracked := fun _ => rfl

def skips (lastSentState : Option PlaybackState) (msgState : PlaybackState) : Bool :=
  match lastSentState with
  | some last => last.hasPrecedenceOver msgState || last.eq msgState
  | none => false

def stop (feed : Feed) : Feed where
  lastSentState := feed.lastSentState
  sent := feed.sent
  running := false
  tracked := nofun

/-- A state is tracked and written; the task ends when the write fails. -/
def send (feed : Feed) (msgState : PlaybackState) (written : Bool) : Feed where
  lastSentState := some msgState
  sent := if written then msgState :: feed.sent else feed.sent
  running := written
  tracked := by rintro rfl; rfl

/-- One turn of the loop. A gap in what the channel brings is logged and changes nothing. -/
def step (feed : Feed) (event : FeedEvent) : Feed :=
  if feed.running then
    match event with
    | .state message written =>
      if skips feed.lastSentState message.msgState then feed
      else feed.send message.msgState written
    | .other written => if written then feed else feed.stop
    | .lagged _ => feed
    | .closed => feed.stop
  else feed

/-! ## The law -/

def Monotone (feed : Feed) : Prop :=
  feed.sent.Pairwise fun later earlier => ¬ PlaybackState.Precedes earlier later

/-- The state that is sent closes no circle with the last one sent and an earlier one. -/
def NoCircle (feed : Feed) : FeedEvent → Prop
  | .state message true =>
    feed.running → skips feed.lastSentState message.msgState = false →
      ∀ last ∈ feed.sent.head?, ∀ earlier ∈ feed.sent,
        ¬ PlaybackState.Circle earlier last message.msgState
  | _ => True

instance (feed : Feed) : (event : FeedEvent) → Decidable (NoCircle feed event)
  | .state message true =>
    inferInstanceAs (Decidable (_ = true → _ = false → ∀ last ∈ feed.sent.head?, ∀ earlier ∈ feed.sent,
      ¬ PlaybackState.Circle earlier last message.msgState))
  | .state _ false | .other _ | .lagged _ | .closed => inferInstanceAs (Decidable True)

variable {feed : Feed}

/-- A step sends at most the state of its event, where none skips it. -/
theorem sent_step (feed : Feed) (event : FeedEvent) :
    (∃ message, event = .state message true ∧ feed.running = true ∧
        skips feed.lastSentState message.msgState = false ∧
        (feed.step event).sent = message.msgState :: feed.sent) ∨
      (feed.step event).sent = feed.sent ∧ feed.NoCircle event := by
  rcases hrunning : feed.running with _ | _
  · refine .inr ⟨by simp [step, hrunning], ?_⟩
    cases event with
    | state message written => cases written <;> simp [NoCircle, hrunning]
    | _ => trivial
  · cases event with
    | state message written =>
      rcases hskips : skips feed.lastSentState message.msgState with _ | _
      · cases written with
        | false => exact .inr ⟨by simp [step, hrunning, hskips, send], trivial⟩
        | true => grind [step, send]
      · refine .inr ⟨by simp [step, hrunning, hskips], ?_⟩
        cases written <;> simp [NoCircle, hskips]
    | other written => exact .inr ⟨by cases written <;> simp [step, hrunning, stop], trivial⟩
    | lagged missed => exact .inr ⟨by simp [step, hrunning], trivial⟩
    | closed => exact .inr ⟨by simp [step, hrunning, stop], trivial⟩

theorem sent_suffix_step (feed : Feed) (event : FeedEvent) : feed.sent <:+ (feed.step event).sent := by
  grind [sent_step]

theorem monotone_of_step (feed : Feed) (event : FeedEvent) (h : (feed.step event).Monotone) :
    feed.Monotone :=
  h.sublist (sent_suffix_step feed event).sublist

/-- A state may be sent exactly where the last of its source is not above it. -/
theorem monotone_send_iff (hmonotone : feed.Monotone) (hrunning : feed.running = true)
    {y : PlaybackState} (hskips : skips feed.lastSentState y = false) :
    (∀ earlier ∈ feed.sent, ¬ PlaybackState.Precedes earlier y) ↔
      ∀ last ∈ feed.sent.head?, ∀ earlier ∈ feed.sent, ¬ PlaybackState.Circle earlier last y := by
  constructor
  · intro h last _ earlier hearlier hcircle
    exact h earlier hearlier hcircle.precedes
  · intro h earlier hearlier hprecedes
    rw [feed.tracked hrunning] at hskips
    cases hsent : feed.sent with
    | nil => simp [hsent] at hearlier
    | cons last rest =>
      rw [hsent, List.head?_cons] at hskips h
      rw [hsent] at hearlier
      have hlast : ¬ PlaybackState.Precedes last y := by
        grind [skips, PlaybackState.Precedes]
      rcases List.mem_cons.mp hearlier with rfl | hrest
      · exact hlast hprecedes
      · rcases hprecedes.last_or_circle last with hbehind | hahead | hcircle
        · rw [Monotone, hsent] at hmonotone
          exact List.rel_of_pairwise_cons hmonotone hrest hbehind
        · exact hlast hahead
        · exact h last rfl earlier hearlier hcircle

/-- **One turn.** -/
theorem monotone_step_iff (feed : Feed) (event : FeedEvent) (hmonotone : feed.Monotone) :
    (feed.step event).Monotone ↔ feed.NoCircle event := by
  rcases sent_step feed event with ⟨message, rfl, hrunning, hskips, hsent⟩ | ⟨hsent, hcircle⟩
  · have hsend := monotone_send_iff hmonotone hrunning hskips
    rw [Monotone, hsent, List.pairwise_cons]
    exact ⟨fun h _ _ => hsend.mp h.1, fun h => ⟨hsend.mpr (h hrunning hskips), hmonotone⟩⟩
  · rw [Monotone, hsent]
    exact iff_of_true hmonotone hcircle

theorem connect_monotone (initial : PlaybackState) : (connect initial).Monotone :=
  List.pairwise_singleton _ _

/-- **The monotone feed.** From any snapshot and through whatever the channel brings, no state is sent
after one that has precedence over it, exactly when no state that is sent closes a circle with the
last one sent and an earlier one. -/
theorem feed_monotone_iff (initial : PlaybackState) (events : List FeedEvent) :
    (Trace.run step (connect initial) events).Monotone ↔
      Trace.Obeys step NoCircle (connect initial) events :=
  Trace.invariant_at_end_iff monotone_of_step monotone_step_iff (connect_monotone initial) events

/-! ## A reboot during the feed -/

def rebootEvents : List FeedEvent :=
  [.lagged 3,
   .state { updatedAt := 10000000000, originDeviceId := some "server-a", sequence := some 1,
            epoch := some 11, lamport := some 1 } true,
   .state { updatedAt := 5000000000, originDeviceId := some "server-b", sequence := some 7,
            epoch := some 10, lamport := some 50 } true]

/-- The peer's state is sent after the snapshot that has precedence over it: the tracker only holds
the rebooted device's state by then. -/
theorem feed_falls_back_on_reboot :
    (Trace.run step (connect PlaybackState.beforeReboot) rebootEvents).sent =
        [PlaybackState.runningPeer, PlaybackState.afterReboot, PlaybackState.beforeReboot] ∧
      PlaybackState.Precedes PlaybackState.beforeReboot PlaybackState.runningPeer ∧
      ¬ (Trace.run step (connect PlaybackState.beforeReboot) rebootEvents).Monotone := by
  have hsent : (Trace.run step (connect PlaybackState.beforeReboot) rebootEvents).sent =
      [PlaybackState.runningPeer, PlaybackState.afterReboot, PlaybackState.beforeReboot] := by
    decide +kernel
  have hprecedes : PlaybackState.Precedes PlaybackState.beforeReboot PlaybackState.runningPeer := by
    unfold PlaybackState.Precedes
    decide
  grind [Monotone]

end Feed

end MichiServer.Sync
