import MichiServer.Basic
import MichiServer.Logic.Trace

/-!
# Peer cursors

`is_stale_peer_state` and `record_peer_state` for one peer, as `apply_remote_playback_state` calls
them: a message that is not stale is applied, and recorded if it was. The cursor keeps the last
recorded message only, and a boot id other than the cursor's starts the sequence anew, also when it is
one that the peer had before.
-/

namespace MichiServer.Projection

open Logic

structure PeerCursor where
  epoch : ℕ
  bootId : Option Uuid
  sequence : ℕ

/-- A message of the peer with a sequence number, and whether everything it asks for is applied. -/
structure PeerMessage where
  epoch : Option ℕ
  bootId : Option Uuid
  sequence : ℕ
  allApplied : Bool := true

def PeerMessage.cursor (m : PeerMessage) : PeerCursor := ⟨m.epoch.getD 0, m.bootId, m.sequence⟩

/-- What is kept of the peer, and the messages accepted of it, the newest first. -/
structure PeerState where
  peerVector : Option PeerCursor := none
  accepted : List PeerCursor := []

namespace PeerState

def isStalePeerState (s : PeerState) (epoch : Option ℕ) (bootId : Option Uuid) (sequence : ℕ) :
    Bool :=
  let ep := epoch.getD 0
  match s.peerVector with
  | some cursor =>
    if ep < cursor.epoch then true
    else if ep > cursor.epoch then false
    else if bootId.isSome ∧ cursor.bootId.isSome ∧ bootId ≠ cursor.bootId then false
    else if sequence ≤ cursor.sequence then true
    else false
  | none => false

def recordPeerState (s : PeerState) (epoch : Option ℕ) (bootId : Option Uuid) (sequence : ℕ) :
    PeerState :=
  { s with peerVector := some ⟨epoch.getD 0, bootId, sequence⟩ }

/-- The part of `apply_remote_playback_state` that filters a message and records it. -/
def applyRemotePlaybackState (s : PeerState) (m : PeerMessage) : PeerState :=
  if s.isStalePeerState m.epoch m.bootId m.sequence then s
  else if m.allApplied then
    { s.recordPeerState m.epoch m.bootId m.sequence with accepted := m.cursor :: s.accepted }
  else s

/-- No replay: of the accepted messages of one epoch and boot, the later have the larger sequence
numbers, so none is accepted twice. -/
def NoReplay (s : PeerState) : Prop :=
  s.accepted.Pairwise fun later earlier =>
    later.epoch = earlier.epoch → later.bootId = earlier.bootId → earlier.sequence < later.sequence

/-- The message does not go back: if it is of the cursor's epoch, of another boot id (or of none, or the
first of one), and not dropped for its sequence number, then nothing of that boot has been accepted in
the epoch. -/
def MovesOn (s : PeerState) (m : PeerMessage) : Prop :=
  ∀ cursor ∈ s.peerVector, m.cursor.epoch = cursor.epoch → m.bootId ≠ cursor.bootId →
    (m.bootId.isSome ∧ cursor.bootId.isSome ∨ cursor.sequence < m.sequence) →
      ∀ a ∈ s.accepted, a.epoch = m.cursor.epoch → a.bootId ≠ m.bootId

instance (s : PeerState) (m : PeerMessage) : Decidable (s.MovesOn m) := by
  unfold MovesOn
  infer_instance

instance (s : PeerState) : Decidable s.NoReplay := by
  unfold NoReplay
  infer_instance

/-- The cursor is the newest accepted message, no accepted message is of a later epoch, and there is no
replay. -/
structure Followed (s : PeerState) : Prop where
  newest : s.accepted.head? = s.peerVector
  epoch : ∀ cursor ∈ s.peerVector, ∀ a ∈ s.accepted, a.epoch ≤ cursor.epoch
  no_replay : s.NoReplay

variable {s : PeerState} {m : PeerMessage}

theorem not_stale {cursor : PeerCursor} (hcursor : s.peerVector = some cursor)
    (h : s.isStalePeerState m.epoch m.bootId m.sequence = false) :
    cursor.epoch < m.cursor.epoch ∨
      cursor.epoch = m.cursor.epoch ∧
        (m.bootId.isSome ∧ cursor.bootId.isSome ∧ m.bootId ≠ cursor.bootId ∨
          cursor.sequence < m.sequence) := by
  grind [isStalePeerState, PeerMessage.cursor]

theorem Followed.sequence_le (h : s.Followed) {cursor a : PeerCursor}
    (hcursor : s.peerVector = some cursor) (ha : a ∈ s.accepted) (hepoch : a.epoch = cursor.epoch)
    (hboot : a.bootId = cursor.bootId) : a.sequence ≤ cursor.sequence := by
  have hhead := h.newest
  have hpairwise : s.NoReplay := h.no_replay
  unfold NoReplay at hpairwise
  cases haccepted : s.accepted with
  | nil =>
    rw [haccepted] at ha
    cases ha
  | cons newest rest =>
    rw [haccepted, hcursor] at hhead
    rw [haccepted] at ha hpairwise
    cases hhead
    rcases List.mem_cons.mp ha with rfl | hrest
    · exact Nat.le_refl _
    · exact Nat.le_of_lt ((List.pairwise_cons.mp hpairwise).1 a hrest hepoch.symm hboot.symm)

/-- A message that is not stale is above each that was accepted in its epoch and boot. -/
theorem Followed.accepted_lt (h : s.Followed) (hmoves : s.MovesOn m)
    (hstale : s.isStalePeerState m.epoch m.bootId m.sequence = false) {a : PeerCursor}
    (ha : a ∈ s.accepted) (hepoch : m.cursor.epoch = a.epoch) (hboot : m.bootId = a.bootId) :
    a.sequence < m.sequence := by
  cases hcursor : s.peerVector with
  | none =>
    have hhead := h.newest
    rw [hcursor, List.head?_eq_none_iff] at hhead
    rw [hhead] at ha
    cases ha
  | some cursor =>
    have hle : a.epoch ≤ cursor.epoch := h.epoch cursor hcursor a ha
    rcases not_stale hcursor hstale with hlater | ⟨hsame, hfresh⟩
    · omega
    · by_cases hsameboot : m.bootId = cursor.bootId
      · have hseq : a.sequence ≤ cursor.sequence :=
          h.sequence_le hcursor ha (hepoch.symm.trans hsame.symm) (hboot.symm.trans hsameboot)
        grind
      · have hnew : m.bootId.isSome ∧ cursor.bootId.isSome ∨ cursor.sequence < m.sequence := by
          grind
        exact absurd hboot.symm (hmoves cursor hcursor hsame.symm hsameboot hnew a ha hepoch.symm)

/-- The cursor follows each message. -/
theorem Followed.apply (h : s.Followed) (hmoves : s.MovesOn m) :
    (s.applyRemotePlaybackState m).Followed := by
  unfold applyRemotePlaybackState
  split
  · exact h
  · rename_i hstale
    rw [Bool.not_eq_true] at hstale
    split
    · constructor
      · rfl
      · intro cursor hcursor a ha
        cases hcursor
        rcases List.mem_cons.mp ha with rfl | ha
        · exact Nat.le_refl _
        · cases hold : s.peerVector with
          | none =>
            have hhead := h.newest
            rw [hold, List.head?_eq_none_iff] at hhead
            rw [hhead] at ha
            cases ha
          | some old =>
            have hle : a.epoch ≤ old.epoch := h.epoch old hold a ha
            have hnew : old.epoch ≤ m.cursor.epoch := by
              rcases not_stale hold hstale with hlater | ⟨hsame, -⟩
              · exact Nat.le_of_lt hlater
              · exact Nat.le_of_eq hsame
            exact Nat.le_trans hle hnew
      · refine List.pairwise_cons.mpr ⟨fun a ha hepoch hboot => ?_, h.no_replay⟩
        exact h.accepted_lt hmoves hstale ha hepoch hboot
    · exact h

/-- **No replay.** Of a peer whose messages do not go back to a boot id they have left within an epoch,
no message is accepted twice, and within one epoch and boot the accepted sequence numbers increase. -/
theorem messages_are_not_replayed (messages : List PeerMessage)
    (h : Trace.Obeys applyRemotePlaybackState MovesOn {} messages) :
    (Trace.run applyRemotePlaybackState {} messages).NoReplay := by
  have hempty : Followed {} := by
    constructor <;> simp [NoReplay]
  exact (Trace.run_invariant (fun _ _ hs hm => hs.apply hm) hempty h).no_replay

/-- A peer that reboots, and then goes to a new epoch. -/
theorem messages_are_not_replayed_sample :
    (Trace.run applyRemotePlaybackState {}
      [⟨some 1, some 7, 4, true⟩, ⟨some 1, some 7, 4, true⟩, ⟨some 1, some 8, 1, true⟩,
        ⟨some 1, some 8, 2, false⟩, ⟨some 1, some 8, 2, true⟩, ⟨some 2, some 7, 4, true⟩]).NoReplay :=
  messages_are_not_replayed _ (by decide)

/-- A message of the first boot comes again after one of the second, and is accepted again. -/
theorem message_of_earlier_boot_is_replayed :
    ¬ ∀ messages, (Trace.run applyRemotePlaybackState {} messages).NoReplay := by
  intro h
  have hrun := h [⟨some 1, some 7, 4, true⟩, ⟨some 1, some 8, 1, true⟩, ⟨some 1, some 7, 4, true⟩]
  revert hrun
  decide

end PeerState

end MichiServer.Projection
