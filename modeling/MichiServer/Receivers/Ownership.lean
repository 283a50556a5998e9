import MichiServer.Receivers.Sessions

/-!
# Whose session a place holds

Each of the four places of a receiver has the number of the session whose start wrote it last. A
start writes its own session, and every other step leaves what it finds or clears it: this is all
that the invariant of `Supervision` needs to know of the steps.
-/

namespace MichiServer.Receivers

open MichiServer.Interleave

inductive Slot where
  | record | transport | registry | heartbeat
deriving DecidableEq

instance {P : Slot → Prop} [DecidablePred P] : Decidable (∀ x, P x) :=
  decidable_of_iff (P .record ∧ P .transport ∧ P .registry ∧ P .heartbeat)
    ⟨fun ⟨hrecord, htransport, hregistry, hheartbeat⟩ x => by cases x <;> assumption,
      fun h => ⟨h _, h _, h _, h _⟩⟩

namespace ReceiverState

def slot (w : ReceiverState) : Slot → Option ℕ
  | .record => w.activeSession.map Owned.session
  | .transport => w.activeTransport.map Owned.session
  | .registry => (w.registry.bind ReceiverEntry.activeSessionId).map Owned.session
  | .heartbeat => w.heartbeatHandle

/-- What a step may do that writes a session, or none: every place keeps its session, loses it, or
gets the written one, which is then the last that was started. -/
structure Follows (written : Option ℕ) (w w' : ReceiverState) : Prop where
  started : w.started ≤ w'.started
  newest : ∀ j ∈ written, j + 1 = w'.started
  slots : ∀ x, ∀ j ∈ w'.slot x, j ∈ w.slot x ∨ j ∈ written

/-- Nothing is torn down but of the session: no other is lost from a place, and no other's heartbeat
task is cancelled. -/
def TearsDownOnly (session : ℕ) (w w' : ReceiverState) : Prop :=
  (∀ x, ∀ j ∈ w.slot x, j ∉ w'.slot x → j = session) ∧
    ∀ j ∈ w'.cancelled, j ∉ w.cancelled → j = session

instance (session : ℕ) (w w' : ReceiverState) : Decidable (TearsDownOnly session w w') :=
  inferInstanceAs (Decidable (_ ∧ _))

variable {w w' : ReceiverState} {written : Option ℕ}

theorem mem_slot_setActiveSessionId {id : Option (Owned String)} {x : Slot} {j : ℕ}
    (h : j ∈ (w.setActiveSessionId id).slot x) :
    x ≠ .registry ∧ j ∈ w.slot x ∨ x = .registry ∧ j ∈ id.map Owned.session := by
  cases x with
  | registry =>
    grind [slot, setActiveSessionId]
  | record | transport | heartbeat => exact .inl ⟨by simp, h⟩

theorem Follows.of_started (hstarted : w'.started = w.started)
    (hslots : ∀ x, ∀ j ∈ w'.slot x, j ∈ w.slot x) : w.Follows none w' where
  started := Nat.le_of_eq hstarted.symm
  newest := by simp
  slots x j hj := .inl (hslots x j hj)

theorem Follows.refl (w : ReceiverState) : w.Follows none w :=
  .of_started rfl fun _ _ hj => hj

theorem Follows.weaken (h : w.Follows none w') (hnewest : ∀ j ∈ written, j + 1 = w'.started) :
    w.Follows written w' where
  started := h.started
  newest := hnewest
  slots x j hj := .inl (by simpa using h.slots x j hj)

theorem Follows.of_write {x : Slot} (hstarted : w.started ≤ w'.started)
    (hnewest : ∀ j ∈ written, j + 1 = w'.started) (hwritten : ∀ j ∈ w'.slot x, j ∈ written)
    (hothers : ∀ y, y ≠ x → w'.slot y = w.slot y) : w.Follows written w' where
  started := hstarted
  newest := hnewest
  slots y j hj := by
    by_cases hy : y = x
    · subst hy
      exact .inr (hwritten j hj)
    · rw [hothers y hy] at hj
      exact .inl hj

theorem takeHandle_follows (w : ReceiverState) : w.Follows none w.takeHandle := by
  refine .of_started rfl fun x j hj => ?_
  cases x <;> simp_all [slot, takeHandle]

theorem clearRegistry_follows (w : ReceiverState) :
    w.Follows none (w.setActiveSessionId none) := by
  refine .of_started rfl fun x j hj => ?_
  rcases mem_slot_setActiveSessionId hj with ⟨-, hold⟩ | ⟨-, hnew⟩
  · exact hold
  · simp at hnew

theorem removeSession_follows (w : ReceiverState) :
    w.Follows none { w with activeSession := none } := by
  refine .of_started rfl fun x j hj => ?_
  cases x <;> simp_all [slot]

theorem removeTransport_follows (w : ReceiverState) :
    w.Follows none { w with activeTransport := none } := by
  refine .of_started rfl fun x j hj => ?_
  cases x <;> simp_all [slot]

theorem map_session_follows (w : ReceiverState)
    (f : ReceiverActiveSession → ReceiverActiveSession) :
    w.Follows none
      { w with activeSession := w.activeSession.map fun s => ⟨s.session, f s.value⟩ } := by
  refine .of_started rfl fun x j hj => ?_
  cases x <;> simpa [slot, Function.comp_def] using hj

end ReceiverState

open ReceiverState

def StartStage.session : StartStage → Option ℕ
  | .insertSession => none
  | .insertTransport session | .setRegistry session | .takeHandle session | .join session
  | .spawn session | .insertHandle session => some session

def StartStage.writes (w : ReceiverState) : StartStage → Option ℕ
  | .insertSession => some w.started
  | stage => stage.session

variable {env : TaskEnv} {w : ReceiverState}

/-- A start writes its own session. -/
theorem startStep_follows (n : NegotiatedReceiverSession) {stage : StartStage}
    (h : ∀ s ∈ stage.session, s + 1 = w.started) :
    w.Follows (stage.writes w) (startStep n env w stage).2 := by
  cases stage with
  | insertSession =>
    refine @Follows.of_write _ _ _ .record (by simp [startStep]) ?_ ?_ ?_
    · simp [startStep, StartStage.writes]
    · simp [startStep, StartStage.writes, slot]
    · intro y hy
      cases y <;> simp_all [startStep, slot]
  | insertTransport session =>
    refine @Follows.of_write _ _ _ .transport (Nat.le_refl _) h ?_ ?_
    · simp [startStep, StartStage.writes, StartStage.session, slot]
    · intro y hy
      cases y <;> simp_all [startStep, slot]
  | setRegistry session =>
    refine ⟨Nat.le_refl _, h, fun x j hj => ?_⟩
    rcases mem_slot_setActiveSessionId hj with ⟨-, hold⟩ | ⟨-, hnew⟩
    · exact .inl hold
    · exact .inr hnew
  | takeHandle session =>
    have hfollows : w.Follows (some session) w.takeHandle := (takeHandle_follows w).weaken h
    grind [startStep, StartStage.writes, StartStage.session]
  | join session | spawn session => exact (Follows.refl w).weaken h
  | insertHandle session =>
    refine @Follows.of_write _ _ _ .heartbeat (Nat.le_refl _) h ?_ ?_
    · simp [startStep, StartStage.writes, StartStage.session, slot]
    · intro y hy
      cases y <;> simp_all [startStep, slot]

/-- A stop writes none. -/
theorem stopStep_follows (stage : StopStage) : w.Follows none (stopStep env w stage).2 := by
  cases stage with
  | markClosing =>
    cases hsession : w.activeSession with
    | none => simpa [stopStep, hsession] using Follows.refl w
    | some s =>
      simpa [stopStep, hsession] using
        map_session_follows w fun s => { s with state := .closing }
  | pauseTransport sess =>
    refine .of_started rfl fun x j hj => ?_
    cases x <;> simpa [stopStep, slot, Function.comp_def] using hj
  | takeHandle sess =>
    grind [stopStep, takeHandle_follows]
  | join sess => exact .refl w
  | readEntry sess =>
    grind [stopStep, Follows.refl]
  | sessionStop sess =>
    grind [stopStep, Follows.refl]
  | markFailed e => exact map_session_follows w fun s => { s with state := .failed }
  | removeTransport => exact removeTransport_follows w
  | removeSession => exact removeSession_follows w
  | clearRegistry => exact clearRegistry_follows w

theorem lostStep_follows (session leaseSeconds : ℕ) (vars : HeartbeatLoop) (stage : LostStage) :
    w.Follows none (lostStep session leaseSeconds vars w stage).2 := by
  cases stage with
  | removeSession => exact removeSession_follows w
  | removeTransport => exact removeTransport_follows w
  | clearRegistry => exact clearRegistry_follows w
  | takeHandle =>
    grind [lostStep, takeHandle_follows]
  | join => exact .refl w

/-- A heartbeat changes at most its session's own record. -/
theorem heartbeatStep_world (session leaseSeconds : ℕ) (vars : HeartbeatLoop)
    {stage : HeartbeatStage} (h : ∀ lost, stage ≠ .lost lost) :
    (heartbeatStep session leaseSeconds vars env w stage).2 = w ∨
      ∃ f : ReceiverActiveSession → ReceiverActiveSession,
        (heartbeatStep session leaseSeconds vars env w stage).2 =
          { w with activeSession := w.activeSession.map fun s => ⟨s.session, f s.value⟩ } := by
  cases stage with
  | waiting =>
    grind [heartbeatStep]
  | readSession =>
    left
    simp only [heartbeatStep]
    split <;> rfl
  | requesting sess =>
    left
    simp only [heartbeatStep]
    split <;> rfl
  | authenticate sess =>
    left
    simp only [heartbeatStep]
    split <;> rfl
  | requestingAgain sess =>
    left
    simp only [heartbeatStep]
    split <;> rfl
  | count => exact .inr ⟨fun s => { s with heartbeatSequence := s.heartbeatSequence + 1 }, rfl⟩
  | lost lost => exact absurd rfl (h lost)

theorem heartbeatStep_follows (session leaseSeconds : ℕ) (vars : HeartbeatLoop)
    (stage : HeartbeatStage) :
    w.Follows none (heartbeatStep session leaseSeconds vars env w stage).2 := by
  by_cases hlost : ∃ lost, stage = .lost lost
  · obtain ⟨lost, rfl⟩ := hlost
    exact lostStep_follows session leaseSeconds vars lost
  · rcases heartbeatStep_world session leaseSeconds vars (not_exists.mp hlost) with h | ⟨f, h⟩
    · rw [h]
      exact .refl w
    · rw [h]
      exact map_session_follows w f

end MichiServer.Receivers
