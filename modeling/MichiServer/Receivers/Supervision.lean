import MichiServer.Receivers.Ownership

/-!
# A heartbeat ends its own session

A heartbeat task is of one session, but what it tears down when it loses the session is whatever the
receiver's places hold then. The run theorem says under which conditions that is its own session: a
loss is handled only while no later session is held or being started, and starts neither overtake
one another nor begin while a loss is being handled.
-/

namespace MichiServer.Receivers

open MichiServer.Interleave ReceiverState

/-! ## Tasks and their sessions -/

def StartStage.passed : StartStage → List Slot
  | .insertSession => []
  | .insertTransport _ => [.record]
  | .setRegistry _ => [.transport, .record]
  | .takeHandle _ => [.registry, .transport, .record]
  | .join _ | .spawn _ | .insertHandle _ => [.heartbeat, .registry, .transport, .record]

namespace Task

/-- The session of a start that has one: the one its next steps write. -/
def starting : Task → Option ℕ
  | .start _ stage => stage.session
  | _ => none

def supervised : Task → Option ℕ
  | .heartbeat session _ _ _ => some session
  | _ => none

def losing : Task → Option ℕ
  | .heartbeat session _ _ (.lost .removeSession) => some session
  | _ => none

def tearing : Task → Option ℕ
  | .heartbeat _ _ _ (.lost .removeSession) => none
  | .heartbeat session _ _ (.lost _) => some session
  | _ => none

def inserting : Task → Bool
  | .start _ .insertSession => true
  | _ => false

end Task

/-- A step of the task keeps the sessions in order: a start goes on only while no later one has been
started, it inserts its record only while no loss is being handled, and a loss begins to be handled
only while no place holds a later session and none is being started. -/
structure InOrder (p : SessionPool) (t : Task) : Prop where
  starting : ∀ s ∈ t.starting, s + 1 = p.world.started
  inserting : t.inserting → ∀ u ∈ p.tasks, u.tearing = none
  losing : ∀ s ∈ t.losing, (∀ x, ∀ j ∈ p.world.slot x, j ≤ s) ∧ ∀ u ∈ p.tasks, ∀ j ∈ u.starting, j ≤ s

def Careful (p : SessionPool) : SessionMove → Prop
  | .act i _ => ∀ t ∈ p.tasks[i]?, InOrder p t
  | _ => True

/-- A step of a heartbeat task tears down nothing but its own session. -/
def EndsOwnSession (p : SessionPool) : SessionMove → Prop
  | .act i env => ∀ t ∈ p.tasks[i]?, ∀ s ∈ t.supervised,
      TearsDownOnly s p.world (sessionManager.step t env p.world).2
  | _ => True

instance (p : SessionPool) (t : Task) : Decidable (InOrder p t) :=
  decidable_of_iff
    ((∀ s ∈ t.starting, s + 1 = p.world.started) ∧ (t.inserting → ∀ u ∈ p.tasks, u.tearing = none) ∧
      ∀ s ∈ t.losing,
        (∀ x, ∀ j ∈ p.world.slot x, j ≤ s) ∧ ∀ u ∈ p.tasks, ∀ j ∈ u.starting, j ≤ s)
    ⟨fun ⟨hstarting, hinserting, hlosing⟩ => ⟨hstarting, hinserting, hlosing⟩,
      fun h => ⟨h.starting, h.inserting, h.losing⟩⟩

instance (p : SessionPool) (move : SessionMove) : Decidable (Careful p move) := by
  cases move <;> unfold Careful <;> infer_instance

instance (p : SessionPool) (move : SessionMove) : Decidable (EndsOwnSession p move) := by
  cases move <;> unfold EndsOwnSession <;> infer_instance

/-! ## The invariant -/

def Task.session : Task → Option ℕ
  | .start _ stage => stage.session
  | .heartbeat session _ _ _ => some session
  | _ => none

def Task.passed : Task → List Slot
  | .start _ stage => stage.passed
  | _ => [.heartbeat, .registry, .transport, .record]

/-- The places that the session's start has been through hold nothing older than the session. -/
def Leads (s : ℕ) (passed : List Slot) (w : ReceiverState) : Prop :=
  s < w.started ∧ ∀ x ∈ passed, ∀ j ∈ w.slot x, s ≤ j

/-- What is known of a task: its session leads, and while its loss is being handled the places hold
nothing newer. -/
structure Task.Good (t : Task) (w : ReceiverState) : Prop where
  leads : ∀ s ∈ t.session, Leads s t.passed w
  tearing : ∀ s ∈ t.tearing, ∀ x, ∀ j ∈ w.slot x, j ≤ s

/-- No session is being started that is later than one being torn down. -/
def Task.Apart (t u : Task) : Prop :=
  (∀ s ∈ t.tearing, ∀ j ∈ u.starting, j ≤ s) ∧ ∀ s ∈ u.tearing, ∀ j ∈ t.starting, j ≤ s

/-- Every place holds a session that has been started, and the tasks are good and apart. -/
def supervision : Invariant Task ReceiverState where
  Inv w := ∀ x, ∀ j ∈ w.slot x, j < w.started
  Good := Task.Good
  Apart := Task.Apart
  apart_symm _ _ h := ⟨h.2, h.1⟩

variable {p : SessionPool} {t u : Task} {env : TaskEnv} {w w' : ReceiverState}
  {written : Option ℕ} {s : ℕ} {passed : List Slot}

theorem Leads.follows (h : Leads s passed w) (hf : w.Follows written w') : Leads s passed w' := by
  obtain ⟨hs, hpassed⟩ := h
  have hstarted := hf.started
  refine ⟨Nat.lt_of_lt_of_le hs hstarted, fun x hx j hj => ?_⟩
  rcases hf.slots x j hj with hold | hnew
  · exact hpassed x hx j hold
  · have hlast := hf.newest j hnew
    omega

theorem Leads.cons {x : Slot} (h : Leads s passed w) (hx : ∀ j ∈ w.slot x, s ≤ j) :
    Leads s (x :: passed) w := by
  refine ⟨h.1, fun y hy j hj => ?_⟩
  rcases List.mem_cons.mp hy with rfl | hy
  · exact hx j hj
  · exact h.2 y hy j hj

theorem Task.Good.follows (h : u.Good w) (hf : w.Follows written w')
    (hwritten : ∀ s ∈ u.tearing, ∀ j ∈ written, j ≤ s) : u.Good w' where
  leads s hs := (h.leads s hs).follows hf
  tearing s hs x j hj := by
    rcases hf.slots x j hj with hold | hnew
    · exact h.tearing s hs x j hold
    · exact hwritten s hs j hnew

theorem inv_follows (h : supervision.Inv w) (hf : w.Follows written w') : supervision.Inv w' := by
  intro x j hj
  have hstarted := hf.started
  rcases hf.slots x j hj with hold | hnew
  · have hlt : j < w.started := h x j hold
    omega
  · have hlast := hf.newest j hnew
    omega

def Task.writes (w : ReceiverState) : Task → Option ℕ
  | .start _ stage => stage.writes w
  | _ => none

theorem step_follows (h : InOrder p t) (env : TaskEnv) :
    p.world.Follows (t.writes p.world) (sessionManager.step t env p.world).2 := by
  cases t with
  | start n stage => exact startStep_follows n h.starting
  | stop stage => exact stopStep_follows stage
  | heartbeat session leaseSeconds vars stage =>
    exact heartbeatStep_follows session leaseSeconds vars stage
  | returned r => exact .refl p.world

/-! ## What a task becomes -/

variable {t' : Task} {session leaseSeconds : ℕ} {vars : HeartbeatLoop} {stage : HeartbeatStage}

theorem startStep_tasks {n : NegotiatedReceiverSession} {stage : StartStage}
    (h : t' ∈ (startStep n env w stage).1) :
    t'.tearing = none ∧ ∀ j ∈ t'.starting, j ∈ stage.writes w := by
  cases stage with
  | insertSession | insertTransport session | setRegistry session | join session
  | insertHandle session =>
    simp only [startStep, List.mem_singleton] at h
    subst h
    simp [Task.tearing, Task.starting, StartStage.session, StartStage.writes]
  | takeHandle session =>
    cases hhandle : w.heartbeatHandle with
    | none | some _ =>
      simp only [startStep, hhandle, List.mem_singleton] at h
      subst h
      simp [Task.tearing, Task.starting, StartStage.session, StartStage.writes]
  | spawn session =>
    simp only [startStep, List.mem_cons, List.not_mem_nil, or_false] at h
    grind [StartStage.session, StartStage.writes, Task.tearing, Task.starting]

theorem stopStep_tasks {stage : StopStage} (h : t' ∈ (stopStep env w stage).1) :
    t'.session = none ∧ t'.tearing = none ∧ t'.starting = none := by
  revert h
  cases stage <;> simp only [stopStep] <;> try split
  all_goals
    grind [Task.session, Task.tearing, Task.starting]

structure Task.Supervises (session : ℕ) (t : Task) : Prop where
  starting : t.starting = none
  session : ∀ s ∈ t.session, s = session

theorem supervises_heartbeat (session leaseSeconds : ℕ) (vars : HeartbeatLoop)
    (stage : HeartbeatStage) :
    (Task.heartbeat session leaseSeconds vars stage).Supervises session :=
  ⟨rfl, by simp [Task.session]⟩

theorem supervises_returned (session : ℕ) (r : Except String Unit) :
    (Task.returned r).Supervises session :=
  ⟨rfl, by simp [Task.session]⟩

theorem lostStep_supervises {lost : LostStage}
    (h : t' ∈ (lostStep session leaseSeconds vars w lost).1) :
    t'.Supervises session := by
  revert h
  cases lost <;> simp only [lostStep] <;> try split
  all_goals
    grind [supervises_heartbeat, supervises_returned]

theorem heartbeatFailed_task (session leaseSeconds : ℕ) (vars : HeartbeatLoop) (env : TaskEnv)
    (e : ReceiverClientError) :
    (heartbeatFailed session leaseSeconds vars env e).Supervises session ∧
      (heartbeatFailed session leaseSeconds vars env e).tearing = none := by
  unfold heartbeatFailed
  simp only
  split
  · exact ⟨supervises_heartbeat .., rfl⟩
  · exact ⟨supervises_heartbeat .., rfl⟩
  · exact ⟨supervises_heartbeat .., rfl⟩

/-- The tasks a heartbeat leaves supervise its own session. -/
theorem heartbeatStep_tasks (hstage : ∀ lost, stage ≠ .lost lost)
    (h : t' ∈ (heartbeatStep session leaseSeconds vars env w stage).1) :
    t'.Supervises session ∧ t'.tearing = none := by
  revert h
  cases stage with
  | waiting =>
    simp only [heartbeatStep]
    split
    · split
      · intro h
        rw [List.mem_singleton.mp h]
        exact ⟨supervises_returned .., rfl⟩
      · intro h
        rw [List.mem_singleton.mp h]
        exact ⟨supervises_heartbeat .., rfl⟩
    · split
      · grind [heartbeatFailed_task]
      · intro h
        rw [List.mem_singleton.mp h]
        exact ⟨supervises_heartbeat .., rfl⟩
  | readSession | authenticate sess | requestingAgain sess =>
    simp only [heartbeatStep]
    split
    all_goals
      intro h
      rw [List.mem_singleton.mp h]
      first
      | exact heartbeatFailed_task ..
      | exact ⟨supervises_heartbeat .., rfl⟩
  | requesting sess =>
    simp only [heartbeatStep]
    split
    · intro h
      rw [List.mem_singleton.mp h]
      exact ⟨supervises_heartbeat .., rfl⟩
    · intro h
      rw [List.mem_singleton.mp h]
      exact ⟨supervises_heartbeat .., rfl⟩
    · grind [heartbeatFailed_task]
  | count =>
    intro h
    rw [List.mem_singleton.mp h]
    exact ⟨supervises_heartbeat .., rfl⟩
  | lost lost => exact absurd rfl (hstage lost)

/-- A start leads to its own session. -/
theorem startStep_leads {n : NegotiatedReceiverSession} {stage : StartStage}
    (horder : ∀ s ∈ stage.session, s + 1 = w.started)
    (hleads : ∀ s ∈ stage.session, Leads s stage.passed w)
    (h : t' ∈ (startStep n env w stage).1) :
    ∀ s ∈ t'.session, Leads s t'.passed (startStep n env w stage).2 := by
  have hf : w.Follows (stage.writes w) (startStep n env w stage).2 := startStep_follows n horder
  cases stage with
  | insertSession =>
    rw [List.mem_singleton.mp h]
    intro s hs
    cases hs
    exact ⟨Nat.lt_succ_self _, by simp [Task.passed, StartStage.passed, startStep, slot]⟩
  | insertTransport session =>
    rw [List.mem_singleton.mp h]
    intro s hs
    cases hs
    refine ((hleads session rfl).follows hf).cons ?_
    simp [startStep, slot]
  | setRegistry session =>
    rw [List.mem_singleton.mp h]
    intro s hs
    cases hs
    refine ((hleads session rfl).follows hf).cons fun j hj => ?_
    rcases mem_slot_setActiveSessionId hj with ⟨hne, -⟩ | ⟨-, hnew⟩
    · exact absurd rfl hne
    · grind
  | takeHandle session =>
    have htaken : Leads session [.heartbeat, .registry, .transport, .record] w.takeHandle :=
      ((hleads session rfl).follows (takeHandle_follows w)).cons (by simp [takeHandle, slot])
    cases hhandle : w.heartbeatHandle with
    | none | some _ =>
      simp only [startStep, hhandle, List.mem_singleton] at h ⊢
      rw [h]
      intro s hs
      cases hs
      exact htaken
  | join session =>
    rw [List.mem_singleton.mp h]
    intro s hs
    cases hs
    exact hleads session rfl
  | spawn session =>
    simp only [startStep, List.mem_cons, List.not_mem_nil, or_false] at h
    rcases h with rfl | rfl
    · intro s hs
      cases hs
      exact hleads session rfl
    · intro s hs
      cases hs
      exact hleads session rfl
  | insertHandle session =>
    rw [List.mem_singleton.mp h]
    simp [Task.session]

theorem mem_session_of_tearing (h : s ∈ t.tearing) : s ∈ t.session := by
  unfold Task.tearing at h
  split at h
  · simp at h
  · exact h
  · simp at h

/-- The sessions of the tasks behind a step come from before it or were written by it. -/
theorem step_tasks (h : t' ∈ (sessionManager.step t env w).1) :
    (∀ j ∈ t'.starting, j ∈ t.writes w) ∧ ∀ s ∈ t'.tearing, s ∈ t.tearing ∨ s ∈ t.losing := by
  cases t with
  | start n stage =>
    obtain ⟨htearing, hstarting⟩ := startStep_tasks h
    exact ⟨hstarting, by simp [htearing]⟩
  | stop stage =>
    obtain ⟨-, htearing, hstarting⟩ := stopStep_tasks h
    simp [htearing, hstarting]
  | heartbeat session leaseSeconds vars stage =>
    by_cases hlost : ∃ lost, stage = .lost lost
    · obtain ⟨lost, rfl⟩ := hlost
      obtain ⟨hstarting, hsession⟩ := lostStep_supervises h
      refine ⟨by simp [hstarting], fun s hs => ?_⟩
      obtain rfl := hsession s (mem_session_of_tearing hs)
      cases lost <;> simp [Task.tearing, Task.losing]
    · obtain ⟨hsupervises, htearing⟩ := heartbeatStep_tasks (not_exists.mp hlost) h
      simp [hsupervises.starting, htearing]
  | returned r =>
    rw [List.mem_singleton.mp h]
    simp [Task.starting, Task.tearing]

/-! ## Runs -/

theorem writes_le (h : InOrder p t) (hu : u ∈ p.tasks) (hapart : t.Apart u) :
    ∀ s ∈ u.tearing, ∀ j ∈ t.writes p.world, j ≤ s := by
  intro s hs j hj
  cases t with
  | start n stage =>
    by_cases hinsert : stage = .insertSession
    · subst hinsert
      have hnone := h.inserting rfl u hu
      rw [hnone] at hs
      cases hs
    · have hsession : stage.writes p.world = stage.session := by
        cases stage <;> first | rfl | exact absurd rfl hinsert
      rw [Task.writes, hsession] at hj
      exact hapart.2 s hs j hj
  | stop stage | heartbeat session leaseSeconds vars stage | returned r => cases hj

theorem Task.Supervises.passed_eq {session : ℕ} (h : t.Supervises session) (hs : s ∈ t.session) :
    t.passed = [.heartbeat, .registry, .transport, .record] := by
  cases t with
  | start n stage =>
    have hnone : stage.session = none := h.starting
    rw [Task.session, hnone] at hs
    cases hs
  | stop stage | heartbeat session leaseSeconds vars stage | returned r => rfl

theorem heartbeatStep_supervises
        (h : t' ∈ (heartbeatStep session leaseSeconds vars env w stage).1) :
    t'.Supervises session := by
  by_cases hlost : ∃ lost, stage = .lost lost
  · obtain ⟨lost, rfl⟩ := hlost
    exact lostStep_supervises h
  · exact (heartbeatStep_tasks (not_exists.mp hlost) h).1

/-- Each step in order leaves good tasks. -/
theorem step_good (h : InOrder p t) (hgood : t.Good p.world)
    (ht' : t' ∈ (sessionManager.step t env p.world).1) :
    t'.Good (sessionManager.step t env p.world).2 := by
  cases t with
  | start n stage =>
    exact ⟨startStep_leads h.starting hgood.leads ht', by simp [(startStep_tasks ht').1]⟩
  | stop stage =>
    obtain ⟨hsession, htearing, -⟩ := stopStep_tasks ht'
    exact ⟨by simp [hsession], by simp [htearing]⟩
  | heartbeat session leaseSeconds vars stage =>
    have hf : p.world.Follows none (heartbeatStep session leaseSeconds vars env p.world stage).2 :=
      heartbeatStep_follows session leaseSeconds vars stage
    have hsupervises : t'.Supervises session := heartbeatStep_supervises ht'
    constructor
    · intro s hs
      rw [hsupervises.passed_eq hs, hsupervises.session s hs]
      exact (hgood.leads session rfl).follows hf
    · intro s hs x j hj
      have hbefore : ∀ x, ∀ j ∈ p.world.slot x, j ≤ s := by
        rcases (step_tasks ht').2 s hs with htearing | hlosing
        · exact hgood.tearing s htearing
        · exact (h.losing s hlosing).1
      rcases hf.slots x j hj with hold | hnew
      · exact hbefore x j hold
      · cases hnew
  | returned r =>
    rw [List.mem_singleton.mp ht']
    exact ⟨by simp [Task.session], by simp [Task.tearing]⟩

theorem apart_of_new {t₁ t₂ : Task} (h₁ : t₁ ∈ (sessionManager.step t env w).1)
    (h₂ : t₂ ∈ (sessionManager.step t env w).1) : t₁.Apart t₂ := by
  cases t with
  | start n stage =>
    exact ⟨by simp [(startStep_tasks h₁).1], by simp [(startStep_tasks h₂).1]⟩
  | stop stage => exact ⟨by simp [(stopStep_tasks h₁).2.1], by simp [(stopStep_tasks h₂).2.1]⟩
  | heartbeat session leaseSeconds vars stage =>
    exact ⟨by simp [(heartbeatStep_supervises h₂).starting],
      by simp [(heartbeatStep_supervises h₁).starting]⟩
  | returned r =>
    rw [List.mem_singleton.mp h₁, List.mem_singleton.mp h₂]
    exact ⟨by simp [Task.tearing], by simp [Task.tearing]⟩

/-- **Each step keeps the invariant**, in a run whose steps are in order. -/
theorem supervision_preserved : supervision.Preserved sessionManager Careful where
  enter c w _ := by
    cases c <;> exact ⟨⟨by simp [sessionManager, Task.session, StartStage.session],
      by simp [sessionManager, Task.tearing]⟩, fun u => ⟨by simp [sessionManager, Task.tearing],
      by simp [sessionManager, Task.starting, StartStage.session]⟩⟩
  self p i env t ht hcareful hinv hgood := by
    have horder : InOrder p t := hcareful t ht
    refine ⟨inv_follows hinv (step_follows horder env), fun t' ht' => step_good horder hgood ht', ?_⟩
    exact List.pairwise_of_forall_mem_list fun _ h₁ _ h₂ => apart_of_new h₁ h₂
  other p i env t u ht hu hcareful hinv hgood hgoodu hapart := by
    have horder : InOrder p t := hcareful t ht
    have hle := writes_le horder hu hapart
    refine ⟨hgoodu.follows (step_follows horder env) hle, fun t' ht' => ?_⟩
    obtain ⟨hstarting, htearing⟩ := step_tasks ht'
    refine ⟨fun s hs j hj => ?_, fun s hs j hj => hle s hs j (hstarting j hj)⟩
    rcases htearing s hs with hs | hs
    · exact hapart.1 s hs j hj
    · exact (horder.losing s hs).2 u hu j hj
  tick change w hinv := by
    have hf : w.Follows none (sessionManager.tick change w) := by
      refine .of_started (by cases change <;> rfl) fun x j hj => ?_
      cases change <;> cases x <;> simp_all [sessionManager, slot]
    exact ⟨inv_follows hinv hf, fun u hu => hu.follows hf (by simp)⟩

theorem lostStep_cancelled {lost : LostStage}
    {j : ℕ} (h : j ∈ (lostStep session leaseSeconds vars w lost).2.cancelled)
    (hnot : j ∉ w.cancelled) : j ∈ w.slot .heartbeat := by
  cases lost with
  | takeHandle =>
    grind [lostStep, takeHandle, slot]
  | removeSession | removeTransport | clearRegistry | join => exact absurd h hnot

theorem heartbeatStep_tears (h : ∀ lost, stage = .lost lost → ∀ x, ∀ j ∈ w.slot x, j = session) :
    TearsDownOnly session w (heartbeatStep session leaseSeconds vars env w stage).2 := by
  by_cases hlost : ∃ lost, stage = .lost lost
  · obtain ⟨lost, rfl⟩ := hlost
    refine ⟨fun x j hj _ => h lost rfl x j hj, fun j hcancelled hnot => ?_⟩
    exact h lost rfl .heartbeat j (lostStep_cancelled hcancelled hnot)
  · rcases heartbeatStep_world session leaseSeconds vars (not_exists.mp hlost) with hw | ⟨f, hw⟩
    · rw [hw]
      exact ⟨fun x j hj hnot => absurd hj hnot, fun j hj hnot => absurd hj hnot⟩
    · rw [hw]
      refine ⟨fun x j hj hnot => absurd ?_ hnot, fun j hj hnot => absurd hj hnot⟩
      cases x <;> simpa [slot, Function.comp_def] using hj

/-- Each careful move ends at most its own session. -/
theorem ends_own_session (hp : supervision.Holds p) {move : SessionMove} (h : Careful p move) :
    EndsOwnSession p move := by
  cases move with
  | act i env =>
    intro t ht s hs
    have hgood : t.Good p.world := hp.2.1 t (List.mem_of_getElem? ht)
    have horder : InOrder p t := h t ht
    cases t with
    | heartbeat session leaseSeconds vars stage =>
      obtain rfl : session = s := Option.some.inj hs
      refine heartbeatStep_tears fun lost hstage x j hj => ?_
      subst hstage
      have hge : session ≤ j := (hgood.leads session rfl).2 x (by cases x <;> simp [Task.passed]) j hj
      have hle : j ≤ session := by
        by_cases hremove : lost = .removeSession
        · subst hremove
          exact (horder.losing session rfl).1 x j hj
        · refine hgood.tearing session ?_ x j hj
          cases lost <;> first | rfl | exact absurd rfl hremove
      exact Nat.le_antisymm hle hge
    | start n stage | stop stage | returned r => cases hs
  | arrive c | drop i | tick change => trivial

theorem supervision_idle (receiverId : String) (registered : Bool) :
    supervision.Holds (SessionPool.idle receiverId registered) := by
  refine ⟨fun x j hj => ?_, by simp [SessionPool.idle], by simp [SessionPool.idle]⟩
  cases registered <;> cases x <;> simp [SessionPool.idle, slot] at hj

/-- **A heartbeat ends its own session.** In every run of a receiver's tasks whose steps are in order,
no step of a heartbeat task tears down anything of a session but its own. -/
theorem heartbeat_ends_own_session (receiverId : String) (registered : Bool)
    (moves : List SessionMove)
    (h : (SessionPool.idle receiverId registered).Obeys sessionManager Careful moves) :
    (SessionPool.idle receiverId registered).Obeys sessionManager EndsOwnSession moves :=
  supervision_preserved.obeys (fun _ _ hp hcareful => ends_own_session hp hcareful)
    (supervision_idle receiverId registered) h

def sampleAnswer : NegotiatedReceiverSession := ⟨"receiver-session", "token", 30⟩

def sampleStart (i : ℕ) : List SessionMove :=
  .arrive (.startSession sampleAnswer) :: List.replicate 6 (.act i {})

def sampleRequest (i : ℕ) : List SessionMove :=
  [.act i {}, .act i {}]

def sampleLoss (i : ℕ) : List SessionMove :=
  .act i { response := .error .sessionNotFound } :: List.replicate 4 (.act i {})

set_option maxRecDepth 20000 in
/-- A session is lost, and another is started. -/
theorem heartbeat_ends_own_session_sample :
    (SessionPool.idle "receiver" true).Obeys sessionManager EndsOwnSession
      (sampleStart 0 ++ sampleRequest 1 ++ sampleLoss 1 ++ sampleStart 2) :=
  heartbeat_ends_own_session "receiver" true _ (by decide)

set_option maxRecDepth 20000 in
/-- A session is restarted while a heartbeat of it is in flight, and the wait of 500 ms for its task
ends before the answer comes. The answer, that the old session is not found, ends the new one. -/
theorem late_answer_ends_newer_session :
    ¬ ∀ receiverId registered moves, (SessionPool.idle receiverId registered).Obeys
      sessionManager EndsOwnSession moves := by
  intro h
  have hrun := h "receiver" true (sampleStart 0 ++ sampleRequest 1 ++ sampleStart 2 ++
    [.act 2 {}] ++ sampleLoss 1)
  revert hrun
  decide

end MichiServer.Receivers
