import MichiServer.Receivers.Grants

/-!
# Grants follow sessions

Which runs of starts, stops and losses leave no grant without its session. While calls of a receiver are
under way a grant may belong to one of them: to a start that has claimed it, to a stop that is about to
release it, or to a loss that is about to drop it.
-/

namespace MichiServer.Receivers.Grants

open MichiServer.Interleave

/-! ## What is asked -/

def Task.id : Task → String
  | start id .. | stop id _ | lost id _ => id

def Quiet (p : GatePool) (id : String) : Prop := ∀ t ∈ p.tasks, t.id ≠ id

def Recorded (w : GateWorld) (id : String) (stamp : AuthorityStamp) : Prop :=
  ∃ rec, w.activeSessions id = some rec ∧ rec.under = some stamp

/-- The gate holds a grant only for a session that is recorded under it, and what went to no session or
gave way to a newer grant is released. -/
structure GrantsFollow (p : GatePool) : Prop where
  recorded : ∀ id grant, Quiet p id → p.world.gate.getGrant id = some grant →
    Recorded p.world id grant.stamp
  released : ∀ x ∈ p.world.owed, ∃ request ∈ p.world.gate.releases, request.stamp = x.2

def ReleasesOwn (p : GatePool) : GateMove → Prop
  | .act i _ => ∀ id rec entry, p.tasks[i]? = some (.stop id (.release rec entry)) →
      ∀ grant, p.world.gate.getGrant entry.receiverId = some grant → rec.under = some grant.stamp
  | _ => True

/-! ## The runs that keep it -/

def StartStage.claimed : StartStage → Option AuthorityGrant
  | sessionStart _ claimed | authenticate _ claimed | startAgain _ claimed | transport _ claimed _
  | record claimed _ => claimed
  | check | info _ | claim _ | store .. => none

def StartStage.fails (env : TaskEnv) : StartStage → Bool
  | sessionStart .. =>
    match env.negotiated with
    | .ok _ => false
    | .error e => !unauthorized e
  | authenticate .. => !env.authenticated
  | startAgain .. => !env.negotiated.toBool
  | transport entry .. => !env.urlOk entry.baseUrl || !env.transport.toBool
  | check | info _ | claim _ | store .. | record .. => false

def Task.Owns (id : String) (stamp : AuthorityStamp) : Task → Prop
  | start id' _ stage => id' = id ∧ stage.claimed.map AuthorityGrant.stamp = some stamp
  | stop id' (.release ..) => id' = id
  | stop .. => False
  | lost id' .invalidate => id' = id
  | lost _ .removeSession => False

/-- A start has claimed a grant, or a stop or a loss has removed a session and not yet its grant. -/
def Task.half : Task → Bool
  | start _ _ stage => stage.claimed.isSome
  | stop _ (.release ..) => true
  | stop .. => false
  | lost _ .invalidate => true
  | lost _ .removeSession => false

def Task.releasing (id : String) : Task → Bool
  | stop id' (.release ..) => id' = id
  | _ => false

/-- Calls name a receiver by its receiver id; a start that has claimed a grant does not fail, stores it
only where the gate holds none and no stop is about to release one, and records its session only under
the grant that is held; a stop removes a session only under the grant that is held. -/
def Task.Careful (p : GatePool) (env : TaskEnv) : Task → Prop
  | start id _ .check => ∀ entry ∈ p.world.registry id, entry.receiverId = id
  | start id _ (.store ..) =>
    p.world.gate.getGrant id = none ∧ ∀ u ∈ p.tasks, u.releasing id = false
  | start id authority (.record claimed _) =>
    ∀ grant ∈ p.world.gate.getGrant id, under authority claimed = some grant.stamp
  | start _ _ stage => stage.claimed = none ∨ stage.fails env = false
  | stop id (.readEntry _) => ∀ entry ∈ p.world.registry id, entry.receiverId = id
  | stop id (.removeSession rec _) =>
    ∀ grant ∈ p.world.gate.getGrant id, rec.under = some grant.stamp
  | stop .. | lost .. => True

def Careful (p : GatePool) : GateMove → Prop
  | .act i env => ∀ t ∈ p.tasks[i]?, t.Careful p env
  | .drop i => ∀ t ∈ p.tasks[i]?, t.half = false
  | .arrive _ | .tick _ => True

instance (p : GatePool) (env : TaskEnv) : (t : Task) → Decidable (t.Careful p env)
  | .start _ _ .check => inferInstanceAs (Decidable (∀ _ ∈ _, _))
  | .start _ _ (.info _) => inferInstanceAs (Decidable (_ ∨ _))
  | .start _ _ (.claim _) => inferInstanceAs (Decidable (_ ∨ _))
  | .start _ _ (.store ..) => inferInstanceAs (Decidable (_ ∧ ∀ _ ∈ _, _))
  | .start _ _ (.sessionStart ..) => inferInstanceAs (Decidable (_ ∨ _))
  | .start _ _ (.authenticate ..) => inferInstanceAs (Decidable (_ ∨ _))
  | .start _ _ (.startAgain ..) => inferInstanceAs (Decidable (_ ∨ _))
  | .start _ _ (.transport ..) => inferInstanceAs (Decidable (_ ∨ _))
  | .start _ _ (.record ..) => inferInstanceAs (Decidable (∀ _ ∈ _, _))
  | .stop _ .markClosing => inferInstanceAs (Decidable True)
  | .stop _ (.readEntry _) => inferInstanceAs (Decidable (∀ _ ∈ _, _))
  | .stop _ (.sessionStop ..) => inferInstanceAs (Decidable True)
  | .stop _ .markFailed => inferInstanceAs (Decidable True)
  | .stop _ (.removeSession ..) => inferInstanceAs (Decidable (∀ _ ∈ _, _))
  | .stop _ (.release ..) => inferInstanceAs (Decidable True)
  | .lost .. => inferInstanceAs (Decidable True)

instance (p : GatePool) : (move : GateMove) → Decidable (Careful p move)
  | .act .. => inferInstanceAs (Decidable (∀ _ ∈ _, _))
  | .drop _ => inferInstanceAs (Decidable (∀ _ ∈ _, _))
  | .arrive _ => inferInstanceAs (Decidable True)
  | .tick _ => inferInstanceAs (Decidable True)

instance (p : GatePool) (id : String) : Decidable (Quiet p id) :=
  inferInstanceAs (Decidable (∀ _ ∈ _, _))

/-! ## The invariant -/

def Task.Addressed : Task → Prop
  | start id _ stage =>
    match stage with
    | .info entry | .claim entry | .store entry _ | .sessionStart entry _ | .authenticate entry _
    | .startAgain entry _ | .transport entry _ _ => entry.receiverId = id
    | .check | .record .. => True
  | stop id stage =>
    match stage with
    | .sessionStop _ entry | .removeSession _ entry | .release _ entry => entry.receiverId = id
    | .markClosing | .readEntry _ | .markFailed => True
  | lost .. => True

/-- A grant belongs to a recorded session or to a call under way; a stop that is about to release holds
the session of the grant; and nothing is owed. -/
structure FollowInv (p : GatePool) : Prop where
  owned : ∀ id grant, p.world.gate.getGrant id = some grant →
    Recorded p.world id grant.stamp ∨ ∃ t ∈ p.tasks, t.Owns id grant.stamp
  releasing : ∀ id rec entry, .stop id (.release rec entry) ∈ p.tasks →
    ∀ grant, p.world.gate.getGrant id = some grant → rec.under = some grant.stamp
  addressed : ∀ t ∈ p.tasks, t.Addressed
  owed : p.world.owed = []

namespace FollowInv

variable {p : GatePool} {i : ℕ} {t : Task}

/-- A grant of the receiver belongs to the session that is recorded, or to one of the tasks. -/
def Supported (ts : List Task) (w : GateWorld) (id : String) (stamp : AuthorityStamp) : Prop :=
  Recorded w id stamp ∨ ∃ t ∈ ts, t.Owns id stamp

/-- The rule for an act of a task that adds no grant. -/
theorem act_of (hinv : FollowInv p) (ht : p.tasks[i]? = some t) {env : TaskEnv} {ts : List Task}
    {w' : GateWorld} (hstep : gateManager.step t env p.world = (ts, w'))
    (hgate : ∀ id grant, w'.gate.getGrant id = some grant → p.world.gate.getGrant id = some grant)
    (hsupported : ∀ id grant, w'.gate.getGrant id = some grant →
      Recorded p.world id grant.stamp ∨ t.Owns id grant.stamp → Supported ts w' id grant.stamp)
    (hreleasing : ∀ id rec entry, .stop id (.release rec entry) ∈ ts →
      ∀ grant, w'.gate.getGrant id = some grant → rec.under = some grant.stamp)
    (haddressed : ∀ t' ∈ ts, t'.Addressed) (howed : w'.owed = p.world.owed) :
    FollowInv (p.step gateManager (.act i env)) := by
  have hworld : (p.step gateManager (.act i env)).world = w' := by
    rw [Pool.step_world ht, hstep]
  have hnew : ∀ t' ∈ (p.step gateManager (.act i env)).tasks, t' ∈ ts ∨ t' ∈ p.tasks := by
    grind [Pool.step]
  have hsub : ∀ t' ∈ ts, t' ∈ (p.step gateManager (.act i env)).tasks := fun t' ht' =>
    Pool.mem_step_of_next ht (by rw [hstep]; exact ht')
  refine ⟨fun id grant hgrant => ?_, fun id rec entry hmem grant hgrant => ?_, fun t' ht' => ?_, ?_⟩
  · rw [hworld] at hgrant ⊢
    have hbelongs : Supported ts w' id grant.stamp ∨
        ∃ u ∈ (p.step gateManager (.act i env)).tasks, u.Owns id grant.stamp := by
      rcases hinv.owned id grant (hgate id grant hgrant) with hrec | ⟨u, hu, howns⟩
      · exact .inl (hsupported id grant hgrant (.inl hrec))
      · grind [Pool.mem_step_of_mem]
    rcases hbelongs with (hrec | ⟨u, hu, howns⟩) | hstays
    · exact .inl hrec
    · exact .inr ⟨u, hsub u hu, howns⟩
    · exact .inr hstays
  · rw [hworld] at hgrant
    rcases hnew _ hmem with hts | hold
    · exact hreleasing id rec entry hts grant hgrant
    · exact hinv.releasing id rec entry hold grant (hgate id grant hgrant)
  · rcases hnew _ ht' with hts | hold
    · exact haddressed t' hts
    · exact hinv.addressed t' hold
  · rw [hworld, howed]
    exact hinv.owed

theorem act_stays (hinv : FollowInv p) (ht : p.tasks[i]? = some t) {env : TaskEnv} {ts : List Task}
    (hstep : gateManager.step t env p.world = (ts, p.world))
    (howns : ∀ id stamp, t.Owns id stamp → ∃ t' ∈ ts, t'.Owns id stamp)
    (hrelease : ∀ id rec entry, .stop id (.release rec entry) ∉ ts)
    (haddressed : ∀ t' ∈ ts, t'.Addressed) : FollowInv (p.step gateManager (.act i env)) := by
  refine hinv.act_of ht hstep (fun _ _ h => h) (fun id grant _ hheld => ?_)
    (fun id rec entry h => absurd h (hrelease id rec entry)) haddressed rfl
  rcases hheld with hrec | howned
  · exact .inl hrec
  · exact .inr (howns id _ howned)

end FollowInv

/-! ## Starts -/

/-- The start goes on with what it has claimed, or ends without a claim. -/
def Goes (id : String) (authority : Option AuthorityGrant) (stage : StartStage) (w : GateWorld)
    (r : List Task × GateWorld) : Prop :=
  r.2 = w ∧ ((∃ next, r.1 = [.start id authority next] ∧ (Task.start id authority next).Addressed ∧
    (∀ grant, stage.claimed = some grant → next.claimed = some grant)) ∨
    r.1 = [] ∧ stage.claimed = none)

section

variable {id : String} {authority : Option AuthorityGrant} {env : TaskEnv} {w : GateWorld}
  {stage : StartStage} {entry : Entry}

theorem Goes.next {next : StartStage} (haddressed : (Task.start id authority next).Addressed)
    (hclaimed : ∀ grant, stage.claimed = some grant → next.claimed = some grant) :
    Goes id authority stage w ([.start id authority next], w) :=
  ⟨rfl, .inl ⟨next, rfl, haddressed, hclaimed⟩⟩

theorem Goes.ends (hclaimed : stage.claimed = none) : Goes id authority stage w ([], w) :=
  ⟨rfl, .inr ⟨rfl, hclaimed⟩⟩

theorem claimedWith_goes (hentry : entry.receiverId = id) (hclaimed : stage.claimed = none)
    {r : Except AuthorityError (Option AuthorityGrant)} (hr : ∀ grant, r ≠ .ok (some grant)) :
    Goes id authority stage w (claimedWith id authority entry w r) := by
  have hnone : ∀ next : StartStage, ∀ grant, stage.claimed = some grant → next.claimed = some grant := by
    intro next grant h
    rw [hclaimed] at h
    cases h
  unfold claimedWith
  split
  next claimed => exact .next hentry (hnone _)
  next => exact .next hentry (hnone _)
  next => exact .ends hclaimed

theorem startFailed_goes {claimed : Option AuthorityGrant} (hsame : stage.claimed = claimed)
    (hclaimed : claimed = none) {receiverId : String} :
    Goes id authority stage w (startFailed receiverId claimed w) := by
  subst hclaimed
  refine ⟨?_, .inr ⟨rfl, hsame⟩⟩
  simp [startFailed, GateWorld.owe]

/-- A careful start goes on with the grant it claimed. -/
theorem startStep_goes (haddressed : (Task.start id authority stage).Addressed)
    (hcheck : stage = .check → ∀ entry ∈ w.registry id, entry.receiverId = id)
    (hstore : ∀ entry grant, stage ≠ .store entry grant) (hrecord : ∀ claimed n, stage ≠ .record claimed n)
    (hcareful : stage.claimed = none ∨ stage.fails env = false) :
    Goes id authority stage w (startStep id authority env w stage) := by
  have hkeeps : ∀ next : StartStage, next.claimed = stage.claimed →
      ∀ grant, stage.claimed = some grant → next.claimed = some grant := fun next h grant hgrant =>
    h.trans hgrant
  cases stage with
  | check =>
    simp only [startStep]
    split
    next _ => exact .ends rfl
    next entry hentry =>
      have hid := hcheck rfl entry hentry
      split
      next _ => exact .ends rfl
      next _ =>
        split
        next _ => exact .ends rfl
        next _ =>
          split
          next _ => exact .next hid (hkeeps _ rfl)
          next _ => exact .next hid (hkeeps _ rfl)
  | info entry =>
    simp only [startStep]
    split
    next _ => exact claimedWith_goes haddressed rfl (by simp)
    next _ =>
      split
      next _ => exact claimedWith_goes haddressed rfl (by simp)
      next _ =>
        split
        next _ => exact .next haddressed (hkeeps _ rfl)
        next _ => exact claimedWith_goes haddressed rfl (by simp)
        next _ => exact claimedWith_goes haddressed rfl (by simp)
  | claim entry =>
    simp only [startStep]
    split
    next grant _ => exact .next haddressed (hkeeps _ rfl)
    next _ => exact claimedWith_goes haddressed rfl (by simp)
  | store entry grant => exact absurd rfl (hstore entry grant)
  | sessionStart entry claimed =>
    simp only [startStep]
    split
    next n _ => exact .next haddressed (hkeeps _ rfl)
    next e he =>
      split
      next _ => exact .next haddressed (hkeeps _ rfl)
      next hnot =>
        refine startFailed_goes rfl (hcareful.resolve_right ?_)
        simp [StartStage.fails, he, hnot]
  | authenticate entry claimed =>
    simp only [startStep]
    split
    next _ => exact .next haddressed (hkeeps _ rfl)
    next hnot =>
      refine startFailed_goes rfl (hcareful.resolve_right ?_)
      simp [StartStage.fails, hnot]
  | startAgain entry claimed =>
    simp only [startStep]
    split
    next n _ => exact .next haddressed (hkeeps _ rfl)
    next e he =>
      refine startFailed_goes rfl (hcareful.resolve_right ?_)
      simp [StartStage.fails, he, Except.toBool]
  | transport entry claimed n =>
    simp only [startStep]
    split
    next hurl =>
      refine startFailed_goes rfl (hcareful.resolve_right ?_)
      grind [StartStage.fails]
    next _ =>
      split
      next _ => exact .next trivial (hkeeps _ rfl)
      next e he =>
        refine startFailed_goes rfl (hcareful.resolve_right ?_)
        simp [StartStage.fails, he, Except.toBool]
  | record claimed n => exact absurd rfl (hrecord claimed n)

end

namespace FollowInv

variable {p : GatePool} {i : ℕ} {id : String} {env : TaskEnv}

variable {authority : Option AuthorityGrant}

theorem start_goes (hinv : FollowInv p) {stage : StartStage}
    (ht : p.tasks[i]? = some (.start id authority stage))
    (hgoes : Goes id authority stage p.world (startStep id authority env p.world stage)) :
    FollowInv (p.step gateManager (.act i env)) := by
  obtain ⟨hworld, ⟨next, htasks, haddressed, hclaimed⟩ | ⟨htasks, hnone⟩⟩ := hgoes
  · refine hinv.act_stays ht (Prod.ext htasks hworld) (fun id' stamp howns => ?_) (by simp) (by simpa)
    obtain ⟨rfl, hstamp⟩ := howns
    obtain ⟨grant, hgrant, hstamp⟩ := Option.map_eq_some_iff.mp hstamp
    exact ⟨_, List.mem_singleton_self _, rfl, by rw [hclaimed grant hgrant, Option.map_some, hstamp]⟩
  · refine hinv.act_stays ht (Prod.ext htasks hworld) (fun id' stamp howns => ?_) (by simp) (by simp)
    rw [Task.Owns, hnone] at howns
    cases howns.2

/-- A start stores its grant where none is. -/
theorem start_stores (hinv : FollowInv p) {entry : Entry}
    {grant : AuthorityGrant} (ht : p.tasks[i]? = some (.start id authority (.store entry grant)))
    (hempty : p.world.gate.getGrant id = none) (hnone : ∀ u ∈ p.tasks, u.releasing id = false) :
    FollowInv (p.step gateManager (.act i env)) := by
  have hid : entry.receiverId = id := hinv.addressed _ (List.mem_of_getElem? ht)
  subst hid
  have hstored : (p.step gateManager (.act i env)).world =
      { p.world with gate := p.world.gate.storeGrant entry.receiverId grant } := by
    rw [Pool.step_world ht]
    simp [gateManager, startStep, hempty, GateWorld.owe]
  have hheld : ∀ id' held, (p.step gateManager (.act i env)).world.gate.getGrant id' = some held →
      (id' = entry.receiverId ∧ held = grant) ∨
        (id' ≠ entry.receiverId ∧ p.world.gate.getGrant id' = some held) := by
    intro id' held h
    rw [hstored] at h
    change Function.update p.world.gate.activeGrants entry.receiverId (some grant) id' = some held at h
    rw [Function.update_apply] at h
    split at h
    next hid => exact .inl ⟨hid, (Option.some.inj h).symm⟩
    next hid => exact .inr ⟨hid, h⟩
  have hnext : Task.start entry.receiverId authority (.sessionStart entry (some grant)) ∈
      (p.step gateManager (.act i env)).tasks := Pool.mem_step_of_next ht (List.mem_singleton_self _)
  have hnew : ∀ t' ∈ (p.step gateManager (.act i env)).tasks,
      t' = .start entry.receiverId authority (.sessionStart entry (some grant)) ∨ t' ∈ p.tasks := by
    intro t' ht'
    simp only [Pool.step, ht, List.mem_append] at ht'
    rcases ht' with (hleft | hts) | hright
    · exact .inr (List.mem_of_mem_take hleft)
    · exact .inl (List.mem_singleton.mp hts)
    · exact .inr (List.mem_of_mem_drop hright)
  refine ⟨fun id' held h => ?_, fun id' rec entry' hmem held h => ?_, fun t' ht' => ?_, ?_⟩
  · rcases hheld id' held h with ⟨rfl, rfl⟩ | ⟨hid, hold⟩
    · exact .inr ⟨_, hnext, rfl, rfl⟩
    · rw [hstored]
      rcases hinv.owned id' held hold with hrec | ⟨u, hu, howns⟩
      · exact .inl hrec
      · rcases Pool.mem_step_of_mem ht hu with rfl | hstays
        · exact absurd howns.1.symm hid
        · exact .inr ⟨u, hstays, howns⟩
  · rcases hnew _ hmem with hstart | hold
    · cases hstart
    · rcases hheld id' held h with ⟨rfl, rfl⟩ | ⟨-, hgrant⟩
      · -- no stop of this receiver is about to release
        grind [Task.releasing]
      · exact hinv.releasing id' rec entry' hold held hgrant
  · rcases hnew t' ht' with rfl | hold
    · rfl
    · exact hinv.addressed t' hold
  · rw [hstored]
    exact hinv.owed

theorem start_records (hinv : FollowInv p) {authority claimed : Option AuthorityGrant}
    {n : NegotiatedReceiverSession} (ht : p.tasks[i]? = some (.start id authority (.record claimed n)))
    (hheld : ∀ grant ∈ p.world.gate.getGrant id, under authority claimed = some grant.stamp) :
    FollowInv (p.step gateManager (.act i env)) := by
  refine hinv.act_of ht rfl (fun _ _ h => h) (fun id' grant hgrant hbelongs => ?_) (by simp)
    (by simp) rfl
  by_cases hid : id' = id
  · subst hid
    exact .inl ⟨_, Function.update_self .., hheld grant hgrant⟩
  · rcases hbelongs with ⟨rec, hrec, hunder⟩ | howns
    · exact .inl ⟨rec, (Function.update_of_ne hid _ _).trans hrec, hunder⟩
    · exact absurd howns.1.symm hid

theorem start (hinv : FollowInv p) {stage : StartStage}
    (ht : p.tasks[i]? = some (.start id authority stage))
    (hcareful : (Task.start id authority stage).Careful p env) :
    FollowInv (p.step gateManager (.act i env)) := by
  have haddressed := hinv.addressed _ (List.mem_of_getElem? ht)
  cases stage with
  | store entry grant => exact hinv.start_stores ht hcareful.1 hcareful.2
  | record claimed n => exact hinv.start_records ht hcareful
  | check =>
    exact hinv.start_goes ht (startStep_goes haddressed (fun _ => hcareful) (by simp) (by simp) (.inl rfl))
  | info entry | claim entry | sessionStart entry claimed | authenticate entry claimed
  | startAgain entry claimed | transport entry claimed n =>
    exact hinv.start_goes ht (startStep_goes haddressed (by simp) (by simp) (by simp) hcareful)

end FollowInv

/-! ## Stops and losses -/

theorem recorded_setSession {w : GateWorld} {id id' : String} {rec' : Option SessionRecord}
    {stamp : AuthorityStamp} (h : Recorded w id' stamp)
    (hsame : id' = id → rec'.bind (·.under) = (w.activeSessions id).bind (·.under)) :
    Recorded (w.setSession id rec') id' stamp := by
  obtain ⟨rec, hrec, hunder⟩ := h
  by_cases hid : id' = id
  · subst hid
    have hsame := hsame rfl
    rw [hrec, Option.bind_some, hunder] at hsame
    obtain ⟨rec, rfl, hunder⟩ := Option.bind_eq_some_iff.mp hsame
    exact ⟨rec, Function.update_self .., hunder⟩
  · exact ⟨rec, (Function.update_of_ne hid _ _).trans hrec, hunder⟩

namespace FollowInv

variable {p : GatePool} {i : ℕ} {id : String} {env : TaskEnv}

theorem act_removes (hinv : FollowInv p) {t next : Task} (ht : p.tasks[i]? = some t)
    (hstep : gateManager.step t env p.world = ([next], p.world.setSession id none))
    (htask : ∀ id' stamp, t.Owns id' stamp → False) (hnext : ∀ stamp, next.Owns id stamp)
    (hreleasing : ∀ id' rec entry, .stop id' (.release rec entry) ∈ [next] →
      ∀ grant, p.world.gate.getGrant id' = some grant → rec.under = some grant.stamp)
    (haddressed : next.Addressed) : FollowInv (p.step gateManager (.act i env)) := by
  refine hinv.act_of ht hstep (fun _ _ h => h) (fun id' grant _ hbelongs => ?_) hreleasing
    (by simpa using haddressed) rfl
  by_cases hid : id' = id
  · subst hid
    exact .inr ⟨next, List.mem_singleton_self _, hnext _⟩
  · rcases hbelongs with ⟨rec, hrec, hunder⟩ | howns
    · exact .inl ⟨rec, (Function.update_of_ne hid _ _).trans hrec, hunder⟩
    · exact (htask _ _ howns).elim

theorem act_drops (hinv : FollowInv p) {t : Task} (ht : p.tasks[i]? = some t) {gate : AuthorityGate}
    (hstep : gateManager.step t env p.world = ([], { p.world with gate }))
    (hgate : gate.activeGrants = Function.update p.world.gate.activeGrants id none)
    (howns : ∀ id' stamp, t.Owns id' stamp → id' = id) :
    FollowInv (p.step gateManager (.act i env)) := by
  have hheld : ∀ id' grant, gate.getGrant id' = some grant →
      id' ≠ id ∧ p.world.gate.getGrant id' = some grant := by
    intro id' grant h
    rw [AuthorityGate.getGrant, hgate, Function.update_apply] at h
    split at h
    next _ => cases h
    next hid => exact ⟨hid, h⟩
  refine hinv.act_of ht hstep (fun id' grant h => (hheld id' grant h).2)
    (fun id' grant h hbelongs => ?_) (by simp) (by simp) rfl
  rcases hbelongs with hrec | howned
  · exact .inl hrec
  · exact absurd (howns id' _ howned) (hheld id' grant h).1

theorem act_marks (hinv : FollowInv p) {t : Task} (ht : p.tasks[i]? = some t) {ts : List Task}
    {rec' : Option SessionRecord}
    (hstep : gateManager.step t env p.world = (ts, p.world.setSession id rec'))
    (hsame : rec'.bind (·.under) = (p.world.activeSessions id).bind (·.under))
    (htask : ∀ id' stamp, t.Owns id' stamp → False)
    (hrelease : ∀ id' rec entry, .stop id' (.release rec entry) ∉ ts)
    (haddressed : ∀ t' ∈ ts, t'.Addressed) : FollowInv (p.step gateManager (.act i env)) := by
  refine hinv.act_of ht hstep (fun _ _ h => h) (fun id' grant _ hbelongs => ?_)
    (fun id' rec entry h => absurd h (hrelease id' rec entry)) haddressed rfl
  rcases hbelongs with hrec | howned
  · exact .inl (recorded_setSession hrec fun _ => hsame)
  · exact (htask _ _ howned).elim

/-- A careful stop keeps the grants with their sessions. -/
theorem stop (hinv : FollowInv p) {stage : StopStage} (ht : p.tasks[i]? = some (.stop id stage))
    (hcareful : (Task.stop id stage).Careful p env) : FollowInv (p.step gateManager (.act i env)) := by
  have haddressed := hinv.addressed _ (List.mem_of_getElem? ht)
  cases stage with
  | markClosing =>
    cases hrec : p.world.activeSessions id with
    | none =>
      exact hinv.act_stays ht (by simp [gateManager, stopStep, hrec]; rfl) (fun _ _ h => h.elim)
        (by simp) (by simp)
    | some rec =>
      refine hinv.act_marks ht (by simp only [gateManager, stopStep, hrec]; rfl) (by rw [hrec]; rfl)
        (fun _ _ h => h) (by simp) fun t' ht' => ?_
      rw [List.mem_singleton.mp ht']
      trivial
  | readEntry rec =>
    cases hentry : p.world.registry id with
    | none =>
      exact hinv.act_stays ht (by simp [gateManager, stopStep, hentry]; rfl) (fun _ _ h => h.elim)
        (by simp) (by simp)
    | some entry =>
      refine hinv.act_stays ht (by simp only [gateManager, stopStep, hentry]; rfl)
        (fun _ _ h => h.elim) (by simp) fun t' ht' => ?_
      rw [List.mem_singleton.mp ht']
      exact hcareful entry hentry
  | sessionStop rec entry =>
    cases hstopped : env.stopped with
    | ok u =>
      refine hinv.act_stays ht (by simp only [gateManager, stopStep, hstopped]; rfl)
        (fun _ _ h => h.elim) (by simp) fun t' ht' => ?_
      rw [List.mem_singleton.mp ht']
      exact haddressed
    | error e =>
      refine hinv.act_stays ht (by simp only [gateManager, stopStep, hstopped]; rfl)
        (fun _ _ h => h.elim) (by simp) fun t' ht' => ?_
      rw [List.mem_singleton.mp ht']
      trivial
  | markFailed =>
    refine hinv.act_marks ht rfl ?_ (fun _ _ h => h) (by simp) (by simp)
    cases p.world.activeSessions id <;> rfl
  | removeSession rec entry =>
    refine hinv.act_removes ht rfl (fun _ _ h => h) (fun _ => rfl) ?_ haddressed
    intro id' rec' entry' hmem grant hgrant
    cases List.mem_singleton.mp hmem
    exact hcareful grant hgrant
  | release rec entry =>
    have hid : entry.receiverId = id := haddressed
    subst hid
    exact hinv.act_drops ht rfl (AuthorityGate.releaseGrant_activeGrants ..) fun _ _ h => h.symm

theorem lost (hinv : FollowInv p) {stage : LostStage} (ht : p.tasks[i]? = some (.lost id stage)) :
    FollowInv (p.step gateManager (.act i env)) := by
  cases stage with
  | removeSession =>
    exact hinv.act_removes ht rfl (fun _ _ h => h) (fun _ => rfl) (by simp) trivial
  | invalidate => exact hinv.act_drops ht rfl rfl fun _ _ h => h.symm

end FollowInv

/-! ## Runs -/

theorem Task.Owns.id_eq {t : Task} {id : String} {stamp : AuthorityStamp} (h : t.Owns id stamp) :
    t.id = id := by
  cases t with
  | start id' authority stage => exact h.1
  | stop id' stage =>
    cases stage with
    | release rec entry => exact h
    | markClosing | readEntry rec | sessionStop rec entry | markFailed | removeSession rec entry =>
      exact h.elim
  | lost id' stage =>
    cases stage with
    | invalidate => exact h
    | removeSession => exact h.elim

theorem Task.Owns.half {t : Task} {id : String} {stamp : AuthorityStamp} (h : t.Owns id stamp) :
    t.half = true := by
  cases t with
  | start id' authority stage =>
    obtain ⟨grant, hgrant, -⟩ := Option.map_eq_some_iff.mp h.2
    rw [Task.half, hgrant]
    rfl
  | stop id' stage =>
    cases stage with
    | release rec entry => rfl
    | markClosing | readEntry rec | sessionStop rec entry | markFailed | removeSession rec entry =>
      exact h.elim
  | lost id' stage =>
    cases stage with
    | invalidate => rfl
    | removeSession => exact h.elim

namespace FollowInv

variable {p : GatePool}

theorem idle (registry : String → Option Entry) : FollowInv (.idle registry) where
  owned _ _ h := by cases h
  releasing _ _ _ h := absurd h List.not_mem_nil
  addressed _ h := absurd h List.not_mem_nil
  owed := rfl

theorem arrive (hinv : FollowInv p) (c : Call) : FollowInv (p.step gateManager (.arrive c)) where
  owned id grant hgrant := (hinv.owned id grant hgrant).imp_right fun ⟨u, hu, howns⟩ =>
    ⟨u, List.mem_append_left _ hu, howns⟩
  releasing id rec entry hmem grant hgrant := by
    rcases List.mem_append.mp hmem with hold | hnew
    · exact hinv.releasing id rec entry hold grant hgrant
    · cases c <;> cases List.mem_singleton.mp hnew
  addressed t ht := by
    rcases List.mem_append.mp ht with hold | hnew
    · exact hinv.addressed t hold
    · rw [List.mem_singleton.mp hnew]
      cases c <;> trivial
  owed := hinv.owed

theorem drop (hinv : FollowInv p) {i : ℕ} (hcareful : ∀ t ∈ p.tasks[i]?, t.half = false) :
    FollowInv (p.step gateManager (.drop i)) where
  owned id grant hgrant := by
    rcases hinv.owned id grant hgrant with hrec | ⟨u, hu, howns⟩
    · exact .inl hrec
    · rcases Pool.mem_drop i hu with hdropped | hstays
      · -- a call that is dropped owns no grant
        have hhalf := hcareful u hdropped
        rw [howns.half] at hhalf
        cases hhalf
      · exact .inr ⟨u, hstays, howns⟩
  releasing id rec entry hmem := hinv.releasing id rec entry (List.eraseIdx_subset hmem)
  addressed t ht := hinv.addressed t (List.eraseIdx_subset ht)
  owed := hinv.owed

theorem step (hinv : FollowInv p) (move : GateMove) (hcareful : Careful p move) :
    FollowInv (p.step gateManager move) := by
  cases move with
  | arrive c => exact hinv.arrive c
  | drop i => exact hinv.drop hcareful
  | tick registry => exact ⟨hinv.owned, hinv.releasing, hinv.addressed, hinv.owed⟩
  | act i env =>
    cases ht : p.tasks[i]? with
    | none => simpa only [Pool.step, ht] using hinv
    | some t =>
      have ht' : t.Careful p env := hcareful t ht
      cases t with
      | start id authority stage => exact hinv.start ht ht'
      | stop id stage => exact hinv.stop ht ht'
      | lost id stage => exact hinv.lost ht

theorem follow (hinv : FollowInv p) : GrantsFollow p where
  recorded id grant hquiet hgrant := by
    rcases hinv.owned id grant hgrant with hrec | ⟨u, hu, howns⟩
    · exact hrec
    · exact absurd howns.id_eq (hquiet u hu)
  released x hx := by
    rw [hinv.owed] at hx
    cases hx

theorem releases_own (hinv : FollowInv p) (move : GateMove) : ReleasesOwn p move := by
  cases move with
  | act i env =>
    intro id rec entry ht grant hgrant
    have hmem := List.mem_of_getElem? ht
    have hid : entry.receiverId = id := hinv.addressed _ hmem
    exact hinv.releasing id rec entry hmem grant (hid ▸ hgrant)
  | arrive _ | drop _ | tick _ => trivial

end FollowInv

/-- Grants follow sessions all along a run whose moves are all careful, and each release removes the
grant of its own session. -/
theorem grants_follow_sessions (registry : String → Option Entry) (moves : List GateMove)
    (hmoves : (GatePool.idle registry).Obeys gateManager Careful moves) :
    (GatePool.idle registry).Obeys gateManager (fun p move => GrantsFollow p ∧ ReleasesOwn p move)
      moves ∧
    GrantsFollow ((GatePool.idle registry).run gateManager moves) :=
  ⟨Logic.Trace.obeys_of_invariant (fun _ move h hcareful => h.step move hcareful)
      (fun _ move h _ => ⟨h.follow, h.releases_own move⟩) (FollowInv.idle registry) hmoves,
    (Logic.Trace.run_invariant (fun _ move h hcareful => h.step move hcareful) (FollowInv.idle registry)
      hmoves).follow⟩

/-! ## Runs on one receiver -/

def sampleRegistry (id : String) : Option Entry :=
  if id = "kitchen" then
    some { receiverId := "kitchen", authoritySupported := true, capabilitiesVerified := true }
  else none

def granting (epoch : ℕ) : TaskEnv where
  claim := .ok ⟨"perch", epoch, "token", 0⟩
  negotiated := .ok Lockstep.sampleSession

def sampleStart (epoch : ℕ) : List GateMove :=
  .arrive (.startSession "kitchen" none) :: List.replicate 7 (.act 0 (granting epoch))

def sampleStop : List GateMove := .arrive (.stopSession "kitchen") :: List.replicate 5 (.act 0 {})

/-- A session is started, stopped, and another one started and lost. -/
theorem grants_follow_sessions_in_turn :
    GrantsFollow ((GatePool.idle sampleRegistry).run gateManager
      (sampleStart 1 ++ sampleStop ++ sampleStart 2 ++
        [.arrive (.handleSessionLost "kitchen"), .act 0 {}, .act 0 {}])) :=
  (grants_follow_sessions sampleRegistry _ (by decide +kernel)).2

def sampleOverlap : List GateMove :=
  sampleStart 1 ++ [.arrive (.stopSession "kitchen"), .act 0 {}, .act 0 {}, .act 0 {}] ++
    [.arrive (.startSession "kitchen" none)] ++ List.replicate 7 (.act 1 (granting 2)) ++ [.act 0 {}]

/-- A start that fails at the receiver leaves its grant in the gate; a second start replaces the grant of
the first without a release; and a stop that overlaps a start releases the grant of the newer session. -/
theorem grants_stray :
    ¬ GrantsFollow ((GatePool.idle sampleRegistry).run gateManager
      [.arrive (.startSession "kitchen" none), .act 0 {}, .act 0 {}, .act 0 (granting 1),
        .act 0 {}, .act 0 {}]) ∧
    ¬ GrantsFollow ((GatePool.idle sampleRegistry).run gateManager
      (sampleStart 1 ++ sampleStart 2)) ∧
    ¬ (GatePool.idle sampleRegistry).Obeys gateManager ReleasesOwn (sampleOverlap ++ [.act 0 {}]) := by
  refine ⟨fun h => ?_, fun h => ?_, fun h => ?_⟩
  · obtain ⟨rec, hrec, -⟩ :=
      h.recorded "kitchen" ⟨"perch", 1, "token", 0⟩ (by decide +kernel) (by decide +kernel)
    have hnone : ((GatePool.idle sampleRegistry).run gateManager
        [.arrive (.startSession "kitchen" none), .act 0 {}, .act 0 {}, .act 0 (granting 1),
          .act 0 {}, .act 0 {}]).world.activeSessions "kitchen" = none := by decide +kernel
    rw [hnone] at hrec
    cases hrec
  · obtain ⟨request, hrequest, -⟩ := h.released ("kitchen", ⟨"perch", 1⟩) (by decide +kernel)
    have hnone : ((GatePool.idle sampleRegistry).run gateManager
        (sampleStart 1 ++ sampleStart 2)).world.gate.releases = [] := by decide +kernel
    rw [hnone] at hrequest
    cases hrequest
  · have hlast := (Logic.Trace.obeys_append_iff.mp h).2.1
    have hunder := hlast "kitchen"
      ⟨{ ReceiverActiveSession.ofNegotiated Lockstep.sampleSession with state := .closing },
        some ⟨"perch", 1⟩⟩
      { receiverId := "kitchen", authoritySupported := true, capabilitiesVerified := true }
      (by decide +kernel) ⟨"perch", 2, "token", 0⟩ (by decide +kernel)
    exact absurd hunder (by decide)

end MichiServer.Receivers.Grants
