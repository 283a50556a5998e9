import MichiServer.Logic.Handler
import MichiServer.Receivers.Recovery

/-!
# Pairings that survive a crash

Each state of a run is what a crash can leave. After the receiver has confirmed, its token must be
stored, or the journal must lead the next start to it; and an entry marked persisted must not be marked
too early. The manager marks it before the handler has stored anything, and the next start passes over
the entry of a receiver that it knows by its server id, or that is a Music Stream one.
-/

namespace MichiServer.Receivers.Pairing

open MichiServer.Receivers.Trust MichiServer.Receivers.Bootstrap

variable (crates : Crates) {R : Receiver} (store : ReceiverCredentialStore) (pairingId : String)

/-! ## The property and the conditions -/

def Marked (id : String) (boot : BootState) : Prop :=
  ∃ j ∈ boot.journals, j.pairingId = id ∧ j.state = .persisted

instance (id : String) (boot : BootState) : Decidable (Marked id boot) := by
  unfold Marked
  infer_instance

/-- After the receiver has confirmed, a restart that reaches it leaves it paired; and the entry of the
pairing is not marked persisted unless it is paired already. -/
def Recovers (s : PairingState R) : Prop :=
  ∀ pending ∈ s.started,
    (s.confirmed = true → ∀ rows env, Reachable R store pending env →
      Paired R store (bootstrapRuntime (some store) crates env
        (restarted none rows s.boot.receivers s.boot.credentials s.boot.journals))) ∧
    (Marked pending.pairingId s.boot → Paired R store s.boot)

def Undisturbed (s : PairingState R) : Move R → Prop
  | .write ok => s.confirmed = true ∨ ok = true
  | _ => True

instance (s : PairingState R) (m : Move R) : Decidable (Undisturbed s m) := by
  unfold Undisturbed
  split <;> infer_instance

/-- When the receiver confirms, it is paired already, or it is not a Music Stream one and no row has its
server id; and the manager marks the entry persisted only if the receiver is paired already. -/
def Careful (s : PairingState R) (m : Move R) : Prop :=
  (confirms s m = true → s.confirmed = true ∨ Paired R store s.boot ∨
    isStream (some R.info) = false ∧ Unknown R s.boot) ∧
  match s.stage, m with
  | .recordCompleted _ _, .write true => Paired R store s.boot
  | _, _ => True

instance (s : PairingState R) (m : Move R) : Decidable (Careful store s m) := by
  unfold Careful
  refine @instDecidableAnd _ _ inferInstance ?_
  split <;> infer_instance

/-! ## The journal -/

section

variable {pending : PendingReceiverPairing} {boot : BootState}
  {f : PairingJournalEntry → PairingJournalEntry}

def Journaled (pending : PendingReceiverPairing) (boot : BootState) : Prop :=
  ∃ journal ∈ boot.journals, EntryOf pending journal

def Listed (pending : PendingReceiverPairing) (boot : BootState) : Prop :=
  ∃ journal ∈ listUnrecoveredPairingJournals boot, EntryOf pending journal

theorem Listed.journaled (h : Listed pending boot) : Journaled pending boot := by
  obtain ⟨journal, hjournal, hentry⟩ := h
  exact ⟨journal, List.mem_of_mem_filter hjournal, hentry⟩

/-- The write keeps what an entry is of, and puts it in a state that is listed. -/
structure Lists (f : PairingJournalEntry → PairingJournalEntry) : Prop where
  entry : ∀ {pending journal}, EntryOf pending journal → EntryOf pending (f journal)
  pairingId : ∀ journal, (f journal).pairingId = journal.pairingId
  state : ∀ journal, (f journal).state ∈
    [.confirmSent, .remoteOutcomeUnknown, .tokenReceived, .recoveryRequired]

theorem lists_state {state : JournalState}
    (h : state ∈ [.confirmSent, .remoteOutcomeUnknown, .tokenReceived, .recoveryRequired]) :
    Lists fun j => { j with state } where
  entry hentry := ⟨hentry.pairingId, hentry.receiverId, hentry.baseUrl, hentry.remoteSessionId⟩
  pairingId _ := rfl
  state _ := h

theorem lists_tokenReceived (sealed : String × String) :
    Lists fun j => { j with
      state := .tokenReceived, tokenCiphertext := some sealed.1, tokenNonce := some sealed.2 } where
  entry hentry := ⟨hentry.pairingId, hentry.receiverId, hentry.baseUrl, hentry.remoteSessionId⟩
  pairingId _ := rfl
  state _ := by simp

theorem Lists.listed (hf : Lists f) (h : Journaled pending boot) :
    Listed pending (updateJournal pending.pairingId f boot) := by
  obtain ⟨journal, hjournal, hentry⟩ := h
  refine ⟨f journal, List.mem_filter.mpr ⟨List.mem_map.mpr ⟨journal, hjournal, ?_⟩, ?_⟩,
    hf.entry hentry⟩
  · rw [if_pos hentry.pairingId]
  · simpa using hf.state journal

theorem Lists.not_persisted (hf : Lists f) :
    ¬ ∃ j ∈ (updateJournal pending.pairingId f boot).journals,
      j.pairingId = pending.pairingId ∧ j.state = .persisted := by
  rintro ⟨j, hj, hid, hstate⟩
  obtain ⟨j, -, rfl⟩ := List.mem_map.mp hj
  by_cases h : j.pairingId = pending.pairingId
  · rw [if_pos h] at hstate
    have := hf.state j
    rw [hstate] at this
    simp at this
  · rw [if_neg h] at hid
    exact h hid

theorem journaled_start (pending : PendingReceiverPairing) (boot : BootState) :
    Journaled pending (recordPairingJournalStart pending pending.expectedServerId boot) := by
  unfold recordPairingJournalStart
  simp only
  split
  next h =>
    obtain ⟨j, hj, hid⟩ := List.any_eq_true.mp h
    have hid : j.pairingId = pending.pairingId := by simpa using hid
    refine ⟨_, List.mem_map.mpr ⟨j, hj, if_pos hid⟩, ?_⟩
    exact ⟨hid, rfl, rfl, rfl⟩
  next h => exact ⟨_, List.mem_append_right _ (List.mem_singleton_self _), ⟨rfl, rfl, rfl, rfl⟩⟩

theorem start_journals (pending : PendingReceiverPairing) (receiverId : String) (boot : BootState) :
    ∃ journals, recordPairingJournalStart pending receiverId boot = { boot with journals } := by
  unfold recordPairingJournalStart
  simp only
  split
  · exact ⟨_, rfl⟩
  · exact ⟨_, rfl⟩

theorem marked_start {receiverId pairingId : String}
    (h : Marked pairingId (recordPairingJournalStart pending receiverId boot)) :
    Marked pairingId boot := by
  obtain ⟨j, hj, hid, hstate⟩ := h
  unfold recordPairingJournalStart at hj
  simp only at hj
  split at hj
  · obtain ⟨j, hmem, rfl⟩ := List.mem_map.mp hj
    refine ⟨j, hmem, ?_⟩
    split at hid <;> simp_all
  · obtain hold | hnew := List.mem_append.mp hj
    · exact ⟨j, hold, hid, hstate⟩
    · obtain rfl := List.mem_singleton.mp hnew
      cases hstate

end

/-! ## The invariant -/

/-- The pairing that the handlers are at is the one that was started, with the receiver. -/
structure Going (R : Receiver) (started : Option PendingReceiverPairing)
    (pending : PendingReceiverPairing) : Prop where
  started : started = some pending
  serverId : pending.expectedServerId = R.serverId
  michiId : pending.expectedMichiId = R.michiId

/-- What the registry has under an id is paired, with a token that the receiver accepts. -/
def Registered (R : Receiver) (boot : BootState) (id : String) : Prop :=
  ∀ entry ∈ boot.manager.registry.get id,
    entry.paired = true ∧ ∀ token ∈ entry.token, R.accepts token = true

def Holds (s : PairingState R) : Stage R → Prop
  | .idle => s.confirmed = true ∨ ∀ pending ∈ s.started, Journaled pending s.boot
  | .recordStart pending | .recordStartAgain pending =>
    s.started = some pending ∧ s.confirmed = false
  | .recordConfirmSent pending =>
    Going R s.started pending ∧ (s.confirmed = true ∨ Journaled pending s.boot)
  | .pairConfirm pending | .recordOutcomeUnknown pending _ | .recover pending _
  | .recoverReported pending _ _ =>
    Going R s.started pending ∧ (s.confirmed = true ∨ Listed pending s.boot)
  | .recordTokenReceived pending _ | .freshInfo pending _ | .recordRecoveryRequired pending =>
    Going R s.started pending ∧ s.confirmed = true
  | .recordCompleted pending id | .persist pending id =>
    Going R s.started pending ∧ s.confirmed = true ∧ id ∈ R.names ∧ Registered R s.boot id
  | .recordPersisted pending => Going R s.started pending ∧ s.confirmed = true ∧ Paired R store s.boot

structure PairingInv (s : PairingState R) : Prop where
  pending : ∀ pending ∈ s.boot.manager.pending pairingId, s.started = some pending
  started : ∀ pending ∈ s.started, pending.pairingId = pairingId
  unconfirmed : s.started = none → s.confirmed = false
  marked : Marked pairingId s.boot → Paired R store s.boot
  stage : Holds store s s.stage
  recovers : s.confirmed = true → Paired R store s.boot ∨
    isStream (some R.info) = false ∧ Unknown R s.boot ∧
      ∃ pending, Going R s.started pending ∧ Listed pending s.boot

variable {store pairingId} {s : PairingState R} {pending : PendingReceiverPairing}

theorem PairingInv.list {f : PairingJournalEntry → PairingJournalEntry} {ok : Bool} {next : Stage R}
    (h : PairingInv store pairingId s) (hgoing : Going R s.started pending) (hf : Lists f)
    (hnext : Holds store (s.recorded ok (updateJournal pending.pairingId f) next) next) :
    PairingInv store pairingId (s.recorded ok (updateJournal pending.pairingId f) next) := by
  cases ok with
  | false => exact { h with stage := hnext }
  | true =>
    refine { h with marked := ?_, stage := hnext, recovers := ?_ }
    · rintro hmarked
      rw [← h.started pending hgoing.started] at hmarked
      exact absurd hmarked hf.not_persisted
    · intro hconfirmed
      obtain hpaired | ⟨hstream, hunknown, pending', hgoing', hlisted⟩ := h.recovers hconfirmed
      · exact .inl hpaired
      · obtain rfl : pending' = pending := Option.some.inj (hgoing'.started.symm.trans hgoing.started)
        exact .inr ⟨hstream, hunknown, pending', hgoing', hf.listed hlisted.journaled⟩

/-! ## One step -/

theorem PairingInv.to {next : Stage R} (h : PairingInv store pairingId s)
    (hnext : Holds store { s with stage := next } next) :
    PairingInv store pairingId { s with stage := next } :=
  { h with stage := hnext }

theorem PairingInv.forget {next : Stage R} (h : PairingInv store pairingId s) (id : String)
    (hnext : Holds store (s.manage (s.boot.manager.removePending id) next) next) :
    PairingInv store pairingId (s.manage (s.boot.manager.removePending id) next) := by
  refine { h with pending := ?_, stage := hnext }
  intro pending hpending
  simp only [PairingState.manage, TrustManager.pending, TrustManager.removePending] at hpending
  rw [List.find?_filter] at hpending
  by_cases hid : pairingId = id
  · have hfound := List.find?_some hpending
    subst hid
    simp at hfound
  · refine h.pending pending (Eq.trans ?_ hpending)
    grind [PendingReceiverPairing, TrustManager.pending]

theorem holds_idle (hgoing : Going R s.started pending)
    (hlisted : s.confirmed = true ∨ Listed pending s.boot) : Holds store s .idle := by
  refine hlisted.imp_right fun hlisted pending' hpending' => ?_
  obtain rfl : pending' = pending := Option.some.inj (hpending'.symm.trans hgoing.started)
  exact hlisted.journaled

theorem PairingInv.refuse (h : PairingInv store pairingId s) (hgoing : Going R s.started pending)
    (hlisted : s.confirmed = true ∨ Listed pending s.boot) (e : ReceiverProtocolError) :
    PairingInv store pairingId (s.refuse pending e) := by
  unfold PairingState.refuse
  split
  · exact h.to (holds_idle hgoing hlisted)
  · split
    · exact h.forget _ (holds_idle hgoing hlisted)
    · exact h.to (holds_idle hgoing hlisted)

theorem PairingInv.afterError (h : PairingInv store pairingId s) (hgoing : Going R s.started pending)
    (hlisted : s.confirmed = true ∨ Listed pending s.boot) (e : ReceiverProtocolError) :
    PairingInv store pairingId (s.afterError pending e) := by
  unfold PairingState.afterError
  split
  · exact h.to ⟨hgoing, hlisted⟩
  · exact h.refuse hgoing hlisted e

theorem PairingInv.answered (h : PairingInv store pairingId s) (hgoing : Going R s.started pending)
    (hlisted : s.confirmed = true ∨ Listed pending s.boot) (resp : Confirmation R)
    (hconfirmed : resp.error = none → s.confirmed = true) :
    PairingInv store pairingId (s.answered pending resp) := by
  unfold PairingState.answered
  split
  next herror => exact h.to ⟨hgoing, hconfirmed herror⟩
  next err herror =>
    split
    · exact h.to ⟨hgoing, hlisted⟩
    · split
      · exact h.forget _ (holds_idle hgoing hlisted)
      · exact h.to (holds_idle hgoing hlisted)

theorem PairingInv.recordStart {receiverId : String} {ok : Bool} {next : Stage R}
    (h : PairingInv store pairingId s) (hconfirmed : s.confirmed = false)
    (hnext : Holds store
      (s.recorded ok (recordPairingJournalStart pending receiverId) next) next) :
    PairingInv store pairingId
      (s.recorded ok (recordPairingJournalStart pending receiverId) next) := by
  cases ok with
  | false => exact { h with stage := hnext }
  | true =>
    have hmarked : Marked pairingId (recordPairingJournalStart pending receiverId s.boot) →
        Paired R store s.boot := fun hmarked => h.marked (marked_start hmarked)
    obtain ⟨journals, hjournals⟩ := start_journals pending receiverId s.boot
    simp only [PairingState.recorded, if_true] at hnext ⊢
    rw [hjournals] at hnext hmarked ⊢
    refine { h with marked := hmarked, stage := hnext, recovers := fun hc => ?_ }
    grind

theorem PairingInv.stored {boot : BootState} {next : Stage R} (h : PairingInv store pairingId s)
    (hmanager : boot.manager = s.boot.manager) (hpaired : Paired R store boot)
    (hnext : Holds store { s with boot, stage := next } next) :
    PairingInv store pairingId { s with boot, stage := next } where
  pending pending hpending := h.pending pending (hmanager ▸ hpending)
  started := h.started
  unconfirmed := h.unconfirmed
  marked _ := hpaired
  stage := hnext
  recovers _ := .inl hpaired

/-- A careful write keeps the invariant. -/
theorem PairingInv.write (h : PairingInv store pairingId s) (hseals : Seals store) {ok : Bool}
    (hundisturbed : s.confirmed = true ∨ ok = true) (hcareful : Careful store s (.write ok)) :
    PairingInv store pairingId (write (some store) ok s) := by
  have hstage := h.stage
  cases hs : s.stage with
  | recordStart pending =>
    rw [hs] at hstage
    simp only [Pairing.write, hs]
    exact h.recordStart hstage.2 ⟨hstage.1, hstage.2⟩
  | recordStartAgain pending =>
    rw [hs] at hstage
    simp only [Pairing.write, hs]
    obtain hc | rfl := hundisturbed
    · rw [hstage.2] at hc
      cases hc
    · refine h.recordStart hstage.2 (.inr fun pending' hpending' => ?_)
      obtain rfl : pending' = pending := Option.some.inj (hpending'.symm.trans hstage.1)
      exact journaled_start pending' s.boot
  | recordConfirmSent pending =>
    rw [hs] at hstage
    obtain ⟨hgoing, hjournaled⟩ := hstage
    simp only [Pairing.write, hs]
    have hlists : Lists fun j => { j with state := .confirmSent } := lists_state (by simp)
    refine h.list hgoing hlists ⟨hgoing, ?_⟩
    obtain hc | rfl := hundisturbed
    · exact .inl hc
    · exact hjournaled.imp_right hlists.listed
  | recordOutcomeUnknown pending e =>
    rw [hs] at hstage
    obtain ⟨hgoing, hlisted⟩ := hstage
    simp only [Pairing.write, hs]
    have hlists : Lists fun j => { j with state := .remoteOutcomeUnknown } := lists_state (by simp)
    have hlisted' : s.confirmed = true ∨ Listed pending
        (s.recorded ok (recordJournal pending.pairingId .remoteOutcomeUnknown) .idle).boot := by
      obtain hc | rfl := hundisturbed
      · exact .inl hc
      · exact hlisted.imp_right fun h => hlists.listed h.journaled
    exact (h.list hgoing hlists (holds_idle hgoing hlisted')).afterError hgoing hlisted' e
  | recordTokenReceived pending token =>
    rw [hs] at hstage
    cases token with
    | none =>
      simp only [Pairing.write, hs]
      exact h.to hstage
    | some token =>
      simp only [Pairing.write, hs]
      split
      next sealed hsealed => exact h.list hstage.1 (lists_tokenReceived sealed) hstage
      · exact h.to hstage
  | recordCompleted pending id =>
    rw [hs] at hstage
    simp only [Pairing.write, hs]
    cases ok with
    | false =>
      have hnext : PairingInv store pairingId
          ({ s with stage := .persist pending id } : PairingState R) := h.to hstage
      exact hnext.forget _ hstage
    | true =>
      have hpaired : Paired R store s.boot := by
        have := hcareful.2
        rwa [hs] at this
      have hnext : PairingInv store pairingId
          (s.recorded true (recordJournal pending.pairingId .persisted) (.persist pending id)) :=
        { h with marked := fun _ => hpaired, stage := hstage, recovers := fun _ => .inl hpaired }
      exact hnext.forget _ hstage
  | persist pending id =>
    rw [hs] at hstage
    obtain ⟨hgoing, hconfirmed, hid, hregistered⟩ := hstage
    simp only [Pairing.write, hs]
    split
    next boot hpersist =>
      obtain ⟨entry, hget, hrows⟩ := Option.bind_eq_some_iff.mp hpersist
      obtain ⟨token, htoken, sealed, hsealed, rfl⟩ := persistPairedReceiver_spec hrows
      obtain ⟨hpaired, haccepts⟩ := hregistered entry hget
      obtain ⟨sealed', hsealed', hopen⟩ := hseals id token
      rw [Option.bind_some, hsealed'] at hsealed
      cases hsealed
      have hstored : Stored R store (persistPairedReceiverTransaction
          { id, michiId := entry.michiId, baseUrl := entry.baseUrl, paired := entry.paired }
          { receiverId := id, ciphertext := sealed.1, nonce := sealed.2 } s.boot) id :=
        stored_persist rfl hpaired hopen (haccepts token htoken)
      have hpaired' := (⟨id, hid, hstored⟩ : Paired R store _)
      split
      · exact h.stored rfl hpaired' ⟨hgoing, hconfirmed, hpaired'⟩
      · exact h.stored rfl hpaired' ⟨hgoing, hconfirmed⟩
    · exact h.to ⟨hgoing, hconfirmed⟩
  | recordPersisted pending =>
    rw [hs] at hstage
    obtain ⟨hgoing, hconfirmed, hpaired⟩ := hstage
    simp only [Pairing.write, hs]
    cases ok with
    | false => exact h.to (.inl hconfirmed)
    | true =>
      exact { h with marked := fun _ => hpaired, stage := .inl hconfirmed,
                     recovers := fun _ => .inl hpaired }
  | recordRecoveryRequired pending =>
    rw [hs] at hstage
    simp only [Pairing.write, hs]
    exact h.list hstage.1 (lists_state (by simp)) (.inl hstage.2)
  | idle | pairConfirm | recover | recoverReported | freshInfo =>
    simp only [Pairing.write, hs]
    exact h

theorem PairingInv.answer (h : PairingInv store pairingId s)
    {resp : Except ReceiverProtocolError (Confirmation R)} (confirms : Bool)
    (hconfirmed : Pairing.confirms s (.answer confirms resp) = true → s.confirmed = true) :
    PairingInv store pairingId (answer resp s) := by
  have hstage := h.stage
  unfold Pairing.answer
  split
  next pending hs =>
    rw [hs] at hstage
    split
    next resp =>
      refine h.answered hstage.1 hstage.2 resp fun herror => hconfirmed ?_
      simp [Pairing.confirms, hs, herror, Except.toOption]
    next e =>
      split
      · exact h.to hstage
      · exact h.afterError hstage.1 hstage.2 e
  · exact h

theorem PairingInv.recovered (h : PairingInv store pairingId s) {resp : Option (Confirmation R)}
    (hconfirmed : Pairing.confirms s (.recovered resp) = true → s.confirmed = true) :
    PairingInv store pairingId (recovered resp s) := by
  have hstage := h.stage
  unfold Pairing.recovered
  split
  next pending e hs =>
    rw [hs] at hstage
    split
    next resp =>
      exact h.answered hstage.1 hstage.2 resp fun _ => hconfirmed (by simp [Pairing.confirms, hs])
    · exact h.refuse hstage.1 hstage.2 e
  next pending err token hs =>
    rw [hs] at hstage
    split
    next resp => exact h.to ⟨hstage.1, hconfirmed (by simp [Pairing.confirms, hs])⟩
    · exact h.forget _ (holds_idle hstage.1 hstage.2)
  · exact h

theorem confirmedEntry_spec {info : ReceiverInfo} {token : Option String}
    {presence : ReceiverPresence} {entry : ReceiverRegistryEntry}
    (h : confirmedEntry pending info token presence = .ok entry) :
    entry.receiverId = pending.expectedMichiId ∧ entry.paired = true ∧ entry.token = token := by
  unfold confirmedEntry at h
  split at h
  · cases h
  · next serverId _ =>
    split at h
    · cases h
    · next hidentity =>
      have hmichi : info.michiId = some pending.expectedMichiId := by
        unfold checkIdentity at hidentity
        split at hidentity
        · cases hidentity
        · split at hidentity
          · cases hidentity
          · next hmichi => exact not_not.mp hmichi
      grind

/-- A receiver that is asked again keeps the invariant. -/
theorem PairingInv.fresh (h : PairingInv store pairingId s) (info : Except String Unit)
    (presence : ReceiverPresence) : PairingInv store pairingId (fresh info presence s) := by
  have hstage := h.stage
  unfold Pairing.fresh
  split
  next pending token hs =>
    rw [hs] at hstage
    obtain ⟨hgoing, hconfirmed⟩ := hstage
    split
    next entry hentry =>
      obtain ⟨info', -, hentry⟩ := Logic.bind_eq_ok_iff.mp hentry
      obtain ⟨hid, hpaired, htoken⟩ := confirmedEntry_spec hentry
      refine { h with stage := ⟨hgoing, hconfirmed, ?_, ?_⟩ }
      · rw [hid, hgoing.michiId]
        exact R.michiId_mem
      · intro found hfound
        obtain rfl : entry = found :=
          Option.some.inj (ReceiverRegistry.get_add_self.symm.trans hfound)
        refine ⟨hpaired, fun t ht => ?_⟩
        rw [htoken] at ht
        obtain ⟨granted, -, rfl⟩ := Option.map_eq_some_iff.mp ht
        exact granted.property
    · exact h.to ⟨hgoing, hconfirmed⟩
  · exact h

variable {crates}

theorem startPairingExt_id {baseUrl initiatorId : String} {allowRePair : Bool} {env : StartEnv}
    {w : TrustManager}
    (h : startPairingExt crates R pairingId baseUrl initiatorId allowRePair env w = .ok pending) :
    pending.pairingId = pairingId := by
  unfold startPairingExt at h
  obtain ⟨info, -, h⟩ := Logic.bind_eq_ok_iff.mp h
  obtain ⟨⟨serverId, michiId, publicKey⟩, -, h⟩ := Logic.bind_eq_ok_iff.mp h
  obtain ⟨_, -, h⟩ := Logic.bind_eq_ok_iff.mp h
  obtain ⟨resp, -, h⟩ := Logic.bind_eq_ok_iff.mp h
  obtain ⟨⟨sessionId, expiresAt⟩, -, h⟩ := Logic.bind_eq_ok_iff.mp h
  cases h
  rfl

/-- The start of a pairing keeps the invariant. -/
theorem PairingInv.start (h : PairingInv store pairingId s) (baseUrl initiatorId : String)
    (rePair : Bool) (env : StartEnv) :
    PairingInv store pairingId
      (start crates pairingId baseUrl initiatorId rePair env s) := by
  unfold Pairing.start
  split
  next hs hstarted =>
    split
    · exact h
    · split
      next pending hpending =>
        have hid := startPairingExt_id hpending
        have hconfirmed := h.unconfirmed hstarted
        refine { h with pending := ?_, started := ?_, unconfirmed := fun hnone => ?_,
                        stage := ⟨rfl, hconfirmed⟩, recovers := fun hc => ?_ }
        · grind [PairingState.manage, TrustManager.pending, keepPending]
        · grind
        · cases hnone
        · rw [show s.confirmed = true from hc] at hconfirmed
          cases hconfirmed
      · exact h
  · exact h

theorem checkPreInfo_spec {info : ReceiverInfo} (h : checkPreInfo crates pending info = .ok ()) :
    info.serverId = some pending.expectedServerId ∧
      info.michiId = some pending.expectedMichiId := by
  unfold checkPreInfo at h
  split at h
  · cases h
  · next serverId hserver =>
    split at h
    · cases h
    · split at h
      · cases h
      · next hidentity =>
        unfold checkIdentity at hidentity
        split at hidentity
        · cases hidentity
        · next hsame =>
          split at hidentity
          · cases hidentity
          · next hmichi => exact ⟨by rw [hserver, not_not.mp hsame], not_not.mp hmichi⟩

/-- The confirmation of a pairing keeps the invariant. -/
theorem PairingInv.confirm (h : PairingInv store pairingId s) (now : ℕ) (info : Except String Unit) :
    PairingInv store pairingId (confirm crates (some store) pairingId now info s) := by
  have hstage := h.stage
  unfold Pairing.confirm
  split
  next pending store' hs hpending hstore =>
    rw [hs] at hstage
    split
    · exact h.forget _ hstage
    · split
      next hinfo =>
        obtain ⟨info', hget, hinfo⟩ := Logic.bind_eq_ok_iff.mp hinfo
        obtain ⟨-, -, rfl⟩ := Logic.map_eq_ok_iff.mp hget
        obtain ⟨hserver, hmichi⟩ := checkPreInfo_spec hinfo
        rw [R.info_server_id] at hserver
        rw [R.info_michi_id] at hmichi
        have hstarted := h.pending pending hpending
        refine h.to ⟨⟨hstarted, (Option.some.inj hserver).symm, (Option.some.inj hmichi).symm⟩, ?_⟩
        exact hstage.imp_right fun hjournaled => hjournaled pending hstarted
      · exact h
  · exact h

/-- A move that confirms found its journal listed. -/
theorem PairingInv.listed_of_confirms (h : PairingInv store pairingId s) {m : Move R}
    (hconfirms : confirms s m = true) :
    ∃ pending, Going R s.started pending ∧ (s.confirmed = true ∨ Listed pending s.boot) := by
  have hstage := h.stage
  cases m with
  | answer confirms resp =>
    simp only [Pairing.confirms] at hconfirms
    split at hconfirms
    next pending hs =>
      rw [hs] at hstage
      exact ⟨pending, hstage⟩
    · cases hconfirms
  | recovered resp =>
    simp only [Pairing.confirms] at hconfirms
    split at hconfirms
    next pending e hs =>
      rw [hs] at hstage
      exact ⟨pending, hstage⟩
    next pending err token hs =>
      rw [hs] at hstage
      exact ⟨pending, hstage⟩
    · cases hconfirms
  | start | confirm | write | fresh => cases hconfirms

theorem Holds.confirmed {stage : Stage R} (h : Holds store s stage) (hs : ∀ pending,
    stage ≠ .recordStart pending ∧ stage ≠ .recordStartAgain pending) :
    Holds store { s with confirmed := true } stage := by
  cases stage with
  | idle => exact .inl rfl
  | recordStart pending => exact absurd rfl (hs pending).1
  | recordStartAgain pending => exact absurd rfl (hs pending).2
  | recordConfirmSent | pairConfirm | recordOutcomeUnknown | recover | recoverReported =>
    exact ⟨h.1, .inl rfl⟩
  | recordTokenReceived | freshInfo | recordRecoveryRequired => exact ⟨h.1, rfl⟩
  | recordCompleted | persist | recordPersisted => exact ⟨h.1, rfl, h.2.2⟩

/-- The note that a move confirms keeps the invariant. -/
theorem PairingInv.noted (h : PairingInv store pairingId s) {m : Move R}
    (hcareful : Careful store s m) :
    PairingInv store pairingId { s with confirmed := s.confirmed || confirms s m } := by
  cases hconfirms : confirms s m with
  | false =>
    rw [Bool.or_false]
    exact h
  | true =>
    rw [Bool.or_true]
    obtain ⟨pending, hgoing, hlisted⟩ := h.listed_of_confirms hconfirms
    refine { h with unconfirmed := fun hnone => ?_, stage := h.stage.confirmed fun pending => ?_,
                    recovers := fun _ => ?_ }
    · rw [show s.started = none from hnone] at hgoing
      cases hgoing.started
    · constructor
      all_goals
        intro hs
        cases m <;> simp [confirms, hs] at hconfirms
    · by_cases hbefore : s.confirmed = true
      · exact h.recovers hbefore
      · obtain hpaired | ⟨hstream, hunknown⟩ := (hcareful.1 hconfirms).resolve_left hbefore
        · exact .inl hpaired
        · grind [pending]

theorem PairingInv.step (h : PairingInv store pairingId s) (hseals : Seals store) {m : Move R}
    (hundisturbed : Undisturbed s m) (hcareful : Careful store s m) :
    PairingInv store pairingId (step crates (some store) pairingId s m) := by
  have hnoted := h.noted hcareful
  unfold Pairing.step
  cases m with
  | start baseUrl initiatorId rePair env => exact hnoted.start baseUrl initiatorId rePair env
  | confirm now info => exact hnoted.confirm now info
  | write ok =>
    refine hnoted.write hseals (hundisturbed.imp_left fun h => ?_) ⟨fun hc => ?_, hcareful.2⟩
    · simp [h]
    · cases hc
  | answer confirms resp =>
    refine hnoted.answer confirms fun hc => ?_
    exact Bool.or_eq_true_iff.mpr (.inr hc)
  | recovered resp =>
    refine hnoted.recovered fun hc => ?_
    exact Bool.or_eq_true_iff.mpr (.inr hc)
  | fresh info presence => exact hnoted.fresh info presence

/-! ## Runs -/

theorem PairingInv.recovered_by_restart (h : PairingInv store pairingId s) (hseals : Seals store) :
    Recovers crates store s := by
  intro pending hstarted
  refine ⟨fun hconfirmed rows env hreachable => ?_, fun hmarked => h.marked ?_⟩
  · obtain hpaired | ⟨hstream, hunknown, pending', hgoing, journal, hlisted, hentry⟩ :=
      h.recovers hconfirmed
    · exact hpaired.restart crates rows hreachable hseals
    · obtain rfl : pending = pending' := Option.some.inj (hstarted.symm.trans hgoing.started)
      exact hunknown.restart crates rows hreachable hseals hstream hgoing.serverId hlisted hentry
  · rwa [h.started pending hstarted] at hmarked

/-- **Pairings that survive a crash.** For every receiver, all tables and registries and every run of the
two handlers over one pairing, in which no write fails before the receiver has confirmed: if, when it
confirms, it is stored already, or it is not a Music Stream receiver and no row has its server id, and
the manager marks the entry persisted only when the receiver is stored, then in every state of the run
after the confirmation a restart that reaches the receiver stores it, and the entry is not marked
persisted before. -/
theorem pairing_recovers (hseals : Seals store) (boot : BootState)
    (hpending : boot.manager.pending pairingId = none)
    (hfresh : ∀ journal ∈ boot.journals, journal.pairingId ≠ pairingId) {moves : List (Move R)}
    (hundisturbed : Logic.Trace.Obeys (step crates (some store) pairingId) Undisturbed { boot } moves)
    (hcareful : Logic.Trace.Obeys (step crates (some store) pairingId) (Careful store) { boot } moves) :
    Recovers crates store (Logic.Trace.run (step crates (some store) pairingId) { boot } moves) := by
  have hinit : PairingInv store pairingId ({ boot } : PairingState R) :=
    { pending := fun pending h => by simp [hpending] at h
      started := fun pending h => by cases h
      unconfirmed := fun _ => rfl
      marked := fun ⟨journal, hjournal, hid, _⟩ => absurd hid (hfresh journal hjournal)
      stage := .inr fun pending h => by cases h
      recovers := fun h => by cases h }
  have hinv := Logic.Trace.run_invariant (I := PairingInv store pairingId)
    (fun s m hs hm => hs.step hseals hm.1 hm.2) hinit (hundisturbed.and hcareful)
  exact hinv.recovered_by_restart hseals

/-! ## A receiver -/

/-- The answers of a receiver that is reached, to a start with a working database. -/
def reached (R : Receiver) (store : ReceiverCredentialStore) (pending : PendingReceiverPairing) :
    BootEnv where
  journal j :=
    if j.baseUrl = pending.receiverBaseUrl then
      { journalVerifyToken :=
          (j.tokenCiphertext.bind fun ciphertext => j.tokenNonce.bind fun nonce =>
            store.decryptToken j.receiverId ciphertext nonce).any R.accepts
        journalInfo := some R.info
        streamInfo := some R.info
        pairStatus := some .confirmed
        recover := some { deviceId := R.recoverDeviceId, token := some R.recoverToken }
        recoveredVerifyToken := some true
        recoveredInfo := some R.info }
    else { journalVerifyToken := false }

/-- The receiver of the run answers as one that can be reached. -/
theorem reachable_reached (R : Receiver) (store : ReceiverCredentialStore)
    (pending : PendingReceiverPairing) : Reachable R store pending (reached R store pending) where
  listJournals := rfl
  here j hurl := by
    simp only [reached, if_pos hurl]
    exact
      { databaseRead := rfl
        databaseWrite := rfl
        journalVerifyToken := fun ciphertext hciphertext nonce hnonce token htoken => by
          simp [Option.mem_def.mp hciphertext, Option.mem_def.mp hnonce, Option.mem_def.mp htoken]
        journalInfo := rfl
        streamInfo := rfl
        recover := rfl
        recoveredVerifyToken := rfl
        recoveredInfo := rfl }
  confirmed j hurl _ := by simp only [reached, if_pos hurl]
  elsewhere j hurl := by
    simp only [reached, if_neg hurl]
    exact
      { databaseRead := rfl
        journalToken := fun h => by cases h
        recoveredToken := fun resp hresp => by cases hresp }

def keyedStore : ReceiverCredentialStore where
  decryptToken id ciphertext nonce := if nonce = id then some ciphertext else none
  encryptToken id token := some (token, id)

def kitchen (service : String) : Receiver where
  info :=
    { michiId := some "kitchen-key", serverId := some "kitchen-server", publicKey := some "pk"
      identityScheme := some "ed25519-blake3-v1", service := some service }
  serverId := "kitchen-server"
  michiId := "kitchen-key"
  info_server_id := rfl
  info_michi_id := rfl
  ids_differ := by decide
  accepts token := token = "granted" ∨ token = "recovered"
  recoverToken := "recovered"
  recover_accepted := by decide

/-- A pairing with it up to its confirmation; whether the detection of its profile reaches it. -/
def toConfirmation (service : String) (checkInfo : Except String Unit) :
    List (Move (kitchen service)) :=
  [.start "http://kitchen/" "admin" false
      { checkInfo, derivedId := fun _ => .ok "kitchen-key"
        pairStart := .ok
          { sessionId := some "s1", expiresAt := some ("later", .ok 60)
            serverMichiId := some "kitchen-key", serverPublicKey := some "pk" } },
    .write true, .write true, .confirm 1 (.ok ()), .write true,
    .answer true (.ok { token := some ⟨"granted", rfl⟩ })]

/-- The rest of it: the token is journalled, the receiver is asked again, the manager marks the entry,
the rows are written, and the handler marks it. -/
def toEnd (service : String) (completed : Bool) : List (Move (kitchen service)) :=
  [.write true, .fresh (.ok ()) .offline, .write completed, .write true, .write true]

def kitchenPairing : PendingReceiverPairing where
  pairingId := "p1"
  receiverBaseUrl := "http://kitchen"
  receiverPairSessionId := "s1"
  initiatorId := "admin"
  expiresAt := 60
  expectedServerId := "kitchen-server"
  expectedMichiId := "kitchen-key"
  expectedPublicKey := "pk"

theorem seals_keyedStore : Seals keyedStore := fun id token => ⟨(token, id), rfl, by simp [keyedStore]⟩

/-- The pairing is confirmed, the last mark is lost, and the pairing is recovered. -/
theorem pairing_recovers_after_lost_mark :
    let moves := toConfirmation " michi-stream-standard" (.ok ()) ++
      toEnd " michi-stream-standard" false
    Recovers sampleCrates keyedStore (Logic.Trace.run
      (step sampleCrates (some keyedStore) "p1") { boot := { manager := { home := none } } } moves) ∧
    (Logic.Trace.run (step sampleCrates (some keyedStore) "p1")
      { boot := { manager := { home := none } } } moves).confirmed = true :=
  ⟨pairing_recovers seals_keyedStore _ rfl (by decide) (by decide +kernel) (by decide +kernel),
    by decide +kernel⟩

/-- **A pairing that is lost.** The plain first pairing of a receiver: the manager has marked its entry
persisted and nothing is stored yet. After a crash here the next start does not look at the entry. And
the pairing of a Music Stream receiver whose profile was not detected: after a crash at the confirmation
the entry is listed, and every start passes over it. -/
theorem pairing_is_lost :
    ¬ Recovers sampleCrates keyedStore (Logic.Trace.run
      (step sampleCrates (some keyedStore) "p1") { boot := { manager := { home := none } } }
      (toConfirmation " michi-stream-standard" (.ok ()) ++
        (toEnd " michi-stream-standard" true).take 3)) ∧
    ¬ Recovers sampleCrates keyedStore (Logic.Trace.run
      (step sampleCrates (some keyedStore) "p1") { boot := { manager := { home := none } } }
      (toConfirmation "michi-stream-standard" (.error "timeout"))) := by
  constructor
  · intro h
    have hstarted : (Logic.Trace.run (step sampleCrates (some keyedStore) "p1")
        { boot := { manager := { home := none } } }
        (toConfirmation " michi-stream-standard" (.ok ()) ++
          (toEnd " michi-stream-standard" true).take 3)).started = some kitchenPairing := by
      decide +kernel
    exact absurd ((h kitchenPairing hstarted).2 (by decide +kernel)) (by decide +kernel)
  · intro h
    have hstarted : (Logic.Trace.run (step sampleCrates (some keyedStore) "p1")
        { boot := { manager := { home := none } } }
        (toConfirmation "michi-stream-standard" (.error "timeout"))).started =
          some kitchenPairing := by
      decide +kernel
    exact absurd ((h kitchenPairing hstarted).1 (by decide +kernel) []
      (reached (kitchen "michi-stream-standard") keyedStore kitchenPairing)
      (reachable_reached _ _ _)) (by decide +kernel)

end MichiServer.Receivers.Pairing
