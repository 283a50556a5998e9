import MichiServer.Receivers.Bootstrap

/-!
# What a replayed journal entry has found

The branch that `reconcile_unrecovered_pairings` takes for an entry says what the tables, the registry
and the receiver have answered.
-/

namespace MichiServer.Receivers.Bootstrap

open MichiServer.Receivers.Trust

def recoveredId (journal : PairingJournalEntry) (resp : RecoverResponse) (info : RemoteInfo) : String :=
  ((resp.deviceId.or info.michiId).or info.serverId).getD journal.receiverId

variable {store : Option ReceiverCredentialStore} {journal : PairingJournalEntry}
  {env : JournalEnv} {s : BootState}

theorem outcome_registered {entry : ReceiverRegistryEntry}
    (h : outcome store journal env s = .registered entry) :
    (env.databaseRead = true → ∀ rec ∈ s.receivers, rec.id ≠ journal.receiverId) ∧
      s.manager.registry.get journal.receiverId = some entry := by
  unfold outcome at h
  split at h
  · cases h
  · grind

theorem outcome_fromJournal {token : String} {info : RemoteInfo}
    (h : outcome store journal env s = .fromJournal token info) :
    (env.databaseRead = true → ∀ rec ∈ s.receivers, rec.id ≠ journal.receiverId) ∧
      journalToken store journal env = some (token, info) := by
  unfold outcome at h
  split at h
  · cases h
  · grind

theorem outcome_recovered {deviceId token : String} {sealed : String × String} {info : RemoteInfo}
    (h : outcome store journal env s = .recovered deviceId token sealed info) :
    recoveredToken store journal env = .ok (deviceId, token, sealed, info) := by
  unfold outcome at h
  split at h
  · cases h
  · grind

theorem outcome_trustV2 (h : outcome store journal env s = .trustV2) :
    s.manager.home.isSome = true := by
  unfold outcome at h
  repeat' split at h
  all_goals first
    | assumption
    | cases h

theorem journalToken_spec {token : String} {info : RemoteInfo}
    (h : journalToken store journal env = some (token, info)) :
    ∃ ciphertext ∈ journal.tokenCiphertext, ∃ nonce ∈ journal.tokenNonce,
      (store.bind fun store => store.decryptToken journal.receiverId ciphertext nonce) = some token ∧
        env.journalVerifyToken = true ∧ env.journalInfo = some info := by
  unfold journalToken at h
  split at h
  · simp only [Option.bind_eq_bind, Option.bind_eq_some_iff] at h
    obtain ⟨ciphertext, hciphertext, nonce, hnonce, store, rfl, token', hdecrypt, h⟩ := h
    split at h
    · next hverify =>
      obtain ⟨info', hinfo, hpair⟩ := Option.map_eq_some_iff.mp h
      cases hpair
      exact ⟨ciphertext, hciphertext, nonce, hnonce, hdecrypt, hverify.1, hinfo⟩
    · cases h
  · cases h

/-- A token that is recovered was answered by the receiver. -/
theorem recoveredToken_spec {deviceId token : String} {sealed : String × String} {info : RemoteInfo}
    (h : recoveredToken store journal env = .ok (deviceId, token, sealed, info)) :
    ∃ resp ∈ env.recover, env.recoveredInfo = some info ∧
      deviceId = recoveredId journal resp info ∧ resp.token = some token ∧
        (store.bind fun store => store.encryptToken deviceId token) = some sealed := by
  unfold recoveredToken at h
  split at h
  · cases h
  · next resp hresp =>
    split at h
    · cases h
    · cases h
    · split at h
      · cases h
      · next info' hinfo =>
        simp only at h
        split at h
        · next token' store' htoken =>
          split at h
          · next sealed' hsealed =>
            split at h
            · cases h
              exact ⟨resp, hresp, hinfo, rfl, htoken, hsealed⟩
            · cases h
          · cases h
        · cases h

theorem persistPairedReceiver_spec {receiverId : String} {entry : ReceiverRegistryEntry}
    {s' : BootState} (h : persistPairedReceiver store receiverId entry env s = some s') :
    ∃ token ∈ entry.token, ∃ sealed,
      (store.bind fun store => store.encryptToken receiverId token) = some sealed ∧
        s' = persistPairedReceiverTransaction
        { id := receiverId, michiId := entry.michiId, baseUrl := entry.baseUrl,
          paired := entry.paired }
        { receiverId, ciphertext := sealed.1, nonce := sealed.2 } s := by
  unfold persistPairedReceiver at h
  simp only [Option.bind_eq_bind, Option.bind_eq_some_iff] at h
  obtain ⟨token, htoken, store, rfl, sealed, hsealed, h⟩ := h
  split at h
  · cases h
    exact ⟨token, htoken, sealed, hsealed, rfl⟩
  · cases h

theorem mem_bootSteps {env : BootEnv} {step : BootStep} (h : step ∈ bootSteps env s) :
    (∃ rec ∈ s.receivers, ∃ credentialRead, step = .restore rec credentialRead) ∨
      ∃ journal ∈ listUnrecoveredPairingJournals s, step = .replay journal (env.journal journal) := by
  obtain hrestore | hreplay := List.mem_append.mp h
  · grind
  · grind

end MichiServer.Receivers.Bootstrap
