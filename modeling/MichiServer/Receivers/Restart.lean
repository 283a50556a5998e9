import Mathlib.Data.Option.Basic
import MichiServer.Receivers.Bootstrap

/-!
# Revocations across a restart

After the persisted revocations are loaded into the empty registry, each row of `receivers` and each
pairing journal entry can add an entry with a token. None of these steps looks at the revocations, apart
from an authentication by home membership, which looks at the michi id before it and not at the one the
receiver reports. The registry stays free of revoked devices' tokens exactly as long as no step writes
one.
-/

namespace MichiServer.Receivers.Bootstrap

open MichiServer.Receivers.Trust

/-! ## The property and the condition -/

def persistedDevices (s : BootState) : List String :=
  match s.manager.db, s.manager.home with
  | some rows, some home =>
    (listHomeRevocationsDb rows home.homeId).map PersistedHomeRevocation.revokedDeviceMichiId
  | _, _ => []

def Bare (e : ReceiverRegistryEntry) : Prop :=
  e.paired = false ∧ e.authenticated = false ∧ e.token = none

instance (e : ReceiverRegistryEntry) : Decidable (Bare e) := inferInstanceAs (Decidable (_ ∧ _ ∧ _))

def Clean (devices : List String) (reg : ReceiverRegistry) : Prop :=
  ∀ e ∈ reg.receivers, isAnyDevice devices e = true → Bare e

instance (devices : List String) (reg : ReceiverRegistry) : Decidable (Clean devices reg) := by
  unfold Clean
  infer_instance

/-- The receiver that an authentication of a journal entry succeeds for, under the michi id that it
reports. -/
def reauthenticated (baseUrl : String) (env : JournalEnv) (w : TrustManager) :
    Option ReceiverRegistryEntry :=
  match env.urlInfo, (authenticateUrl baseUrl env w).1 with
  | .ok url, .ok info =>
    ((withUrlEntry baseUrl url w).registry.getMut (urlReceiverId baseUrl url w)).map fun e =>
      { e with michiId := info.michiId.or e.michiId }
  | _, _ => none

/-- The step gives no token to one of the devices: a row of it has no credential that decrypts, and a
journal entry recovers or authenticates another one. -/
def StepOk (devices : List String) (store : Option ReceiverCredentialStore) (s : BootState) :
    BootStep → Prop
  | .restore rec credentialRead =>
    isAnyDevice devices (restoredEntry rec none) = true →
      restoredToken store credentialRead s rec = none
  | .replay journal env =>
    match outcome store journal env s with
    | .fromJournal _ info =>
      isAnyDevice devices (recoveredEntry journal.receiverId "" "" info) = false
    | .recovered deviceId _ _ info =>
      isAnyDevice devices (recoveredEntry deviceId "" "" info) = false
    | .trustV2 =>
      ∀ e ∈ reauthenticated journal.baseUrl env s.manager, isAnyDevice devices e = false
    | _ => True

/-! ## The registry -/

variable {devices : List String} {reg : ReceiverRegistry} {entry : ReceiverRegistryEntry}

theorem isAnyDevice_congr {a b : ReceiverRegistryEntry} (hid : a.receiverId = b.receiverId)
    (hmichi : a.michiId = b.michiId) : isAnyDevice devices a = isAnyDevice devices b := by
  simp only [isAnyDevice, isDevice, hid, hmichi]

theorem clean_add_iff (h : Clean devices reg) :
    Clean devices (reg.add entry) ↔ (isAnyDevice devices entry = true → Bare entry) := by
  constructor
  · exact fun hadd => hadd entry (List.mem_append_right _ (List.mem_singleton_self _))
  · intro hentry e he
    rcases ReceiverRegistry.mem_add he with hold | rfl
    · exact h e hold
    · exact hentry

theorem clean_modify_iff (h : Clean devices reg) (id : String)
    (f : ReceiverRegistryEntry → ReceiverRegistryEntry) :
    Clean devices (reg.modify id f) ↔ ∀ e ∈ reg.getMut id,
      isAnyDevice devices { f e with receiverId := e.receiverId } = true →
        Bare { f e with receiverId := e.receiverId } := by
  constructor
  · intro hmodify e he
    refine hmodify _ ?_
    rw [ReceiverRegistry.modify, Option.mem_def.mp he]
    refine List.mem_map.mpr ⟨e, ReceiverRegistry.mem_of_getMut he, ?_⟩
    simp only [decide_true, if_true]
  · intro hfound e he
    rcases ReceiverRegistry.mem_modify he with hold | ⟨e', he', rfl⟩
    · exact h e hold
    · exact hfound e' he'

theorem clean_modify_revoke (h : Clean devices reg) (id : String) :
    Clean devices (reg.modify id ReceiverRegistryEntry.revoke) :=
  (clean_modify_iff h id _).mpr fun _ _ _ => ⟨rfl, rfl, rfl⟩

/-! ## One step -/

variable {w : TrustManager}

theorem clean_withUrlEntry (h : Clean devices w.registry) (baseUrl : String) (info : RemoteInfo) :
    Clean devices (withUrlEntry baseUrl info w).registry := by
  simp only [withUrlEntry]
  split
  · exact (clean_add_iff h).mpr fun _ => ⟨rfl, rfl, rfl⟩
  · exact h

/-- An authentication marks the entry and gives a token, or fails and changes nothing of it. -/
theorem authenticateReceiverInner_spec (receiverId : String) (env : Env) (w : TrustManager) :
    (∃ token info, authenticateReceiverInner receiverId env w =
        (.ok info,
          { w with registry := w.registry.modify receiverId (authenticatedEntry token info) })) ∨
      ∃ e, authenticateReceiverInner receiverId env w = (.error e, w) ∨
        authenticateReceiverInner receiverId env w =
          (.error e, { w with registry := w.registry.modify receiverId ReceiverRegistryEntry.revoke }) := by
  unfold authenticateReceiverInner
  split
  · exact .inr ⟨_, .inl rfl⟩
  · split
    · exact .inr ⟨_, .inl rfl⟩
    · split
      · exact .inr ⟨_, .inl rfl⟩
      · split
        · exact .inr ⟨_, .inl rfl⟩
        · simp only
          split
          · exact .inr ⟨_, .inr rfl⟩
          · split
            · exact .inr ⟨_, .inl rfl⟩
            · exact .inr ⟨_, .inl rfl⟩
            · exact .inl ⟨_, _, rfl⟩

/-- An authentication keeps the registry clean exactly where it authenticates no revoked device. -/
theorem clean_authenticateUrl_iff (h : Clean devices w.registry) (baseUrl : String)
    (env : JournalEnv) :
    Clean devices (authenticateUrl baseUrl env w).2.registry ↔
      ∀ e ∈ reauthenticated baseUrl env w, isAnyDevice devices e = false := by
  cases hurl : env.urlInfo with
  | error e => simp [authenticateUrl, reauthenticated, hurl, h]
  | ok url =>
    have hclean := clean_withUrlEntry h baseUrl url
    have hcall : authenticateUrl baseUrl env w =
        authenticateReceiverInner (urlReceiverId baseUrl url w) env.auth
          (withUrlEntry baseUrl url w) := by
      simp only [authenticateUrl, hurl]
    simp only [reauthenticated, hurl, hcall]
    obtain ⟨token, info, hauth⟩ | ⟨e, hauth | hauth⟩ :=
      authenticateReceiverInner_spec (urlReceiverId baseUrl url w) env.auth
        (withUrlEntry baseUrl url w)
    · rw [hauth, clean_modify_iff hclean, Option.forall_mem_map]
      refine forall₂_congr fun e _ => ?_
      rw [isAnyDevice_congr (b := { e with michiId := info.michiId.or e.michiId }) rfl rfl,
        ← Bool.not_eq_true]
      -- what an authentication writes is not bare
      exact ⟨fun hbare hdevice => Bool.noConfusion (hbare hdevice).1, fun hnot hdevice =>
        absurd hdevice hnot⟩
    · rw [hauth]
      simp [hclean]
    · rw [hauth]
      simp [clean_modify_revoke hclean]

variable {store : Option ReceiverCredentialStore} {s : BootState}

theorem clean_restore_iff (h : Clean devices s.manager.registry) (rec : PersistedReceiver)
    (credentialRead : Bool) :
    Clean devices (bootStep store s (.restore rec credentialRead)).manager.registry ↔
      StepOk devices store s (.restore rec credentialRead) := by
  simp only [bootStep, withRegistry, StepOk]
  rw [clean_add_iff h, isAnyDevice_congr (b := restoredEntry rec none) rfl rfl]
  refine imp_congr_right fun _ => ?_
  simp [restoredToken, Bare, restoredEntry]

theorem persistPairedReceiver_manager {receiverId : String} {env : JournalEnv} {s' : BootState}
    (h : persistPairedReceiver store receiverId entry env s = some s') : s'.manager = s.manager := by
  unfold persistPairedReceiver at h
  obtain ⟨token, -, h⟩ := Option.bind_eq_some_iff.mp h
  obtain ⟨store, -, h⟩ := Option.bind_eq_some_iff.mp h
  obtain ⟨sealed, -, h⟩ := Option.bind_eq_some_iff.mp h
  simp only at h
  split at h
  · cases h
    rfl
  · cases h

theorem persistAuthenticated_manager (baseUrl : String) (env : JournalEnv) (before : TrustManager) :
    (persistAuthenticated store baseUrl env before s).manager = s.manager := by
  unfold persistAuthenticated
  split
  · simp only
    split
    · split <;> rfl
    · rfl
  · rfl

theorem clean_add_recovered_iff (h : Clean devices reg) (receiverId token baseUrl : String)
    (info : RemoteInfo) :
    Clean devices (reg.add (recoveredEntry receiverId token baseUrl info)) ↔
      isAnyDevice devices (recoveredEntry receiverId "" "" info) = false := by
  rw [clean_add_iff h, isAnyDevice_congr (b := recoveredEntry receiverId "" "" info) rfl rfl,
    ← Bool.not_eq_true]
  exact ⟨fun hbare hdevice => Bool.noConfusion (hbare hdevice).1, fun hnot hdevice =>
    absurd hdevice hnot⟩

/-- A replay keeps it clean exactly where its step may be taken. -/
theorem clean_replay_iff (h : Clean devices s.manager.registry) (journal : PairingJournalEntry)
    (env : JournalEnv) :
    Clean devices (bootStep store s (.replay journal env)).manager.registry ↔
      StepOk devices store s (.replay journal env) := by
  cases houtcome : outcome store journal env s with
  | known =>
    simp only [bootStep, replay, StepOk, houtcome]
    exact iff_of_true h trivial
  | registered entry =>
    simp only [bootStep, replay, StepOk, houtcome]
    grind [recordJournal, persistPairedReceiver_manager]
  | fromJournal token info =>
    simp only [bootStep, replay, StepOk, houtcome]
    exact clean_add_recovered_iff h journal.receiverId token journal.baseUrl info
  | trustV2 =>
    simp only [bootStep, replay, StepOk, houtcome]
    grind [clean_authenticateUrl_iff, persistAuthenticated_manager, recordJournal]
  | recovered deviceId token sealed info =>
    simp only [bootStep, replay, StepOk, houtcome]
    exact clean_add_recovered_iff h deviceId token journal.baseUrl info
  | ended state =>
    cases state with
    | none | some =>
      simp only [bootStep, replay, StepOk, houtcome]
      exact iff_of_true h trivial

theorem clean_step_iff (s : BootState) (step : BootStep) (h : Clean devices s.manager.registry) :
    Clean devices (bootStep store s step).manager.registry ↔ StepOk devices store s step := by
  cases step with
  | restore rec credentialRead => exact clean_restore_iff h rec credentialRead
  | replay journal env => exact clean_replay_iff h journal env

/-! ## The whole start -/

theorem loaded_registry (crates : Crates) (env : BootEnv) (home : Option HomeRootAuthority)
    (rows : List PersistedHomeRevocation) (receivers : List PersistedReceiver)
    (credentials : List PersistedReceiverCredential) (journals : List PairingJournalEntry) :
    (loaded crates env (restarted home rows receivers credentials journals)).manager.registry.receivers
      = [] := by
  cases home with
  | none => rfl
  | some home =>
    simp only [loaded, restarted, loadPersistedRevocations]
    split
    · rfl
    · split <;> rfl

/-- **Exactly when revocations survive a restart.** For all persisted revocations, receivers,
credentials and journal entries, and whatever the database and the receivers answer: when no step gives
a device with a persisted revocation a token, no entry of such a device is paired, authenticated or holds
a token after the start; and that is exactly when there is none after any step of it. -/
theorem revocations_survive_restart_iff (store : Option ReceiverCredentialStore) (crates : Crates)
    (env : BootEnv) (home : Option HomeRootAuthority) (rows : List PersistedHomeRevocation)
    (receivers : List PersistedReceiver) (credentials : List PersistedReceiverCredential)
    (journals : List PairingJournalEntry) :
    let s := restarted home rows receivers credentials journals
    let givesNoToken := Logic.Trace.Obeys (bootStep store) (StepOk (persistedDevices s) store)
      (loaded crates env s) (bootSteps env s)
    (givesNoToken →
      Clean (persistedDevices s) (bootstrapRuntime store crates env s).manager.registry) ∧
    ((∀ before, before <+: bootSteps env s → Clean (persistedDevices s)
        (Logic.Trace.run (bootStep store) (loaded crates env s) before).manager.registry) ↔
      givesNoToken) := by
  intro s givesNoToken
  have hiff : (∀ before, before <+: bootSteps env s → Clean (persistedDevices s)
      (Logic.Trace.run (bootStep store) (loaded crates env s) before).manager.registry) ↔
        givesNoToken := by
    refine Logic.Trace.invariant_along_iff (fun s' step h => clean_step_iff s' step h) ?_ _
    intro e he
    rw [loaded_registry] at he
    cases he
  exact ⟨fun h => hiff.mpr h _ (List.prefix_refl _), hiff⟩

def sampleStore : ReceiverCredentialStore where
  decryptToken _ ciphertext _ := some ciphertext
  encryptToken _ token := some (token, "")

def revokedAndPaired : BootState :=
  restarted (some sampleHome)
    [revocationRow sampleHome "dev" "stolen" {}]
    [{ id := "living-room", michiId := some "dev", paired := true }]
    [{ receiverId := "living-room", ciphertext := "secret", nonce := "" }] []

/-- **The revoked receiver is back.** After the start its entry is paired, authenticated and holds its
token. -/
theorem revoked_receiver_restored :
    ¬ Clean (persistedDevices revokedAndPaired)
      (bootstrapRuntime (some sampleStore) sampleCrates {} revokedAndPaired).manager.registry := by
  decide +kernel

end MichiServer.Receivers.Bootstrap
