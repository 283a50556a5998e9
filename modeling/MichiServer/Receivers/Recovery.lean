import MichiServer.Receivers.Pairing
import MichiServer.Receivers.Replay
import MichiServer.Receivers.Restart

/-!
# What a restart makes of a journalled pairing

`Paired` is what a pairing is for: a row marked paired, with a credential that decrypts under the row's
id to a token the receiver accepts. The start of the server keeps it. It establishes it from a journal
entry that is listed, if the receiver is not a Music Stream one and no row knows it by its server id: an
entry that is known, in the registry, or of a Music Stream receiver is passed over.
-/

namespace MichiServer.Receivers.Pairing

open MichiServer.Receivers.Trust MichiServer.Receivers.Bootstrap

variable (R : Receiver) (store : ReceiverCredentialStore)

/-! ## A pairing that is stored -/

/-- The row of an id is marked paired, and its credential decrypts under the id to a token that the
receiver accepts. -/
def Stored (s : BootState) (id : String) : Prop :=
  (∃ rec ∈ s.receivers, rec.id = id ∧ rec.paired = true) ∧
    ∃ cred ∈ getReceiverCredential s id,
      ∃ token ∈ store.decryptToken id cred.ciphertext cred.nonce, R.accepts token = true

instance (s : BootState) (id : String) : Decidable (Stored R store s id) := by
  unfold Stored
  infer_instance

def Paired (s : BootState) : Prop := ∃ id ∈ R.names, Stored R store s id

instance (s : BootState) : Decidable (Paired R store s) := by
  unfold Paired
  infer_instance

def Unknown (s : BootState) : Prop :=
  ∀ rec ∈ s.receivers, rec.id ≠ R.serverId ∧ rec.michiId ≠ some R.serverId

instance (s : BootState) : Decidable (Unknown R s) := by
  unfold Unknown
  infer_instance

def Seals : Prop :=
  ∀ id token, ∃ sealed, store.encryptToken id token = some sealed ∧
    store.decryptToken id sealed.1 sealed.2 = some token

structure Answers (journal : PairingJournalEntry) (env : JournalEnv) : Prop where
  databaseRead : env.databaseRead = true
  databaseWrite : env.databaseWrite = true
  journalVerifyToken : ∀ ciphertext ∈ journal.tokenCiphertext, ∀ nonce ∈ journal.tokenNonce,
    ∀ token ∈ store.decryptToken journal.receiverId ciphertext nonce,
      env.journalVerifyToken = R.accepts token
  journalInfo : env.journalInfo = some R.info
  streamInfo : env.streamInfo = some R.info
  recover : env.recover =
    some { deviceId := R.recoverDeviceId, token := some R.recoverToken }
  recoveredVerifyToken : env.recoveredVerifyToken = some true
  recoveredInfo : env.recoveredInfo = some R.info

/-- What answers for an entry with another address, if anything does, goes by other ids. -/
structure Elsewhere (journal : PairingJournalEntry) (env : JournalEnv) : Prop where
  databaseRead : env.databaseRead = true
  journalToken : env.journalVerifyToken = true → ∀ info ∈ env.journalInfo,
    journal.receiverId ∉ R.names ∧ ∀ id ∈ info.michiId, id ∉ R.names
  recoveredToken : ∀ resp ∈ env.recover, ∀ info ∈ env.recoveredInfo,
    recoveredId journal resp info ∉ R.names ∧ ∀ id ∈ info.michiId, id ∉ R.names

inductive Served (journal : PairingJournalEntry) (env : JournalEnv) : Prop where
  | here (answers : Answers R store journal env)
  | elsewhere (answers : Elsewhere R journal env)

/-- A start that can list the journal, with the receiver at the address of its pairing, whose session is
confirmed. -/
structure Reachable (pending : PendingReceiverPairing) (env : BootEnv) : Prop where
  listJournals : env.listJournals = true
  here : ∀ journal, journal.baseUrl = pending.receiverBaseUrl →
    Answers R store journal (env.journal journal)
  confirmed : ∀ journal, journal.baseUrl = pending.receiverBaseUrl →
    journal.remoteSessionId = some pending.receiverPairSessionId →
    (env.journal journal).pairStatus = some .confirmed
  elsewhere : ∀ journal, journal.baseUrl ≠ pending.receiverBaseUrl →
    Elsewhere R journal (env.journal journal)

section

variable {R store} {journal : PairingJournalEntry} {env : JournalEnv} {s : BootState}

/-! ## Rows -/

theorem getReceiverCredential_persist (rec : PersistedReceiver) (cred : PersistedReceiverCredential)
    (s : BootState) (id : String) :
    getReceiverCredential (persistPairedReceiverTransaction rec cred s) id =
      if id = cred.receiverId then some cred else getReceiverCredential s id := by
  grind [getReceiverCredential, persistPairedReceiverTransaction, PersistedReceiverCredential]

variable {rec : PersistedReceiver} {cred : PersistedReceiverCredential}

theorem stored_persist {token : String}
    (hid : cred.receiverId = rec.id) (hpaired : rec.paired = true)
    (htoken : store.decryptToken rec.id cred.ciphertext cred.nonce = some token)
    (haccepts : R.accepts token = true) :
    Stored R store (persistPairedReceiverTransaction rec cred s) rec.id := by
  refine ⟨⟨rec, List.mem_append_right _ (List.mem_singleton_self _), rfl, hpaired⟩, cred, ?_, token,
    htoken, haccepts⟩
  rw [getReceiverCredential_persist, if_pos hid.symm]
  rfl

theorem Stored.persist {id : String}
    (h : Stored R store s id) (hid : cred.receiverId = rec.id) (hne : id ≠ rec.id) :
    Stored R store (persistPairedReceiverTransaction rec cred s) id := by
  obtain ⟨⟨row, hrow, rfl, hpaired⟩, cred', hcred', htoken⟩ := h
  refine ⟨⟨row, List.mem_append_left _ (List.mem_filter.mpr ⟨hrow, by simpa using hne⟩), rfl, hpaired⟩,
    cred', ?_, htoken⟩
  rw [getReceiverCredential_persist, if_neg (hid ▸ hne)]
  exact hcred'

theorem Stored.ne {id id' : String} (h : Stored R store s id)
    (hne : ∀ rec ∈ s.receivers, rec.id ≠ id') : id ≠ id' := by
  obtain ⟨⟨rec, hrec, rfl, -⟩, -⟩ := h
  exact hne rec hrec

theorem Paired.persist (h : Paired R store s) (hid : cred.receiverId = rec.id)
    (hne : ∀ id ∈ R.names, Stored R store s id → id ≠ rec.id) :
    Paired R store (persistPairedReceiverTransaction rec cred s) := by
  obtain ⟨id, hmem, hstored⟩ := h
  exact ⟨id, hmem, hstored.persist hid (hne id hmem hstored)⟩

theorem Unknown.persist (h : Unknown R s) {s' : BootState}
    (hrows : s'.receivers = (s.receivers.filter fun row => row.id ≠ rec.id) ++ [rec])
    (hid : rec.id ≠ R.serverId) (hmichi : rec.michiId ≠ some R.serverId) : Unknown R s' := by
  intro row hrow
  rw [hrows] at hrow
  obtain hold | hnew := List.mem_append.mp hrow
  · exact h row (List.mem_of_mem_filter hold)
  · obtain rfl := List.mem_singleton.mp hnew
    exact ⟨hid, hmichi⟩

/-! ## The replay of an entry -/

/-- Neither a row nor the registry knows the receiver by its server id. -/
structure Unheard (R : Receiver) (s : BootState) : Prop where
  rows : Unknown R s
  registry : ∀ e ∈ s.manager.registry.receivers,
    e.receiverId ≠ R.serverId ∧ e.michiId ≠ some R.serverId

theorem Unheard.get (h : Unheard R s) : s.manager.registry.get R.serverId = none := by
  rw [ReceiverRegistry.get, ReceiverRegistry.entry, List.find?_eq_none.mpr, Option.none_or,
    List.find?_eq_none.mpr]
  · intro e he
    have := h.registry e he
    simpa using ⟨this.2, this.1⟩
  · intro e he
    simpa using (h.registry e he).1

theorem Unheard.add {entry : ReceiverRegistryEntry} (h : Unheard R s)
    (hid : entry.receiverId ≠ R.serverId) (hmichi : entry.michiId ≠ some R.serverId) :
    Unheard R (withRegistry s (s.manager.registry.add entry)) where
  rows := h.rows
  registry := by
    intro e he
    obtain hold | rfl := ReceiverRegistry.mem_add he
    · exact h.registry e hold
    · exact ⟨hid, hmichi⟩

theorem Served.databaseRead (h : Served R store journal env) : env.databaseRead = true := by
  cases h with
  | here answers => exact answers.databaseRead
  | elsewhere answers => exact answers.databaseRead

/-- What is recovered is stored as a pairing. -/
theorem Answers.recovered (answers : Answers R store journal env) (hseals : Seals store)
    {deviceId token : String} {sealed : String × String} {info : RemoteInfo}
    (h : recoveredToken (some store) journal env = .ok (deviceId, token, sealed, info))
    (s : BootState) :
    Paired R store (persistRecovered deviceId journal.baseUrl sealed info s) := by
  obtain ⟨resp, hresp, hinfo, rfl, htoken, hsealed⟩ := recoveredToken_spec h
  rw [answers.recover] at hresp
  rw [answers.recoveredInfo] at hinfo
  cases hresp
  cases hinfo
  cases htoken
  have hid : recoveredId journal
      { deviceId := R.recoverDeviceId, token := some R.recoverToken } R.info = R.deviceId := by
    simp only [recoveredId, Receiver.deviceId, R.info_michi_id]
    cases R.recoverDeviceId <;> rfl
  obtain ⟨sealed', hsealed', hopen⟩ :=
    hseals (recoveredId journal
      { deviceId := R.recoverDeviceId, token := some R.recoverToken } R.info) R.recoverToken
  rw [Option.bind_some, hsealed'] at hsealed
  cases hsealed
  exact ⟨_, hid ▸ R.deviceId_mem, stored_persist rfl rfl hopen R.recover_accepted⟩

/-- A pairing that is stored survives a replay. -/
theorem Paired.replay (hserved : Served R store journal env) (hhome : s.manager.home = none)
    (hseals : Seals store) (h : Paired R store s) :
    Paired R store (replay (some store) journal env s) := by
  have hread := hserved.databaseRead
  cases houtcome : outcome (some store) journal env s with
  | known =>
    simp only [Bootstrap.replay, houtcome]
    exact h
  | registered entry =>
    simp only [Bootstrap.replay, houtcome]
    obtain ⟨hrows, -⟩ := outcome_registered houtcome
    split
    next s' hs' =>
      obtain ⟨token, -, sealed, -, rfl⟩ := persistPairedReceiver_spec hs'
      exact h.persist rfl fun id _ hstored => hstored.ne (hrows hread)
    · exact h
  | fromJournal token info =>
    simp only [Bootstrap.replay, houtcome]
    obtain ⟨hrows, -⟩ := outcome_fromJournal houtcome
    exact h.persist rfl fun id _ hstored => hstored.ne (hrows hread)
  | trustV2 =>
    grind [outcome_trustV2]
  | recovered deviceId token sealed info =>
    simp only [Bootstrap.replay, houtcome]
    cases hserved with
    | here answers => exact answers.recovered hseals (outcome_recovered houtcome) s
    | elsewhere answers =>
      obtain ⟨resp, hresp, hinfo, rfl, -, -⟩ := recoveredToken_spec (outcome_recovered houtcome)
      have hother := (answers.recoveredToken resp hresp info hinfo).1
      refine h.persist rfl fun id hid _ heq => hother ?_
      grind [recoveredId]
  | ended state =>
    cases state with
    | none | some =>
      simp only [Bootstrap.replay, houtcome]
      exact h

/-- A replay stores the pairing, or the receiver stays unheard. -/
theorem Unheard.replay (hserved : Served R store journal env) (hhome : s.manager.home = none)
    (hseals : Seals store) (h : Unheard R s) :
    Paired R store (replay (some store) journal env s) ∨
      Unheard R (replay (some store) journal env s) := by
  have hread := hserved.databaseRead
  cases houtcome : outcome (some store) journal env s with
  | known =>
    simp only [Bootstrap.replay, houtcome]
    exact .inr ⟨h.rows, h.registry⟩
  | registered entry =>
    simp only [Bootstrap.replay, houtcome]
    obtain ⟨-, hget⟩ := outcome_registered houtcome
    split
    next s' hs' =>
      obtain ⟨token, -, sealed, -, rfl⟩ := persistPairedReceiver_spec hs'
      have hid : journal.receiverId ≠ R.serverId := by
        intro hid
        rw [hid, h.get] at hget
        cases hget
      have hmichi := (h.registry entry (ReceiverRegistry.mem_of_get hget)).2
      exact .inr ⟨h.rows.persist rfl hid hmichi, h.registry⟩
    · exact .inr h
  | fromJournal token info =>
    simp only [Bootstrap.replay, houtcome]
    obtain ⟨ciphertext, hciphertext, nonce, hnonce, hdecrypt, hverify, hinfo⟩ :=
      journalToken_spec (outcome_fromJournal houtcome).2
    have hnew : journal.receiverId ≠ R.serverId → info.michiId ≠ some R.serverId →
        Unheard R (recordJournal journal.pairingId .persisted
          (withRegistry (persistRecovered journal.receiverId journal.baseUrl
              (journal.tokenCiphertext.getD "", journal.tokenNonce.getD "") info s)
            (s.manager.registry.add
              (recoveredEntry journal.receiverId token journal.baseUrl info)))) :=
      fun hid hmichi => ⟨h.rows.persist rfl hid hmichi, (h.add hid hmichi).registry⟩
    cases hserved with
    | here answers =>
      by_cases hmem : journal.receiverId ∈ R.names
      · have haccepts : R.accepts token = true := by
          rw [← answers.journalVerifyToken ciphertext hciphertext nonce hnonce token hdecrypt, hverify]
        rw [Option.mem_def.mp hciphertext, Option.mem_def.mp hnonce]
        exact .inl ⟨_, hmem, stored_persist rfl rfl hdecrypt haccepts⟩
      · refine .inr (hnew (fun hid => hmem (hid ▸ R.serverId_mem)) ?_)
        rw [answers.journalInfo] at hinfo
        cases hinfo
        rw [R.info_michi_id]
        simpa using R.ids_differ
    | elsewhere answers =>
      obtain ⟨hid, hmichi⟩ := answers.journalToken hverify info hinfo
      exact .inr (hnew (fun heq => hid (heq ▸ R.serverId_mem))
        fun heq => hmichi _ heq R.serverId_mem)
  | trustV2 =>
    grind [outcome_trustV2]
  | recovered deviceId token sealed info =>
    simp only [Bootstrap.replay, houtcome]
    cases hserved with
    | here answers => exact .inl (answers.recovered hseals (outcome_recovered houtcome) s)
    | elsewhere answers =>
      obtain ⟨resp, hresp, hinfo, rfl, -, -⟩ := recoveredToken_spec (outcome_recovered houtcome)
      obtain ⟨hid, hmichi⟩ := answers.recoveredToken resp hresp info hinfo
      have hid' : recoveredId journal resp info ≠ R.serverId :=
        fun heq => hid (heq ▸ R.serverId_mem)
      have hmichi' : info.michiId ≠ some R.serverId := fun heq => hmichi _ heq R.serverId_mem
      exact .inr ⟨h.rows.persist rfl hid' hmichi', (h.add hid' hmichi').registry⟩
  | ended state =>
    cases state with
    | none | some =>
      simp only [Bootstrap.replay, houtcome]
      exact .inr ⟨h.rows, h.registry⟩

/-- Where the receiver answers, the pairing is stored. -/
theorem Unheard.recovered (answers : Answers R store journal env)
    (hstatus : env.pairStatus = some .confirmed) (hid : journal.receiverId = R.serverId)
    (hsession : journal.remoteSessionId ≠ none) (hstream : isStream (some R.info) = false)
    (hseals : Seals store) (h : Unheard R s) :
    Paired R store (Bootstrap.replay (some store) journal env s) := by
  have hknown : ¬ (env.databaseRead = true ∧ ∃ rec ∈ s.receivers, rec.id = journal.receiverId) := by
    rintro ⟨-, rec, hrec, heq⟩
    exact (h.rows rec hrec).1 (heq.trans hid)
  have hget : s.manager.registry.get journal.receiverId = none := by rw [hid, h.get]
  cases hjournal : journalToken (some store) journal env with
  | some found =>
    obtain ⟨token, info⟩ := found
    have houtcome : outcome (some store) journal env s = .fromJournal token info := by
      simp only [outcome, if_neg hknown, hget, hjournal]
    obtain ⟨ciphertext, hciphertext, nonce, hnonce, hdecrypt, hverify, -⟩ := journalToken_spec hjournal
    have haccepts : R.accepts token = true := by
      rw [← answers.journalVerifyToken ciphertext hciphertext nonce hnonce token hdecrypt, hverify]
    simp only [Bootstrap.replay, houtcome, Option.mem_def.mp hciphertext, Option.mem_def.mp hnonce]
    exact ⟨_, hid ▸ R.serverId_mem, stored_persist rfl rfl hdecrypt haccepts⟩
  | none =>
    obtain ⟨sealed, hsealed, -⟩ := hseals R.deviceId R.recoverToken
    have hdevice : ((R.recoverDeviceId.or R.info.michiId).or R.info.serverId).getD
        journal.receiverId = R.deviceId := by
      rw [Receiver.deviceId, R.info_michi_id]
      cases R.recoverDeviceId <;> rfl
    have hrecovered : recoveredToken (some store) journal env =
        .ok (R.deviceId, R.recoverToken, sealed, R.info) := by
      simp only [recoveredToken, answers.recover, answers.recoveredVerifyToken,
        answers.recoveredInfo, hdevice, hsealed, answers.databaseWrite, if_true]
    have houtcome : outcome (some store) journal env s =
        .recovered R.deviceId R.recoverToken sealed R.info := by
      simp only [outcome, if_neg hknown, hget, hjournal, if_neg hsession, answers.streamInfo, hstream,
        Bool.false_eq_true, if_false, hstatus, hrecovered]
    simp only [Bootstrap.replay, houtcome]
    exact answers.recovered hseals hrecovered s

/-! ## The start -/

/-- The step of a start leaves the receiver where it is: the row it restores does not have the server
id, or the entry it replays is answered. -/
def Leaves (R : Receiver) (store : ReceiverCredentialStore) : BootStep → Prop
  | .restore rec _ => rec.id ≠ R.serverId ∧ rec.michiId ≠ some R.serverId
  | .replay journal env => Served R store journal env

def Replays (R : Receiver) (store : ReceiverCredentialStore) : BootStep → Prop
  | .restore _ _ => True
  | .replay journal env => Served R store journal env

variable {step : BootStep}

theorem bootStep_home (hhome : s.manager.home = none) :
    (bootStep (some store) s step).manager.home = none := by
  cases step with
  | restore rec credentialRead => exact hhome
  | replay journal env =>
    simp only [bootStep]
    cases houtcome : outcome (some store) journal env s with
    | registered entry =>
      grind [replay, recordJournal, persistPairedReceiver_manager]
    | trustV2 =>
      grind [outcome_trustV2]
    | ended state =>
      cases state with
      | none | some =>
        simp only [replay, houtcome]
        exact hhome
    | known | fromJournal | recovered =>
      simp only [replay, houtcome]
      exact hhome

theorem paired_bootStep (hseals : Seals store) (hreplays : Replays R store step)
    (h : s.manager.home = none ∧ Paired R store s) :
    (bootStep (some store) s step).manager.home = none ∧
      Paired R store (bootStep (some store) s step) := by
  refine ⟨bootStep_home h.1, ?_⟩
  cases step with
  | restore rec credentialRead => exact h.2
  | replay journal env => exact h.2.replay hreplays h.1 hseals

theorem unheard_bootStep (hseals : Seals store) (hleaves : Leaves R store step)
    (h : s.manager.home = none ∧ (Paired R store s ∨ Unheard R s)) :
    (bootStep (some store) s step).manager.home = none ∧
      (Paired R store (bootStep (some store) s step) ∨
        Unheard R (bootStep (some store) s step)) := by
  refine ⟨bootStep_home h.1, ?_⟩
  cases step with
  | restore rec credentialRead =>
    obtain hpaired | hunheard := h.2
    · exact .inl hpaired
    · exact .inr (hunheard.add hleaves.1 hleaves.2)
  | replay journal env =>
    obtain hpaired | hunheard := h.2
    · exact .inl (hpaired.replay hleaves h.1 hseals)
    · exact hunheard.replay hleaves h.1 hseals

end

variable {R store} {pending : PendingReceiverPairing} {env : BootEnv}

theorem Reachable.served (h : Reachable R store pending env) (journal : PairingJournalEntry) :
    Served R store journal (env.journal journal) := by
  by_cases hurl : journal.baseUrl = pending.receiverBaseUrl
  · exact .here (h.here journal hurl)
  · exact .elsewhere (h.elsewhere journal hurl)

variable {s : BootState}

theorem Reachable.replays (h : Reachable R store pending env) {step : BootStep}
    (hstep : step ∈ bootSteps env s) : Replays R store step := by
  obtain ⟨rec, -, read, rfl⟩ | ⟨journal, -, rfl⟩ := mem_bootSteps hstep
  · trivial
  · exact h.served journal

theorem Reachable.leaves (h : Reachable R store pending env) (hunknown : Unknown R s)
    {step : BootStep} (hstep : step ∈ bootSteps env s) : Leaves R store step := by
  obtain ⟨rec, hrec, read, rfl⟩ | ⟨journal, -, rfl⟩ := mem_bootSteps hstep
  · exact hunknown rec hrec
  · exact h.served journal

theorem paired_run (hseals : Seals store) (h : s.manager.home = none ∧ Paired R store s)
    {steps : List BootStep} (hsteps : ∀ step ∈ steps, Replays R store step) :
    Paired R store (Logic.Trace.run (bootStep (some store)) s steps) :=
  (Logic.Trace.run_invariant (I := fun s : BootState => s.manager.home = none ∧ Paired R store s)
    (fun _ _ hs hstep => paired_bootStep hseals hstep hs) h
    (Logic.Trace.obeys_of_forall hsteps _)).2

variable (crates : Crates) (rows : List PersistedHomeRevocation)

theorem Paired.restart (hreachable : Reachable R store pending env) (hseals : Seals store)
    (h : Paired R store s) :
    Paired R store (bootstrapRuntime (some store) crates env
      (restarted none rows s.receivers s.credentials s.journals)) := by
  rw [bootstrapRuntime]
  refine paired_run hseals ⟨rfl, ?_⟩ fun _ hstep => hreachable.replays hstep
  exact h

structure EntryOf (pending : PendingReceiverPairing) (journal : PairingJournalEntry) : Prop where
  pairingId : journal.pairingId = pending.pairingId
  receiverId : journal.receiverId = pending.expectedServerId
  baseUrl : journal.baseUrl = pending.receiverBaseUrl
  remoteSessionId : journal.remoteSessionId = some pending.receiverPairSessionId

/-- After a restart the pairing is stored, though the receiver was unknown. -/
theorem Unknown.restart (hreachable : Reachable R store pending env) (hseals : Seals store)
    (h : Unknown R s) (hstream : isStream (some R.info) = false)
    (hserver : pending.expectedServerId = R.serverId) {journal : PairingJournalEntry}
    (hlisted : journal ∈ listUnrecoveredPairingJournals s) (hentry : EntryOf pending journal) :
    Paired R store (bootstrapRuntime (some store) crates env
      (restarted none rows s.receivers s.credentials s.journals)) := by
  generalize hs₀ : restarted none rows s.receivers s.credentials s.journals = s₀
  have hunknown : Unknown R s₀ := by
    subst hs₀
    exact h
  have hregistry : (loaded crates env s₀).manager.registry.receivers = [] := by
    grind [loaded_registry]
  have hhome : (loaded crates env s₀).manager.home = none := by
    subst hs₀
    rfl
  have hmem : .replay journal (env.journal journal) ∈ bootSteps env s₀ := by
    refine List.mem_append_right _ ?_
    rw [hreachable.listJournals, if_pos rfl]
    subst hs₀
    exact List.mem_map_of_mem hlisted
  obtain ⟨before, after, hsplit⟩ := List.append_of_mem hmem
  have hbefore : ∀ step ∈ before, Leaves R store step := fun step hstep =>
    hreachable.leaves hunknown (hsplit ▸ List.mem_append_left _ hstep)
  have hafter : ∀ step ∈ .replay journal (env.journal journal) :: after, Replays R store step :=
    fun step hstep => hreachable.replays (s := s₀) (hsplit ▸ List.mem_append_right _ hstep)
  rw [bootstrapRuntime, hsplit, Logic.Trace.run_append]
  -- the steps before the entry's replay leave the receiver unheard of, or pair it
  have hready := Logic.Trace.run_invariant
    (I := fun s : BootState => s.manager.home = none ∧ (Paired R store s ∨ Unheard R s))
    (fun _ _ hs hstep => unheard_bootStep hseals hstep hs)
    ⟨hhome, .inr ⟨hunknown, by simp [hregistry]⟩⟩ (Logic.Trace.obeys_of_forall hbefore _)
  obtain ⟨hhome', hpaired | hunheard⟩ := hready
  · exact paired_run hseals ⟨hhome', hpaired⟩ hafter
  · refine paired_run hseals ⟨bootStep_home hhome', ?_⟩
      fun step hstep => hafter step (List.mem_cons_of_mem _ hstep)
    exact hunheard.recovered (hreachable.here journal hentry.baseUrl)
      (hreachable.confirmed journal hentry.baseUrl hentry.remoteSessionId)
      (hentry.receiverId.trans hserver) (by simp [hentry.remoteSessionId]) hstream hseals

end MichiServer.Receivers.Pairing
