import MichiServer.Receivers.Replay
import MichiServer.Receivers.Restart

/-!
# Unpairing a receiver

`delete_receiver_handler` deletes the row of an id, which takes its credential with it, and takes the
entry out of the registry; the errors of the database are dropped. It reports success if one of the row
and the entry was there. The rows under another id of the receiver and the pairing journal are left as
they are, and the next start rebuilds the pairing from them.
-/

namespace MichiServer.Receivers.Bootstrap

open MichiServer.Receivers.Trust

/-! ## The handler -/

structure DeleteEnv where
  row : Bool := true
  credential : Bool := true

def unpair (e : ReceiverRegistryEntry) : ReceiverRegistryEntry :=
  { e with paired := false, token := none, activeSessionId := none }

/-- A row that is deleted takes its credential with it (`ON DELETE CASCADE`). -/
def deleteReceiver (id : String) (s : BootState) : BootState :=
  { s with
    receivers := s.receivers.filter fun rec => rec.id ≠ id
    credentials := s.credentials.filter fun cred =>
      cred.receiverId ≠ id ∨ ∀ rec ∈ s.receivers, rec.id ≠ id }

def deleteReceiverCredential (id : String) (s : BootState) : BootState :=
  { s with credentials := s.credentials.filter fun cred => cred.receiverId ≠ id }

/-- `delete_receiver_handler`, after the session is stopped: whether it reports success, and the state. -/
def deleteReceiverHandler (id : String) (env : DeleteEnv) (s : BootState) : Bool × BootState :=
  let dbDeleted := env.row && s.receivers.any fun rec => rec.id = id
  let s := if env.row then deleteReceiver id s else s
  let s := if env.credential then deleteReceiverCredential id s else s
  let regDeleted := (s.manager.registry.get id).isSome
  (dbDeleted || regDeleted,
    withRegistry s ((s.manager.registry.modify id unpair).remove id))

def restart (store : Option ReceiverCredentialStore) (crates : Crates)
    (home : Option HomeRootAuthority) (rows : List PersistedHomeRevocation) (s : BootState)
    (env : BootEnv) : BootState :=
  bootstrapRuntime store crates env (restarted home rows s.receivers s.credentials s.journals)

/-! ## The property and the condition -/

section

variable (store : Option ReceiverCredentialStore) (names : List String)

/-- No entry of the receiver, which goes by these ids, is paired, authenticated or holds a token, and no
credential is stored for it that can be opened. -/
def Unpaired (s : BootState) : Prop :=
  Clean names s.manager.registry ∧
    ∀ cred ∈ s.credentials, cred.receiverId ∈ names →
      ∀ store' ∈ store, store'.decryptToken cred.receiverId cred.ciphertext cred.nonce = none

instance (s : BootState) : Decidable (Unpaired store names s) := by
  unfold Unpaired
  infer_instance

def Other (id : String) (michiId : Option String) : Prop :=
  id ∉ names ∧ ∀ m ∈ michiId, m ∉ names

instance (id : String) (michiId : Option String) : Decidable (Other names id michiId) :=
  inferInstanceAs (Decidable (_ ∧ _))

/-- The row's delete succeeds, no other row is stored for the receiver, and no entry of it is listed in
the pairing journal. -/
structure Erases (id : String) (env : DeleteEnv) (s : BootState) : Prop where
  row : env.row = true
  rows : ∀ rec ∈ s.receivers, rec.id ≠ id → Other names rec.id rec.michiId
  journals : ∀ j ∈ listUnrecoveredPairingJournals s, Other names j.receiverId (some j.michiId)

/-- What answers for the journal entries of other receivers goes by other ids. -/
structure Apart (env : BootEnv) : Prop where
  journalInfo : ∀ j, Other names j.receiverId (some j.michiId) →
    ∀ info ∈ (env.journal j).journalInfo, Other names j.receiverId info.michiId
  recovered : ∀ j, Other names j.receiverId (some j.michiId) →
    ∀ resp ∈ (env.journal j).recover, ∀ info ∈ (env.journal j).recoveredInfo,
      Other names (recoveredId j resp info) info.michiId
  urlInfo : ∀ j, Other names j.receiverId (some j.michiId) → ∀ info,
    (env.journal j).urlInfo = .ok info →
      Other names (((info.deviceId.or info.serverId).or info.michiId).getD j.baseUrl) info.michiId
  auth_info : ∀ j, Other names j.receiverId (some j.michiId) → ∀ info,
    (env.journal j).auth.info = .ok info → ∀ m ∈ info.michiId, m ∉ names

end

/-! ## One step of a start -/

structure Erased (names : List String) (s : BootState) : Prop where
  rows : ∀ rec ∈ s.receivers, Other names rec.id rec.michiId
  credentials : ∀ cred ∈ s.credentials, cred.receiverId ∉ names
  registry : ∀ e ∈ s.manager.registry.receivers, Other names e.receiverId e.michiId

variable {store : Option ReceiverCredentialStore} {names : List String} {s : BootState}

theorem Erased.recordJournal (h : Erased names s) (id : String) (state : JournalState) :
    Erased names (recordJournal id state s) := ⟨h.rows, h.credentials, h.registry⟩

theorem Erased.add (h : Erased names s) {entry : ReceiverRegistryEntry}
    (hother : Other names entry.receiverId entry.michiId) :
    Erased names (withRegistry s (s.manager.registry.add entry)) where
  rows := h.rows
  credentials := h.credentials
  registry := by
    intro e he
    obtain hold | rfl := ReceiverRegistry.mem_add he
    · exact h.registry e hold
    · exact hother

theorem Erased.persist (h : Erased names s) {rec : PersistedReceiver}
    {cred : PersistedReceiverCredential} (hrec : Other names rec.id rec.michiId)
    (hcred : cred.receiverId ∉ names) :
    Erased names (persistPairedReceiverTransaction rec cred s) where
  rows := by
    intro row hrow
    obtain hold | hnew := List.mem_append.mp hrow
    · exact h.rows row (List.mem_of_mem_filter hold)
    · obtain rfl := List.mem_singleton.mp hnew
      exact hrec
  credentials := by
    intro c hc
    obtain hold | hnew := List.mem_append.mp hc
    · exact h.credentials c (List.mem_of_mem_filter hold)
    · obtain rfl := List.mem_singleton.mp hnew
      exact hcred
  registry := h.registry

theorem Erased.modify (h : Erased names s) {id : String}
    {f : ReceiverRegistryEntry → ReceiverRegistryEntry}
    (hf : ∀ e, Other names e.receiverId e.michiId → ∀ m ∈ (f e).michiId, m ∉ names) :
    Erased names (withRegistry s (s.manager.registry.modify id f)) where
  rows := h.rows
  credentials := h.credentials
  registry := by
    intro e he
    obtain hold | ⟨found, hfound, rfl⟩ := ReceiverRegistry.mem_modify he
    · exact h.registry e hold
    · have hother := h.registry found (ReceiverRegistry.mem_of_getMut hfound)
      exact ⟨hother.1, hf found hother⟩

variable {journal : PairingJournalEntry} {env : BootEnv}

theorem Erased.urlReceiverId (h : Erased names s) {info : RemoteInfo} {baseUrl : String}
    (hother : ((info.deviceId.or info.serverId).or info.michiId).getD baseUrl ∉ names) :
    urlReceiverId baseUrl info s.manager ∉ names := by
  unfold Bootstrap.urlReceiverId
  cases hfound : s.manager.registry.receivers.find? fun e => e.baseUrl = baseUrl with
  | none => exact hother
  | some found => exact (h.registry found (List.mem_of_find?_eq_some hfound)).1

theorem Erased.withUrlEntry (h : Erased names s) {info : RemoteInfo} {baseUrl : String}
    (hother : Other names (((info.deviceId.or info.serverId).or info.michiId).getD baseUrl)
      info.michiId) :
    Erased names { s with manager := withUrlEntry baseUrl info s.manager } := by
  unfold Bootstrap.withUrlEntry
  simp only
  split
  · exact h.add ⟨h.urlReceiverId hother.1, hother.2⟩
  · exact h

theorem authenticateReceiverInner_info {receiverId : String} {env : Env} {w : TrustManager}
    {info : ReceiverInfo} (h : (authenticateReceiverInner receiverId env w).1 = .ok info) :
    env.info = .ok info := by
  grind [authenticateReceiverInner]

/-- An authentication elsewhere leaves the receiver erased. -/
theorem Erased.authenticateUrl (h : Erased names s) (hapart : Apart names env)
    (hother : Other names journal.receiverId (some journal.michiId)) :
    Erased names { s with
      manager := (authenticateUrl journal.baseUrl (env.journal journal) s.manager).2 } := by
  unfold Bootstrap.authenticateUrl
  split
  · exact h
  next info hinfo =>
    have hentry := h.withUrlEntry (hapart.urlInfo journal hother info hinfo)
    obtain ⟨token, found, hcall⟩ | ⟨e, hcall | hcall⟩ := authenticateReceiverInner_spec
      (Bootstrap.urlReceiverId journal.baseUrl info s.manager) (env.journal journal).auth
      (Bootstrap.withUrlEntry journal.baseUrl info s.manager)
    · have hfound := hapart.auth_info journal hother found
        (authenticateReceiverInner_info (congrArg Prod.fst hcall))
      rw [hcall]
      refine hentry.modify fun e he m hm => ?_
      simp only [authenticatedEntry] at hm
      obtain hm | ⟨-, hm⟩ := Option.or_eq_some_iff.mp hm
      · exact hfound m hm
      · exact he.2 m hm
    · rw [hcall]
      exact hentry
    · rw [hcall]
      exact hentry.modify fun e he => he.2

/-- So does what it persists. -/
theorem Erased.persistAuthenticated (h : Erased names s) (hapart : Apart names env)
    (hother : Other names journal.receiverId (some journal.michiId)) {manager : TrustManager}
    (hmanager : Erased names { s with manager }) :
    Erased names (persistAuthenticated store journal.baseUrl (env.journal journal) s.manager
      { s with manager }) := by
  unfold Bootstrap.persistAuthenticated
  split
  next info token store hinfo htoken =>
    simp only
    split
    next ciphertext nonce entry hsealed hget =>
      split
      · have hurl : (env.journal journal).urlInfo = .ok info := by
          cases hurl : (env.journal journal).urlInfo with
          | error e => simp [hurl, Except.toOption] at hinfo
          | ok found => simpa [hurl, Except.toOption] using hinfo
        refine hmanager.persist (hmanager.registry entry (ReceiverRegistry.mem_of_get hget)) ?_
        exact h.urlReceiverId (hapart.urlInfo journal hother info hurl).1
      · exact hmanager
    · exact hmanager
  · exact hmanager

/-- So does a replay of another's journal. -/
theorem Erased.replay (h : Erased names s) (hapart : Apart names env)
    (hother : Other names journal.receiverId (some journal.michiId)) :
    Erased names (replay store journal (env.journal journal) s) := by
  cases houtcome : outcome store journal (env.journal journal) s with
  | known =>
    simp only [Bootstrap.replay, houtcome]
    exact h.recordJournal _ _
  | registered entry =>
    simp only [Bootstrap.replay, houtcome]
    obtain ⟨-, hget⟩ := outcome_registered houtcome
    split
    next s' hs' =>
      obtain ⟨token, -, sealed, -, rfl⟩ := persistPairedReceiver_spec hs'
      have hentry := h.registry entry (ReceiverRegistry.mem_of_get hget)
      exact (h.persist ⟨hother.1, hentry.2⟩ hother.1).recordJournal _ _
    · exact h
  | fromJournal token info =>
    simp only [Bootstrap.replay, houtcome]
    obtain ⟨-, -, -, -, -, -, hinfo⟩ := journalToken_spec (outcome_fromJournal houtcome).2
    have hother' := hapart.journalInfo journal hother info hinfo
    exact ((h.persist hother' hother'.1).add hother').recordJournal _ _
  | trustV2 =>
    simp only [Bootstrap.replay, houtcome]
    have hauth := h.authenticateUrl hapart hother
    split
    next info manager hcall =>
      rw [hcall] at hauth
      exact (h.persistAuthenticated hapart hother hauth).recordJournal _ _
    next e manager hcall =>
      rw [hcall] at hauth
      exact hauth.recordJournal _ _
  | recovered deviceId token sealed info =>
    simp only [Bootstrap.replay, houtcome]
    obtain ⟨resp, hresp, hinfo, rfl, -, -⟩ := recoveredToken_spec (outcome_recovered houtcome)
    have hother' := hapart.recovered journal hother resp hresp info hinfo
    exact ((h.persist hother' hother'.1).add hother').recordJournal _ _
  | ended state =>
    cases state with
    | none =>
      simp only [Bootstrap.replay, houtcome]
      exact h
    | some state =>
      simp only [Bootstrap.replay, houtcome]
      exact h.recordJournal _ _

/-! ## The journal -/

/-- A replay writes its own journal or none. -/
theorem replay_journals (store : Option ReceiverCredentialStore) (journal : PairingJournalEntry)
    (env : JournalEnv) (s : BootState) :
    (replay store journal env s).journals = s.journals ∨
      ∃ state, (replay store journal env s).journals =
        (recordJournal journal.pairingId state s).journals := by
  have hpersist : ∀ receiverId entry s', persistPairedReceiver store receiverId entry env s =
      some s' → s'.journals = s.journals := by
    intro receiverId entry s' h
    obtain ⟨token, -, sealed, -, rfl⟩ := persistPairedReceiver_spec h
    rfl
  have hauthenticated : ∀ s' : BootState,
      (persistAuthenticated store journal.baseUrl env s.manager s').journals = s'.journals := by
    intro s'
    unfold persistAuthenticated
    split
    · simp only
      split
      · split <;> rfl
      · rfl
    · rfl
  cases houtcome : outcome store journal env s with
  | known =>
    simp only [replay, houtcome]
    exact .inr ⟨_, rfl⟩
  | registered entry =>
    simp only [replay, houtcome]
    split
    next s' hs' => exact .inr ⟨.persisted, by simp only [recordJournal, hpersist _ _ s' hs']⟩
    · exact .inl rfl
  | trustV2 =>
    simp only [replay, houtcome]
    split
    · exact .inr ⟨.persisted, by simp only [recordJournal, hauthenticated]⟩
    · exact .inr ⟨_, rfl⟩
  | fromJournal | recovered =>
    simp only [replay, houtcome]
    exact .inr ⟨_, rfl⟩
  | ended state =>
    grind [replay]

/-- The listed entries are of other receivers, as are all that share a pairing id with one that the start
has listed. -/
def Unlisted (names : List String) (listed : List PairingJournalEntry) (s : BootState) : Prop :=
  ∀ j ∈ s.journals,
    (j ∈ listUnrecoveredPairingJournals s ∨ ∃ l ∈ listed, j.pairingId = l.pairingId) →
      Other names j.receiverId (some j.michiId)

theorem Unlisted.replay {listed : List PairingJournalEntry} (h : Unlisted names listed s)
    (hlisted : journal ∈ listed) (env : JournalEnv) :
    Unlisted names listed (replay store journal env s) := by
  have hframe : ∀ s' : BootState, s'.journals = s.journals → Unlisted names listed s' := by
    intro s' hs' j hj hcase
    unfold listUnrecoveredPairingJournals at hcase
    rw [hs'] at hj hcase
    exact h j hj hcase
  obtain hsame | ⟨state, hrecorded⟩ := replay_journals store journal env s
  · exact hframe _ hsame
  · intro j hj hcase
    rw [hrecorded] at hj
    obtain ⟨j₀, hj₀, rfl⟩ := List.mem_map.mp hj
    by_cases hid : j₀.pairingId = journal.pairingId
    · rw [if_pos hid]
      exact h j₀ hj₀ (.inr ⟨journal, hlisted, hid⟩)
    · rw [if_neg hid] at hcase ⊢
      refine h j₀ hj₀ (hcase.imp_left fun hmem => ?_)
      exact List.mem_filter.mpr ⟨hj₀, (List.mem_filter.mp hmem).2⟩

def Keyed (s : BootState) : Prop := (s.journals.map PairingJournalEntry.pairingId).Nodup

instance (s : BootState) : Decidable (Keyed s) := inferInstanceAs (Decidable (List.Nodup _))

theorem Keyed.replay (h : Keyed s) (journal : PairingJournalEntry) (env : JournalEnv) :
    Keyed (replay store journal env s) := by
  have hids : (Bootstrap.replay store journal env s).journals.map PairingJournalEntry.pairingId =
      s.journals.map PairingJournalEntry.pairingId := by
    obtain hsame | ⟨state, hrecorded⟩ := replay_journals store journal env s
    · rw [hsame]
    · rw [hrecorded, recordJournal, List.map_map]
      refine List.map_congr_left fun j _ => ?_
      simp only [Function.comp_apply]
      split <;> rfl
  rw [Keyed, hids]
  exact h

/-! ## Restarts -/

structure Gone (names : List String) (listed : List PairingJournalEntry) (s : BootState) : Prop where
  erased : Erased names s
  unlisted : Unlisted names listed s
  keyed : Keyed s

def About (names : List String) (listed : List PairingJournalEntry) (env : BootEnv) :
    BootStep → Prop
  | .restore rec _ => Other names rec.id rec.michiId
  | .replay journal env' => journal ∈ listed ∧ env' = env.journal journal

theorem Gone.step {listed : List PairingJournalEntry} (hapart : Apart names env)
    (hlisted : ∀ j ∈ listed, Other names j.receiverId (some j.michiId)) (h : Gone names listed s)
    {step : BootStep} (hstep : About names listed env step) :
    Gone names listed (bootStep store s step) := by
  cases step with
  | restore rec credentialRead => exact ⟨h.erased.add hstep, h.unlisted, h.keyed⟩
  | replay journal env' =>
    obtain ⟨hjournal, rfl⟩ := hstep
    exact ⟨h.erased.replay hapart (hlisted journal hjournal), h.unlisted.replay hjournal _,
      h.keyed.replay journal _⟩

structure Forgotten (names : List String) (s : BootState) : Prop where
  rows : ∀ rec ∈ s.receivers, Other names rec.id rec.michiId
  credentials : ∀ cred ∈ s.credentials, cred.receiverId ∉ names
  journals : ∀ j ∈ listUnrecoveredPairingJournals s, Other names j.receiverId (some j.michiId)
  keyed : Keyed s

variable (crates : Crates) (home : Option HomeRootAuthority) (rows : List PersistedHomeRevocation)

/-- A restart leaves what is forgotten so. -/
theorem Forgotten.restart (hapart : Apart names env) (h : Forgotten names s) :
    Erased names (Bootstrap.restart store crates home rows s env) ∧
      Forgotten names (Bootstrap.restart store crates home rows s env) := by
  have hgone : Gone names (listUnrecoveredPairingJournals s)
      (Bootstrap.restart store crates home rows s env) := by
    refine Logic.Trace.run_invariant (I := Gone names (listUnrecoveredPairingJournals s))
      (fun _ _ hs hstep => hs.step hapart h.journals hstep) ?_
      (Logic.Trace.obeys_of_forall (P := About names (listUnrecoveredPairingJournals s) env) ?_ _)
    · have hregistry := loaded_registry crates env home rows s.receivers s.credentials s.journals
      refine ⟨⟨h.rows, h.credentials, by simp [hregistry]⟩, ?_, h.keyed⟩
      intro j hj hcase
      obtain hmem | ⟨l, hl, hid⟩ := hcase
      · exact h.journals j hmem
      · obtain rfl : j = l := List.inj_on_of_nodup_map h.keyed hj (List.mem_of_mem_filter hl) hid
        exact h.journals j hl
    · intro step hstep
      obtain ⟨rec, hrec, read, rfl⟩ | ⟨journal, hjournal, rfl⟩ := mem_bootSteps hstep
      · exact h.rows rec hrec
      · exact ⟨hjournal, rfl⟩
  exact ⟨hgone.erased, hgone.erased.rows, hgone.erased.credentials,
    fun j hj => hgone.unlisted j (List.mem_of_mem_filter hj) (.inl hj), hgone.keyed⟩

theorem Erased.unpaired (h : Erased names s) : Unpaired store names s := by
  refine ⟨fun e he hdevice => ?_, fun cred hcred hmem => absurd hmem (h.credentials cred hcred)⟩
  obtain ⟨hid, hmichi⟩ := h.registry e he
  obtain ⟨name, hname, hdevice⟩ := List.any_eq_true.mp hdevice
  grind [isDevice]

/-- Each credential has a row: the foreign key of `receiver_credentials`. -/
def Owned (s : BootState) : Prop :=
  ∀ cred ∈ s.credentials, ∃ rec ∈ s.receivers, rec.id = cred.receiverId

instance (s : BootState) : Decidable (Owned s) :=
  inferInstanceAs (Decidable (∀ cred ∈ s.credentials, ∃ rec ∈ s.receivers, rec.id = cred.receiverId))

theorem deleteReceiverHandler_eq (id : String) {env : DeleteEnv} (hrow : env.row = true)
    (s : BootState) : ∃ registry kept, (deleteReceiverHandler id env s).2 =
      withRegistry { deleteReceiver id s with
        credentials := (deleteReceiver id s).credentials.filter kept } registry := by
  refine ⟨(s.manager.registry.modify id unpair).remove id,
    fun cred => !env.credential || cred.receiverId ≠ id, ?_⟩
  cases hcredential : env.credential
  · simp [deleteReceiverHandler, hrow, hcredential, withRegistry, deleteReceiver]
  · simp [deleteReceiverHandler, hrow, hcredential, withRegistry, deleteReceiver,
      deleteReceiverCredential]

theorem Erases.forgotten {id : String} {env : DeleteEnv} (h : Erases names id env s)
    (hkeyed : Keyed s) (howned : Owned s) :
    Forgotten names (deleteReceiverHandler id env s).2 := by
  obtain ⟨registry, kept, heq⟩ := deleteReceiverHandler_eq id h.row s
  rw [heq]
  refine ⟨fun rec hrec => ?_, fun cred hcred => ?_, h.journals, hkeyed⟩
  · obtain ⟨hmem, hid⟩ := List.mem_filter.mp hrec
    exact h.rows rec hmem (of_decide_eq_true hid)
  · -- the row of the credential is still there, so it is of another receiver
    obtain ⟨hmem, hleft⟩ := List.mem_filter.mp (List.mem_of_mem_filter hcred)
    obtain ⟨rec, hrec, hid⟩ := howned cred hmem
    rw [← hid]
    refine (h.rows rec hrec fun hdeleted => ?_).1
    obtain hother | hnone := of_decide_eq_true hleft
    · exact hother (hid ▸ hdeleted)
    · exact hnone rec hrec hdeleted

def bedroom : BootState where
  manager :=
    { home := none
      registry := (⟨[], List.nodup_nil⟩ : ReceiverRegistry).add
        { receiverId := "bedroom", michiId := some "key", paired := true, token := some "secret" } }
  receivers := [{ id := "bedroom", michiId := some "key", paired := true }]
  credentials := [{ receiverId := "bedroom", ciphertext := "secret", nonce := "" }]

def bedroomJournal : PairingJournalEntry where
  pairingId := "p1"
  receiverId := "server"
  baseUrl := "http://bedroom"
  michiId := "key"
  remoteSessionId := some "s1"
  state := .confirmSent

theorem apart_silent (names : List String) : Apart names {} where
  journalInfo j _ info hinfo := by cases hinfo
  recovered j _ resp hresp := by cases hresp
  urlInfo j _ info hinfo := by cases hinfo
  auth_info j _ info hinfo m hm := by
    cases hinfo
    cases hm

end MichiServer.Receivers.Bootstrap
