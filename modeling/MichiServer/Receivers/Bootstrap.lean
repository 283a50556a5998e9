import MichiServer.Receivers.Reload

/-!
# The start of the server

`bootstrap_runtime` loads the persisted revocations, adds an entry to the registry for every row of
`receivers`, with the token its credential decrypts to, and then replays the pairing journal
(`reconcile_unrecovered_pairings`). The manager is new, so its registry is empty at first, and nothing
else runs. The answers of the receivers and of the database are given with each journal entry.
-/

namespace MichiServer.Receivers.Bootstrap

open MichiServer.Interleave MichiServer.Receivers.Trust

/-! ## Data -/

/-- A row of `receivers`, with the fields the registry is filled from. -/
structure PersistedReceiver where
  id : String
  michiId : Option String := none
  baseUrl : String := ""
  paired : Bool := false

structure PersistedReceiverCredential where
  receiverId : String
  ciphertext : String
  nonce : String

/-- The credential store: what `decrypt_token` and `encrypt_token` return, if they succeed. -/
structure ReceiverCredentialStore where
  decryptToken (receiverId ciphertext nonce : String) : Option String
  encryptToken (receiverId token : String) : Option (String × String)

inductive JournalState where
  | started | confirmSent | remoteOutcomeUnknown | tokenReceived | persisted | failed
  | recoveryRequired
deriving DecidableEq

structure PairingJournalEntry where
  pairingId : String
  receiverId : String
  baseUrl : String
  michiId : String
  remoteSessionId : Option String := none
  tokenCiphertext : Option String := none
  tokenNonce : Option String := none
  state : JournalState

structure RemoteInfo extends ReceiverInfo where
  deviceId : Option String := none
  service : Option String := none
  authStrategy : Option String := none

inductive RemoteStatus where
  | confirmed | expired | notFound | locked | other

structure RecoverResponse where
  deviceId : Option String := none
  token : Option String := none

/-- What the receiver and the database answer while one journal entry is replayed: each call of the
client in turn, and whether a read or a write of the database succeeds. -/
structure JournalEnv where
  databaseRead : Bool := true
  journalWrite : Bool := true
  databaseWrite : Bool := true
  journalVerifyToken : Bool := true
  journalInfo : Option RemoteInfo := none
  streamInfo : Option RemoteInfo := none
  urlInfo : Except String RemoteInfo := .error ""
  auth : Env := {}
  pairStatus : Option RemoteStatus := none
  recover : Option RecoverResponse := none
  recoveredVerifyToken : Option Bool := none
  recoveredInfo : Option RemoteInfo := none

structure BootState where
  manager : TrustManager
  receivers : List PersistedReceiver := []
  credentials : List PersistedReceiverCredential := []
  journals : List PairingJournalEntry := []

/-! ## The database -/

def getReceiverCredential (s : BootState) (receiverId : String) : Option PersistedReceiverCredential :=
  s.credentials.find? fun c => c.receiverId = receiverId

def persistPairedReceiverTransaction (rec : PersistedReceiver) (cred : PersistedReceiverCredential)
    (s : BootState) : BootState :=
  { s with
    receivers := (s.receivers.filter fun r => r.id ≠ rec.id) ++ [rec]
    credentials := (s.credentials.filter fun c => c.receiverId ≠ cred.receiverId) ++ [cred] }

def recordJournal (pairingId : String) (state : JournalState) (s : BootState) : BootState :=
  { s with
    journals := s.journals.map fun j => if j.pairingId = pairingId then { j with state } else j }

/-- `list_unrecovered_pairing_journals_db`; the rows are in the order of their creation. -/
def listUnrecoveredPairingJournals (s : BootState) : List PairingJournalEntry :=
  s.journals.filter fun j => j.state ∈
    [.confirmSent, .remoteOutcomeUnknown, .tokenReceived, .recoveryRequired]

def withRegistry (s : BootState) (registry : ReceiverRegistry) : BootState :=
  { s with manager := { s.manager with registry } }

section

variable (store : Option ReceiverCredentialStore)

/-! ## The rows of `receivers` -/

/-- The token of a paired row, if its credential is read and decrypts. -/
def restoredToken (credentialRead : Bool) (s : BootState) (rec : PersistedReceiver) : Option String :=
  if rec.paired ∧ credentialRead then
    store.bind fun store => (getReceiverCredential s rec.id).bind fun cred =>
      store.decryptToken rec.id cred.ciphertext cred.nonce
  else none

def restoredEntry (rec : PersistedReceiver) (token : Option String) : ReceiverRegistryEntry where
  receiverId := rec.id
  michiId := rec.michiId
  baseUrl := rec.baseUrl
  paired := rec.paired && token.isSome
  token
  presence := .offline
  authenticated := rec.paired && token.isSome

/-! ## A journal entry -/

def isStream (info : Option RemoteInfo) : Bool :=
  info.any fun info =>
    info.service.any (fun s => "michi-stream".isPrefixOf s) || info.authStrategy == some "HOME_MEMBERSHIP"

/-- The token of a journal entry that had received it, and what the receiver says of itself: it
decrypts, is accepted, and is written to the database. -/
def journalToken (journal : PairingJournalEntry) (env : JournalEnv) : Option (String × RemoteInfo) :=
  if journal.state = .tokenReceived then do
    let ciphertext ← journal.tokenCiphertext
    let nonce ← journal.tokenNonce
    let store ← store
    let token ← store.decryptToken journal.receiverId ciphertext nonce
    if env.journalVerifyToken ∧ env.journalWrite then
      env.journalInfo.map fun info => (token, info)
    else none
  else none

/-- How the recovery of a confirmed pairing ends: the device id, the token, its ciphertext and nonce,
and what the receiver says of itself; or the state that is recorded, if any. -/
def recoveredToken (journal : PairingJournalEntry) (env : JournalEnv) :
    Except (Option JournalState) (String × String × (String × String) × RemoteInfo) :=
  match env.recover with
  | none => .error (some .recoveryRequired)
  | some resp =>
    match env.recoveredVerifyToken with
    | some false => .error (some .recoveryRequired)
    | none => .error none
    | some true =>
      match env.recoveredInfo with
      | none => .error none
      | some info =>
        let deviceId := ((resp.deviceId.or info.michiId).or info.serverId).getD journal.receiverId
        match resp.token, store with
        | some token, some store =>
          match store.encryptToken deviceId token with
          | some sealed =>
            if env.databaseWrite then .ok (deviceId, token, sealed, info) else .error none
          | none => .error none
        | _, _ => .error none

inductive Outcome where
  | known
  | registered (entry : ReceiverRegistryEntry)
  | fromJournal (token : String) (info : RemoteInfo)
  | trustV2
  | recovered (deviceId token : String) (sealed : String × String) (info : RemoteInfo)
  | ended (state : Option JournalState)

def outcome (journal : PairingJournalEntry) (env : JournalEnv) (s : BootState) : Outcome :=
  if env.databaseRead ∧ ∃ rec ∈ s.receivers, rec.id = journal.receiverId then .known
  else
    match s.manager.registry.get journal.receiverId with
    | some entry => .registered entry
    | none =>
      match journalToken store journal env with
      | some (token, info) => .fromJournal token info
      | none =>
        if journal.remoteSessionId = none then .ended none
        else if isStream env.streamInfo then
          if s.manager.home.isSome then .trustV2 else .ended none
        else
          match env.pairStatus with
          | some .confirmed =>
            match recoveredToken store journal env with
            | .ok (deviceId, token, sealed, info) => .recovered deviceId token sealed info
            | .error state => .ended state
          | some .expired | some .notFound | some .locked => .ended (some .failed)
          | some .other | none => .ended none

end

def recoveredEntry (receiverId token baseUrl : String) (info : RemoteInfo) :
    ReceiverRegistryEntry where
  receiverId
  michiId := info.michiId
  baseUrl
  paired := true
  token := some token
  presence := .offline

def persistRecovered (receiverId baseUrl : String) (sealed : String × String) (info : RemoteInfo)
    (s : BootState) : BootState :=
  persistPairedReceiverTransaction
    { id := receiverId, michiId := info.michiId, baseUrl, paired := true }
    { receiverId, ciphertext := sealed.1, nonce := sealed.2 } s

/-! ## Authentication by home membership -/

def authenticateReceiverInner (receiverId : String) (env : Env) (w : TrustManager) :
    Except ReceiverClientError ReceiverInfo × TrustManager :=
  if w.trustState ≠ .ready then
    (.error (.protocol ("TRUST_RECOVERY_REQUIRED: home trust state is " ++ w.trustState.display ++
      "; receiver authentication is blocked until trust domain is restored")), w)
  else
    match w.registry.get receiverId with
    | none => (.error (.offline ("receiver not found: " ++ receiverId)), w)
    | some entry =>
      if entry.revoked then
        (.error (.protocol ("receiver " ++ receiverId ++ " is revoked in this home")), w)
      else
        match w.homeContext with
        | none => (.error (.protocol "HomeRootAuthority context not configured"), w)
        | some homeCtx =>
          let targetMid := entry.michiId.getD receiverId
          if homeCtx.revocations.any fun r => r.revokedDeviceMichiId = targetMid then
            (.error (.protocol ("device " ++ targetMid ++ " is revoked")),
              { w with registry := w.registry.modify receiverId ReceiverRegistryEntry.revoke })
          else
            match env.sessionToken, env.info with
            | .error e, _ => (.error e, w)
            | .ok _, .error e => (.error (.protocol ("failed to get receiver info: " ++ e)), w)
            | .ok sessionToken, .ok info =>
              (.ok info,
                { w with
                  registry := w.registry.modify receiverId (authenticatedEntry sessionToken info) })

/-- Taken alone, a call of the machine answers as the function does, leaves what it leaves, and its mark
is gone. -/
theorem authenticate_receiver_alone (crates : Crates) {receiverId : String} {env : Env}
    {w : TrustManager} (hflight : receiverId ∉ w.singleFlightAuth)
    (hunlocked : ¬ w.revocationsLocked = true) :
    Pool.Alone (trustManager crates) env (.authenticateReceiver receiverId .enter) w
      (.returned (.authenticated (authenticateReceiverInner receiverId env w).1))
      (authenticateReceiverInner receiverId env w).2 := by
  have hleave : (receiverId :: w.singleFlightAuth).filter (fun rid => rid ≠ receiverId) =
      w.singleFlightAuth := by
    rw [List.filter_cons_of_neg (by simp), List.filter_eq_self]
    exact fun rid hrid => decide_eq_true fun heq => hflight (heq ▸ hrid)
  -- what a call that is about to leave comes to
  have hend : ∀ res registry, Pool.Alone (trustManager crates) env
      (.authenticateReceiver receiverId (.leave res))
      { w with registry, singleFlightAuth := receiverId :: w.singleFlightAuth }
      (.returned (.authenticated res)) { w with registry } := by
    intro res registry
    refine .step ?_ .refl
    simp only [trustManager, authStep, hleave]
  have hstep : ∀ {stage : AuthStage} {registry : ReceiverRegistry} {t t' : Trust.Task}
      {w₁ w' : TrustManager},
      authStep receiverId env
          { w with registry, singleFlightAuth := receiverId :: w.singleFlightAuth } stage =
        ([t], w₁) → Pool.Alone (trustManager crates) env t w₁ t' w' →
        Pool.Alone (trustManager crates) env (.authenticateReceiver receiverId stage)
          { w with registry, singleFlightAuth := receiverId :: w.singleFlightAuth } t' w' :=
    fun h h' => .step h h'
  have hcontext : ∀ registry, TrustManager.homeContext
      { w with registry, singleFlightAuth := receiverId :: w.singleFlightAuth } =
        w.homeContext := fun _ => rfl
  refine .step (if_neg hflight) ?_
  unfold authenticateReceiverInner
  split
  next htrust => exact hstep (if_pos htrust) (hend _ _)
  next htrust =>
    refine hstep (if_neg htrust) ?_
    cases hget : w.registry.get receiverId with
    | none =>
      refine hstep ?_ (hend _ _)
      simp only [authStep, hget]
    | some entry =>
      simp only
      split
      next hrevoked =>
        refine hstep ?_ (hend _ _)
        simp only [authStep, hget, if_pos hrevoked]
      next hrevoked =>
        refine hstep (by simp only [authStep, hget, if_neg hrevoked]; rfl) ?_
        cases hctx : w.homeContext with
        | none =>
          refine hstep ?_ (hend _ _)
          simp only [authStep, if_neg hunlocked, hcontext, hctx]
        | some homeCtx =>
          simp only
          split
          next hcovered =>
            refine hstep (t := .authenticateReceiver receiverId
              (.markRevoked (entry.michiId.getD receiverId))) ?_ (hstep rfl (hend _ _))
            simp only [authStep, if_neg hunlocked, hcontext, hctx, if_pos hcovered]
          next hcovered =>
            have hauth : authStep receiverId env
                { w with singleFlightAuth := receiverId :: w.singleFlightAuth }
                (.context entry.michiId) =
                  ([.authenticateReceiver receiverId (.authenticate homeCtx)],
                    { w with singleFlightAuth := receiverId :: w.singleFlightAuth }) := by
              simp only [authStep, if_neg hunlocked, hcontext, hctx, if_neg hcovered]
            refine hstep hauth ?_
            cases htoken : env.sessionToken with
            | error e =>
              refine hstep ?_ (hend _ _)
              simp only [authStep, htoken]
            | ok token =>
              refine hstep (by simp only [authStep, htoken]; rfl) ?_
              cases hinfo : env.info with
              | error e =>
                refine hstep ?_ (hend _ _)
                simp only [authStep, hinfo]
              | ok info =>
                refine hstep (by simp only [authStep, hinfo]; rfl) (hstep rfl ?_)
                exact hend _ _

/-- A receiver that answers is authenticated. -/
theorem authenticate_receiver_alone_sample : ∃ w', w'.registry.receivers.map (·.authenticated) = [true] ∧
    Pool.Alone (trustManager sampleCrates) {} (.authenticateReceiver "living-room" .enter)
      { home := some sampleHome, registry := sampleRegistry }
      (.returned (.authenticated (.ok {}))) w' :=
  ⟨_, by decide, authenticate_receiver_alone sampleCrates (by decide) (by decide)⟩

def urlReceiverId (baseUrl : String) (info : RemoteInfo) (w : TrustManager) : String :=
  ((w.registry.receivers.find? fun e => e.baseUrl = baseUrl).map
    ReceiverRegistryEntry.receiverId).getD
      (((info.deviceId.or info.serverId).or info.michiId).getD baseUrl)

/-- The manager in which `authenticate_url` authenticates: the receiver has an entry. -/
def withUrlEntry (baseUrl : String) (info : RemoteInfo) (w : TrustManager) : TrustManager :=
  let receiverId := urlReceiverId baseUrl info w
  if (w.registry.get receiverId).isNone then
    { w with registry := w.registry.add { receiverId, michiId := info.michiId, baseUrl } }
  else w

def authenticateUrl (baseUrl : String) (env : JournalEnv) (w : TrustManager) :
    Except ReceiverClientError ReceiverInfo × TrustManager :=
  match env.urlInfo with
  | .error e => (.error (.protocol e), w)
  | .ok info =>
    authenticateReceiverInner (urlReceiverId baseUrl info w) env.auth
      (withUrlEntry baseUrl info w)

section

variable (store : Option ReceiverCredentialStore)

/-- The rows that an authentication writes, if the token can be sealed. -/
def persistAuthenticated (baseUrl : String) (env : JournalEnv) (before : TrustManager)
    (s : BootState) : BootState :=
  match env.urlInfo.toOption, env.auth.sessionToken.toOption, store with
  | some info, some token, some store =>
    let receiverId := urlReceiverId baseUrl info before
    match store.encryptToken receiverId token, s.manager.registry.get receiverId with
    | some (ciphertext, nonce), some entry =>
      if env.databaseWrite then
        persistPairedReceiverTransaction
          { id := entry.receiverId, michiId := entry.michiId, baseUrl := entry.baseUrl, paired := true }
          { receiverId, ciphertext, nonce } s
      else s
    | _, _ => s
  | _, _, _ => s

/-- `persist_paired_receiver`: the rows of a registered receiver, if it has a token. -/
def persistPairedReceiver (receiverId : String) (entry : ReceiverRegistryEntry) (env : JournalEnv)
    (s : BootState) : Option BootState := do
  let token ← entry.token
  let store ← store
  let (ciphertext, nonce) ← store.encryptToken receiverId token
  if env.databaseWrite then
    some (persistPairedReceiverTransaction
      { id := receiverId, michiId := entry.michiId, baseUrl := entry.baseUrl, paired := entry.paired }
      { receiverId, ciphertext, nonce } s)
  else none

/-! ## The start -/

inductive BootStep where
  | restore (rec : PersistedReceiver) (credentialRead : Bool)
  | replay (journal : PairingJournalEntry) (env : JournalEnv)

def replay (journal : PairingJournalEntry) (env : JournalEnv) (s : BootState) : BootState :=
  match outcome store journal env s with
  | .known => recordJournal journal.pairingId .persisted s
  | .registered entry =>
    match persistPairedReceiver store journal.receiverId entry env s with
    | some s => recordJournal journal.pairingId .persisted s
    | none => s
  | .fromJournal token info =>
    let sealed := (journal.tokenCiphertext.getD "", journal.tokenNonce.getD "")
    let s := persistRecovered journal.receiverId journal.baseUrl sealed info s
    let entry := recoveredEntry journal.receiverId token journal.baseUrl info
    recordJournal journal.pairingId .persisted (withRegistry s (s.manager.registry.add entry))
  | .trustV2 =>
    match authenticateUrl journal.baseUrl env s.manager with
    | (.ok _, manager) =>
      recordJournal journal.pairingId .persisted
        (persistAuthenticated store journal.baseUrl env s.manager { s with manager })
    | (.error _, manager) => recordJournal journal.pairingId .recoveryRequired { s with manager }
  | .recovered deviceId token sealed info =>
    let s := persistRecovered deviceId journal.baseUrl sealed info s
    let entry := recoveredEntry deviceId token journal.baseUrl info
    recordJournal journal.pairingId .persisted (withRegistry s (s.manager.registry.add entry))
  | .ended (some state) => recordJournal journal.pairingId state s
  | .ended none => s

def bootStep (s : BootState) : BootStep → BootState
  | .restore rec credentialRead =>
    withRegistry s
      (s.manager.registry.add (restoredEntry rec (restoredToken store credentialRead s rec)))
  | .replay journal env => replay store journal env s

structure BootEnv where
  revocations : Env := {}
  listReceivers : Bool := true
  credentialRead : String → Bool := fun _ => true
  listJournals : Bool := true
  journal : PairingJournalEntry → JournalEnv := fun _ => {}

def bootSteps (env : BootEnv) (s : BootState) : List BootStep :=
  (if env.listReceivers then
    s.receivers.map fun rec => .restore rec (env.credentialRead rec.id) else []) ++
  if env.listJournals then
    (listUnrecoveredPairingJournals s).map fun j => .replay j (env.journal j) else []

def loaded (crates : Crates) (env : BootEnv) (s : BootState) : BootState :=
  { s with manager := (loadPersistedRevocations crates env.revocations s.manager).2 }

def bootstrapRuntime (crates : Crates) (env : BootEnv) (s : BootState) : BootState :=
  Logic.Trace.run (bootStep store) (loaded crates env s) (bootSteps env s)

end

/-- What a restart finds: the tables, and a new manager over the home's rows. -/
def restarted (home : Option HomeRootAuthority) (rows : List PersistedHomeRevocation)
    (receivers : List PersistedReceiver) (credentials : List PersistedReceiverCredential)
    (journals : List PairingJournalEntry) : BootState where
  manager := { home, db := some rows, registry := ⟨[], List.nodup_nil⟩ }
  receivers
  credentials
  journals

end MichiServer.Receivers.Bootstrap
