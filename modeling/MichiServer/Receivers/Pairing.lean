import MichiServer.Receivers.Bootstrap

/-!
# Pairing with a receiver, and its journal

`receiver_pair_start_handler` and `receiver_pair_confirm_handler` with the manager's
`start_pairing_ext` and `confirm_pairing`. The two layers write the journal one after the other, under
different receiver ids. Each write is a step that can fail, and between two steps the server can stop: a
state of a run is what a crash leaves.
-/

namespace MichiServer.Receivers.Pairing

open MichiServer.Receivers.Trust MichiServer.Receivers.Bootstrap

/-! ## The receiver -/

/-- A receiver as this server meets it: what it says of itself, the tokens it accepts, and its answer to
a recovery. `aliases` are the further ids that rows have for it. Of its two ids one is a UUID and the
other is derived from its key. -/
structure Receiver where
  info : RemoteInfo
  serverId : String
  michiId : String
  info_server_id : info.serverId = some serverId
  info_michi_id : info.michiId = some michiId
  ids_differ : michiId ≠ serverId
  aliases : List String := []
  accepts : String → Bool
  recoverDeviceId : Option String := none
  recoverToken : String
  recover_accepted : accepts recoverToken = true

namespace Receiver

variable (R : Receiver)

abbrev Token := { t : String // R.accepts t = true }

def deviceId : String := R.recoverDeviceId.getD R.michiId

def names : List String := R.serverId :: R.michiId :: R.deviceId :: R.aliases

@[simp] theorem serverId_mem : R.serverId ∈ R.names := by simp [names]

@[simp] theorem michiId_mem : R.michiId ∈ R.names := by simp [names]

@[simp] theorem deviceId_mem : R.deviceId ∈ R.names := by simp [names]

/-- `get_info`, which fails or returns what the receiver says of itself. -/
def getInfo (answer : Except String Unit) : Except String RemoteInfo := answer.map fun _ => R.info

end Receiver

/-! ## The start of a pairing -/

/-- `PairStartResponse`; `expires_at` comes with what it is parsed to. -/
structure PairStartResponse where
  sessionId : Option String := none
  error : Option ReceiverProtocolError := none
  expiresAt : Option (String × Except String ℕ) := none
  serverMichiId : Option String := none
  serverPublicKey : Option String := none

/-- What a start meets: the clock, whether the receiver answers the detection of its profile and then
the manager, the id derived from a key, what the checks of its API version and roles come to, and the
answer to `pair_start`. -/
structure StartEnv where
  now : ℕ := 0
  checkInfo : Except String Unit := .ok ()
  info : Except String Unit := .ok ()
  derivedId : String → Except String String
  profile : Except String Unit := .ok ()
  pairStart : Except String PairStartResponse

/-- A text that the receiver must give, without the white space around it. -/
def required (text : Option String) (message : String) : Except String String :=
  match (text.map trim).filter fun s => s ≠ "" with
  | some s => .ok s
  | none => .error message

/-- The contract is checked before anything is started: the server id, the michi id and the key that the
pairing expects. -/
def validateContract (crates : Crates) (env : StartEnv) (info : RemoteInfo) :
    Except String (String × String × String) := do
  let expectedServerId ← required info.serverId
    "CONTRACT_VIOLATION: server_id is required and non-empty in receiver info"
  (crates.parseUuid expectedServerId).mapError fun e =>
    "CONTRACT_VIOLATION: server_id must be a valid canonical UUID: " ++ e
  let expectedMichiId ← required info.michiId
    "CONTRACT_VIOLATION: michi_id is required and non-empty in receiver info"
  let expectedPublicKey ← required info.publicKey
    "CONTRACT_VIOLATION: public_key is required and non-empty in receiver info"
  let derivedId ← env.derivedId expectedPublicKey
  if expectedMichiId ≠ derivedId then
    .error ("CONTRACT_VIOLATION: michi_id '" ++ expectedMichiId ++
      "' does not match derived public_key identity '" ++ derivedId ++ "'")
  else
    let identityScheme ← required info.identityScheme
      "CONTRACT_VIOLATION: identity_scheme is required in receiver info"
    if identityScheme ≠ "ed25519-blake3-v1" then
      .error ("CONTRACT_VIOLATION: identity_scheme must be 'ed25519-blake3-v1', got '" ++
        identityScheme ++ "'")
    else
      let service ← required info.service
        "CONTRACT_VIOLATION: service is required in receiver info"
      if service ≠ "michi-stream-standard" ∧ service ≠ "michi-stream-hifi" then
        .error ("CONTRACT_VIOLATION: unsupported receiver service '" ++ service ++
          "', expected 'michi-stream-standard' or 'michi-stream-hifi'")
      else
        env.profile
        info.audioCapabilities
        .ok (expectedServerId, expectedMichiId, expectedPublicKey)

/-- A receiver with an identity conflict is not paired, and one that is paired already is paired again
only if that is asked for. -/
def verifyPairable (reg : ReceiverRegistry) (expectedServerId expectedMichiId : String)
    (allowRePair : Bool) : Except String Unit :=
  match (reg.get expectedMichiId).or (reg.get expectedServerId) with
  | some entry =>
    if entry.identityMismatch then
      .error "IDENTITY_MISMATCH: pairing blocked due to identity conflict"
    else if entry.paired ∧ !allowRePair then .error "ALREADY_PAIRED: receiver is already paired"
    else .ok ()
  | none => .ok ()

/-- The answer to `pair_start` names the session, its end, and the identity that the contract had; that
this identity is derived from its key has been checked there. -/
def startedSession (resp : PairStartResponse) (expectedMichiId expectedPublicKey : String) :
    Except String (String × ℕ) :=
  match resp.sessionId, resp.error, resp.expiresAt with
  | none, some err, _ => .error ("pair_start failed: " ++ err.code ++ ": " ++ err.message)
  | none, none, _ =>
    .error "INVALID_RECEIVER_RESPONSE: session_id is required in pair_start response"
  | some _, _, none =>
    .error "INVALID_RECEIVER_RESPONSE: expires_at is required in pair_start response"
  | some _, _, some (expStr, .error e) =>
    .error ("INVALID_RECEIVER_RESPONSE: invalid RFC3339 expires_at '" ++ expStr ++ "': " ++ e)
  | some sessionId, _, some (_, .ok expiresAt) =>
    match resp.serverMichiId, resp.serverPublicKey with
    | none, _ => .error "CONTRACT_VIOLATION: server_michi_id is required in pair_start response"
    | some _, none =>
      .error "CONTRACT_VIOLATION: server_public_key is required in pair_start response"
    | some startMichiId, some startPublicKey =>
      if startMichiId ≠ expectedMichiId then
        .error ("CONTRACT_VIOLATION: pair_start server_michi_id '" ++ startMichiId ++
          "' does not match server/info michi_id '" ++ expectedMichiId ++ "'")
      else if startPublicKey ≠ expectedPublicKey then
        .error ("CONTRACT_VIOLATION: pair_start server_public_key '" ++ startPublicKey ++
          "' does not match server/info public_key '" ++ expectedPublicKey ++ "'")
      else .ok (sessionId, expiresAt)

def trimSlashes (s : String) : String :=
  String.ofList (s.toList.reverse.dropWhile fun c => c = '/').reverse

/-- `start_pairing_ext`, up to the pairing it keeps: the new id is drawn. -/
def startPairingExt (crates : Crates) (R : Receiver) (pairingId baseUrl initiatorId : String)
    (allowRePair : Bool) (env : StartEnv) (w : TrustManager) :
    Except String PendingReceiverPairing := do
  let info ← R.getInfo env.info
  let (expectedServerId, expectedMichiId, expectedPublicKey) ←
    validateContract crates env info
  verifyPairable w.registry expectedServerId expectedMichiId allowRePair
  let startResp ← env.pairStart
  let (sessionId, expiresAt) ← startedSession startResp expectedMichiId expectedPublicKey
  .ok
    { pairingId
      receiverBaseUrl := trimSlashes baseUrl
      receiverPairSessionId := sessionId
      initiatorId
      expiresAt
      expectedServerId
      expectedMichiId
      expectedPublicKey }

def keepPending (now : ℕ) (pending : PendingReceiverPairing) (w : TrustManager) : TrustManager :=
  { w with
    pendingPairings := pending :: w.pendingPairings.filter fun p =>
      p.expiresAt > now ∧ p.pairingId ≠ pending.pairingId }

/-! ## The journal -/

def updateJournal (pairingId : String) (f : PairingJournalEntry → PairingJournalEntry)
    (s : BootState) : BootState :=
  { s with journals := s.journals.map fun j => if j.pairingId = pairingId then f j else j }

/-- `record_pairing_journal_start_db`: a new entry, or the fields of the one there is. -/
def recordPairingJournalStart (pending : PendingReceiverPairing) (receiverId : String)
    (s : BootState) : BootState :=
  let started (j : PairingJournalEntry) : PairingJournalEntry :=
    { j with
      receiverId
      baseUrl := pending.receiverBaseUrl
      michiId := pending.expectedMichiId
      remoteSessionId := some pending.receiverPairSessionId }
  if s.journals.any fun j => j.pairingId = pending.pairingId then
    updateJournal pending.pairingId started s
  else
    { s with
      journals := s.journals ++ [started
        { pairingId := pending.pairingId, receiverId := "", baseUrl := "", michiId := "",
          state := .started }] }

def recordPairingJournalTokenReceived (pairingId : String) (sealed : String × String) :
    BootState → BootState :=
  updateJournal pairingId fun j =>
    { j with
      state := .tokenReceived, tokenCiphertext := some sealed.1, tokenNonce := some sealed.2 }

/-- The id under which the manager journals the pairing and seals the token. -/
def effectiveDeviceId (pending : PendingReceiverPairing) : String :=
  if pending.expectedMichiId ≠ "" then pending.expectedMichiId else pending.expectedServerId

/-! ## The handlers, step by step -/

structure Confirmation (R : Receiver) where
  error : Option ReceiverProtocolError := none
  token : Option R.Token := none

inductive Stage (R : Receiver) where
  | idle
  | recordStart (pending : PendingReceiverPairing)
  | recordStartAgain (pending : PendingReceiverPairing)
  | recordConfirmSent (pending : PendingReceiverPairing)
  | pairConfirm (pending : PendingReceiverPairing)
  | recordOutcomeUnknown (pending : PendingReceiverPairing) (e : ReceiverProtocolError)
  | recover (pending : PendingReceiverPairing) (e : ReceiverProtocolError)
  | recoverReported (pending : PendingReceiverPairing) (err : ReceiverProtocolError)
      (token : Option R.Token)
  | recordTokenReceived (pending : PendingReceiverPairing) (token : Option R.Token)
  | freshInfo (pending : PendingReceiverPairing) (token : Option R.Token)
  | recordCompleted (pending : PendingReceiverPairing) (deviceId : String)
  | persist (pending : PendingReceiverPairing) (deviceId : String)
  | recordPersisted (pending : PendingReceiverPairing)
  | recordRecoveryRequired (pending : PendingReceiverPairing)

/-- What happens: a request of the user, the next write of the database, or an answer of the receiver.
`confirms` says that the receiver has confirmed the pairing, whatever becomes of its answer; a recovery
is answered only then. -/
inductive Move (R : Receiver) where
  | start (baseUrl initiatorId : String) (rePair : Bool) (env : StartEnv)
  | confirm (now : ℕ) (info : Except String Unit)
  | write (ok : Bool)
  | answer (confirms : Bool) (resp : Except ReceiverProtocolError (Confirmation R))
  | recovered (resp : Option (Confirmation R))
  | fresh (info : Except String Unit) (presence : ReceiverPresence)

/-- The server, in a run of one pairing. What the receiver has confirmed and the pairing that was started
are kept for the statements; the handlers do not read them. -/
structure PairingState (R : Receiver) where
  boot : BootState
  stage : Stage R := .idle
  started : Option PendingReceiverPairing := none
  confirmed : Bool := false

section

variable {R : Receiver}

def PairingState.recorded (s : PairingState R) (ok : Bool) (f : BootState → BootState)
    (next : Stage R) : PairingState R :=
  { s with boot := if ok then f s.boot else s.boot, stage := next }

def PairingState.manage (s : PairingState R) (manager : TrustManager) (next : Stage R) :
    PairingState R :=
  { s with boot := { s.boot with manager }, stage := next }

def PairingState.refuse (s : PairingState R) (pending : PendingReceiverPairing)
    (e : ReceiverProtocolError) : PairingState R :=
  if e.code = "PAIRING_PIN_MISMATCH" then { s with stage := .idle }
  else if e.code ∈ consumedCodes ∨ e.httpStatus = 408 ∨ e.httpStatus = 410 then
    s.manage (s.boot.manager.removePending pending.pairingId) .idle
  else { s with stage := .idle }

/-- What follows a failed request: a recovery, if the receiver may have confirmed. -/
def PairingState.afterError (s : PairingState R) (pending : PendingReceiverPairing)
    (e : ReceiverProtocolError) : PairingState R :=
  if e.code ∈ ["NETWORK_ERROR", "PAIRING_ALREADY_CONSUMED", "CONFLICT"] ∨ e.httpStatus = 409 then
    { s with stage := .recover pending e }
  else s.refuse pending e

def PairingState.answered (s : PairingState R) (pending : PendingReceiverPairing)
    (resp : Confirmation R) : PairingState R :=
  match resp.error with
  | none => { s with stage := .recordTokenReceived pending resp.token }
  | some err =>
    if err.code = "PAIRING_ALREADY_CONSUMED" ∨ err.code = "CONFLICT" then
      { s with stage := .recoverReported pending err resp.token }
    else if err.code ∈ consumedCodes then
      s.manage (s.boot.manager.removePending pending.pairingId) .idle
    else { s with stage := .idle }

def outcomeUnknown (e : ReceiverProtocolError) : Bool :=
  e.code = "NETWORK_ERROR" ∨ e.httpStatus ∈ [502, 503, 504, 408]

variable (crates : Crates) (store : Option ReceiverCredentialStore) (pairingId : String)

/-- `receiver_pair_start_handler`, up to the journal. A receiver that authenticates by its home
membership, and every receiver of a server that has a home, is not paired this way. -/
def start (baseUrl initiatorId : String) (rePair : Bool) (env : StartEnv) (s : PairingState R) :
    PairingState R :=
  match s.stage, s.started with
  | .idle, none =>
    if isStream (R.getInfo env.checkInfo).toOption ∨ s.boot.manager.home.isSome then s
    else
      match startPairingExt crates R pairingId baseUrl initiatorId rePair env s.boot.manager with
      | .ok pending =>
        { s.manage (keepPending env.now pending s.boot.manager) (.recordStart pending) with
          started := some pending }
      | .error _ => s
  | _, _ => s

def confirm (now : ℕ) (info : Except String Unit) (s : PairingState R) : PairingState R :=
  match s.stage, s.boot.manager.pending pairingId, store with
  | .idle, some pending, some _ =>
    if now > pending.expiresAt then
      s.manage (s.boot.manager.removePending pairingId) .idle
    else
      match (R.getInfo info).bind fun info => checkPreInfo crates pending info.toReceiverInfo with
      | .ok () => { s with stage := .recordConfirmSent pending }
      | .error _ => s
  | _, _, _ => s

/-- `persist_paired_receiver`; it succeeds if one of its three attempts does. -/
def persist (deviceId : String) (ok : Bool) (s : BootState) : Option BootState :=
  (s.manager.registry.get deviceId).bind fun entry =>
    persistPairedReceiver store deviceId entry { databaseWrite := ok } s

def write (ok : Bool) (s : PairingState R) : PairingState R :=
  match s.stage with
  | .recordStart pending =>
    s.recorded ok (recordPairingJournalStart pending (effectiveDeviceId pending))
      (.recordStartAgain pending)
  | .recordStartAgain pending =>
    s.recorded ok (recordPairingJournalStart pending pending.expectedServerId) .idle
  | .recordConfirmSent pending =>
    s.recorded ok (recordJournal pending.pairingId .confirmSent) (.pairConfirm pending)
  | .recordOutcomeUnknown pending e =>
    (s.recorded ok (recordJournal pending.pairingId .remoteOutcomeUnknown) .idle).afterError
      pending e
  | .recordTokenReceived pending token =>
    match token, store with
    | some token, some store =>
      match store.encryptToken (effectiveDeviceId pending) token.val with
      | some sealed =>
        s.recorded ok (recordPairingJournalTokenReceived pending.pairingId sealed)
          (.freshInfo pending (some token))
      | none => { s with stage := .freshInfo pending (some token) }
    | token, _ => { s with stage := .freshInfo pending token }
  | .recordCompleted pending deviceId =>
    let s := s.recorded ok (recordJournal pending.pairingId .persisted) (.persist pending deviceId)
    s.manage (s.boot.manager.removePending pending.pairingId) (.persist pending deviceId)
  | .persist pending deviceId =>
    match persist store deviceId ok s.boot with
    | some boot =>
      if (boot.manager.registry.get deviceId).isSome then
        { s with boot, stage := .recordPersisted pending }
      else { s with boot, stage := .recordRecoveryRequired pending }
    | none => { s with stage := .recordRecoveryRequired pending }
  | .recordPersisted pending => s.recorded ok (recordJournal pending.pairingId .persisted) .idle
  | .recordRecoveryRequired pending =>
    s.recorded ok (recordJournal pending.pairingId .recoveryRequired) .idle
  | _ => s

def answer (resp : Except ReceiverProtocolError (Confirmation R)) (s : PairingState R) :
    PairingState R :=
  match s.stage with
  | .pairConfirm pending =>
    match resp with
    | .ok resp => s.answered pending resp
    | .error e =>
      if outcomeUnknown e then { s with stage := .recordOutcomeUnknown pending e }
      else s.afterError pending e
  | _ => s

def recovered (resp : Option (Confirmation R)) (s : PairingState R) : PairingState R :=
  match s.stage with
  | .recover pending e =>
    match resp with
    | some resp => s.answered pending resp
    | none => s.refuse pending e
  | .recoverReported pending _ token =>
    match resp with
    | some resp => { s with stage := .recordTokenReceived pending (resp.token.or token) }
    | none => s.manage (s.boot.manager.removePending pending.pairingId) .idle
  | _ => s

def fresh (info : Except String Unit) (presence : ReceiverPresence) (s : PairingState R) :
    PairingState R :=
  match s.stage with
  | .freshInfo pending token =>
    match (R.getInfo info).bind fun info =>
        confirmedEntry pending info.toReceiverInfo (token.map Subtype.val) presence with
    | .ok entry =>
      s.manage { s.boot.manager with registry := s.boot.manager.registry.add entry }
        (.recordCompleted pending entry.receiverId)
    | .error _ => { s with stage := .recordRecoveryRequired pending }
  | _ => s

/-- The receiver has confirmed the pairing by this move: it answers so, or it answers a recovery. -/
def confirms (s : PairingState R) : Move R → Bool
  | .answer confirms resp =>
    match s.stage with
    | .pairConfirm _ => confirms || resp.toOption.any fun resp => resp.error.isNone
    | _ => false
  | .recovered resp =>
    match s.stage with
    | .recover _ _ | .recoverReported _ _ _ => resp.isSome
    | _ => false
  | _ => false

def act (s : PairingState R) : Move R → PairingState R
  | .start baseUrl initiatorId rePair env =>
    start crates pairingId baseUrl initiatorId rePair env s
  | .confirm now info => confirm crates store pairingId now info s
  | .write ok => write store ok s
  | .answer _ resp => answer resp s
  | .recovered resp => recovered resp s
  | .fresh info presence => fresh info presence s

def step (s : PairingState R) (m : Move R) : PairingState R :=
  act crates store pairingId { s with confirmed := s.confirmed || confirms s m } m

end

end MichiServer.Receivers.Pairing
