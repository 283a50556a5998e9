import Mathlib.Data.Int.Notation
import MichiServer.Interleave.Pool
import MichiServer.Receivers.HeartbeatErrors
import MichiServer.Receivers.Registry

/-!
# The trust of the home's receivers

What `ReceiverSessionManager` does about revocation: `revoke_device`, `load_persisted_revocations`,
`authenticate_receiver`, `confirm_pairing`, and the discovery bridge that writes the registry. Each is a
task that goes from lock to lock and from one awaited answer to the next; a stage of it is where it
waits. `load_persisted_revocations` alone waits for a lock while it holds another, that of the
revocations.

The identity crate is not part of the repository: what the manager calls of it is a field here.
-/

namespace MichiServer.Receivers.Trust

open MichiServer.Interleave

/-! ## Data -/

inductive TrustState where
  | ready | recoveryRequired | degraded
deriving DecidableEq

def TrustState.display : TrustState → String
  | .ready => "ready"
  | .recoveryRequired => "recovery_required"
  | .degraded => "degraded"

structure HomeDeviceRevocationDto where
  version : ℕ
  homeId : String
  revokedDeviceMichiId : String
  revokedAt : String
  reason : String
  signature : String

structure PersistedHomeRevocation where
  id : String
  homeId : String
  revokedDeviceMichiId : String
  revokedAt : String
  reason : String
  version : ℤ
  signature : String

abbrev RevocationOf (deviceMichiId : String) : Type :=
  { r : HomeDeviceRevocationDto // r.revokedDeviceMichiId = deviceMichiId }

/-- `HomeRootAuthority`: what it issues is a revocation of the device it is asked to revoke. -/
structure HomeRootAuthority where
  homeId : String
  publicKeyBase64url : String
  issueRevocation (homeId deviceMichiId revokedAt reason : String) :
    RevocationOf deviceMichiId

structure Crates where
  verifyRevocation (rev : HomeDeviceRevocationDto) (rootPk homeId : String) : Except String Unit
  parseUuid (s : String) : Except String Unit

/-- `ReceiverInfo`, with the fields that identify the receiver. Of its capabilities it has what
`validate_audio_capabilities` answers, and what the reading of them after a confirmation does. -/
structure ReceiverInfo where
  michiId : Option String := none
  serverId : Option String := none
  publicKey : Option String := none
  identityScheme : Option String := none
  audioCapabilities : Except String Unit := .ok ()
  discreteCapabilities : Except String Unit := .ok ()

structure ReceiverHomeAuthContext where
  homeRootPublicKey : String
  expectedHomeId : String
  revocations : List HomeDeviceRevocationDto

/-- `PendingReceiverPairing`, with the fields that a confirmation reads. -/
structure PendingReceiverPairing where
  pairingId : String
  receiverBaseUrl : String
  receiverPairSessionId : String
  initiatorId : String
  expiresAt : ℕ
  expectedServerId : String
  expectedMichiId : String
  expectedPublicKey : String
deriving DecidableEq

structure ReceiverProtocolError where
  httpStatus : ℕ
  code : String
  message : String

structure PairConfirmResponse where
  error : Option ReceiverProtocolError := none

inductive ScentPresenceSource where
  | whiskerSigned | mdnsProvisional
deriving DecidableEq

structure ScentRecord where
  michiId : String
  deviceId : String
  service : String
  roles : List String
  verified : Bool
  presenceSource : ScentPresenceSource
  baseUrl : Option String

inductive ScentEvent where
  | discovered (record : ScentRecord)
  | endpointChanged (michiId new : String) (presenceSource : ScentPresenceSource)
      (verified : Bool)
  | offline (michiId : String)

/-- The manager. `db` are the rows of its database, if it has one; `home` needs the authority and the
server's membership, which are set together. -/
structure TrustManager where
  registry : ReceiverRegistry := {}
  revocations : List HomeDeviceRevocationDto := []
  revocationsLocked : Bool := false
  trustState : TrustState := .ready
  home : Option HomeRootAuthority
  db : Option (List PersistedHomeRevocation) := none
  singleFlightAuth : List String := []
  pendingPairings : List PendingReceiverPairing := []

namespace TrustManager

def revoked (w : TrustManager) : List String :=
  w.revocations.map HomeDeviceRevocationDto.revokedDeviceMichiId

def homeContext (w : TrustManager) : Option ReceiverHomeAuthContext :=
  w.home.map fun a => ⟨a.publicKeyBase64url, a.homeId, w.revocations⟩

def pending (w : TrustManager) (pairingId : String) : Option PendingReceiverPairing :=
  w.pendingPairings.find? fun p => p.pairingId = pairingId

def removePending (w : TrustManager) (pairingId : String) : TrustManager :=
  { w with pendingPairings := w.pendingPairings.filter fun p => p.pairingId ≠ pairingId }

end TrustManager

/-! ## Tasks -/

inductive RevokeStage (deviceMichiId : String) where
  | issue (reason : String)
  | persist (revocation : RevocationOf deviceMichiId) (pRev : PersistedHomeRevocation)
  | push (revocation : RevocationOf deviceMichiId)
  | mark (revocation : RevocationOf deviceMichiId)
  | stopSessions (revocation : RevocationOf deviceMichiId) (receiverIds : List String)

/-- Where a `load_persisted_revocations` is; at `reconcile` it holds the lock of the revocations. -/
inductive LoadStage where
  | list
  | verify (home : HomeRootAuthority) (persisted : List PersistedHomeRevocation)
  | reconcile (count : ℕ)

inductive AuthStage where
  | enter
  | trust
  | readEntry
  | context (clientId : Option String)
  | markRevoked (targetMid : String)
  | authenticate (homeCtx : ReceiverHomeAuthContext)
  | getInfo (sessionToken : String)
  | writeEntry (sessionToken : String) (info : ReceiverInfo)
  | leave (res : Except ReceiverClientError ReceiverInfo)

inductive PairStage where
  | readPending
  | removePending (res : Except String String)
  | preInfo (pending : PendingReceiverPairing)
  | pairConfirm (pending : PendingReceiverPairing)
  | recover (pending : PendingReceiverPairing) (e : ReceiverProtocolError)
  | recoverReported (pending : PendingReceiverPairing) (err : ReceiverProtocolError)
  | freshInfo (pending : PendingReceiverPairing) (token : Option String)
  | addEntry (entry : ReceiverRegistryEntry)

inductive Answer where
  | revoked (res : Except String HomeDeviceRevocationDto)
  | loaded (res : Except String ℕ)
  | authenticated (res : Except ReceiverClientError ReceiverInfo)
  | paired (res : Except String String)
  | handled

inductive Task where
  | revokeDevice (deviceMichiId : String) (stage : RevokeStage deviceMichiId)
  | loadPersistedRevocations (stage : LoadStage)
  | authenticateReceiver (receiverId : String) (stage : AuthStage)
  | confirmPairing (pairingId : String) (stage : PairStage)
  | handleEvent (event : ScentEvent)
  | returned (answer : Answer)

inductive Call where
  | revokeDevice (deviceMichiId reason : String)
  | loadPersistedRevocations
  | authenticateReceiver (receiverId : String)
  | confirmPairing (pairingId : String)
  | handleEvent (event : ScentEvent)

/-- What a step meets: the clock, a new row's id, and what the database, the receiver and the presence
store answer. `recovered` is the answer of the recovery, if the status was `confirmed` and it came. -/
structure Env where
  now : ℕ := 0
  nowRfc3339 : String := ""
  newId : String := ""
  database : Except String Unit := .ok ()
  sessionToken : Except ReceiverClientError String := .ok ""
  info : Except String ReceiverInfo := .ok {}
  pairConfirm : Except ReceiverProtocolError PairConfirmResponse := .ok {}
  recovered : Option PairConfirmResponse := none
  token : Option String := none
  presence : ReceiverPresence := .offline
  sessionStopped : Bool := false

/-! ## The database -/

def PersistedHomeRevocation.toDto (p : PersistedHomeRevocation) : HomeDeviceRevocationDto where
  version := (p.version % 2 ^ 32).toNat
  homeId := p.homeId
  revokedDeviceMichiId := p.revokedDeviceMichiId
  revokedAt := p.revokedAt
  reason := p.reason
  signature := p.signature

/-- `persist_home_revocation_transaction`: at most one row for a device of the home, and one of an id. -/
def persistHomeRevocationTransaction (rows : List PersistedHomeRevocation)
    (revocation : PersistedHomeRevocation) : Except String (List PersistedHomeRevocation) :=
  match rows.find? fun p => p.homeId = revocation.homeId ∧
      p.revokedDeviceMichiId = revocation.revokedDeviceMichiId with
  | some existing =>
    if revocation.version < existing.version then
      .error ("invalid data: Non-monotonic revocation version: candidate version " ++
        toString revocation.version ++ " < existing version " ++ toString existing.version)
    else if revocation.version = existing.version ∧ revocation.signature = existing.signature then
      .ok rows
    else
      .ok (rows.map fun p =>
        if p.id = existing.id then
          { p with
            revokedAt := revocation.revokedAt
            reason := revocation.reason
            version := revocation.version
            signature := revocation.signature }
        else p)
  | none =>
    if rows.any fun p => p.id = revocation.id then
      .error ("database error: error returned from database: (code: 1555) " ++
        "UNIQUE constraint failed: home_revocations.id")
    else .ok (rows ++ [revocation])

def listHomeRevocationsDb (rows : List PersistedHomeRevocation) (homeId : String) :
    List PersistedHomeRevocation :=
  (rows.filter fun p => p.homeId = homeId).mergeSort fun p q => p.revokedAt ≤ q.revokedAt

/-! ## Steps -/

def revocationRow (auth : HomeRootAuthority) (deviceMichiId reason : String) (env : Env) :
    PersistedHomeRevocation where
  id := env.newId
  homeId := auth.homeId
  revokedDeviceMichiId := deviceMichiId
  revokedAt := env.nowRfc3339
  reason := reason
  version := 1
  signature :=
    (auth.issueRevocation auth.homeId deviceMichiId env.nowRfc3339 reason).val.signature

/-- The entry is of the device, by its receiver id or by its michi id. -/
def isDevice (deviceMichiId : String) (e : ReceiverRegistryEntry) : Bool :=
  e.receiverId = deviceMichiId ∨ e.michiId = some deviceMichiId

namespace TrustManager

def persist (env : Env) (pRev : PersistedHomeRevocation) (w : TrustManager) :
    Except String TrustManager :=
  match w.db with
  | none => .ok w
  | some rows =>
    match env.database.bind fun _ => persistHomeRevocationTransaction rows pRev with
    | .error e => .error ("Failed to persist revocation to database: " ++ e)
    | .ok rows => .ok { w with db := some rows }

def pushRevocation {deviceMichiId : String} (revocation : RevocationOf deviceMichiId)
    (w : TrustManager) : TrustManager :=
  { w with
    revocations := (w.revocations.filter fun r => r.revokedDeviceMichiId ≠ deviceMichiId) ++
      [revocation.val] }

def receiverIdsToStop (deviceMichiId : String) (w : TrustManager) : List String :=
  (w.registry.receivers.filter (isDevice deviceMichiId)).map ReceiverRegistryEntry.receiverId

def markDevice (deviceMichiId : String) (w : TrustManager) : TrustManager :=
  { w with
    registry := w.registry.updateAll (isDevice deviceMichiId) fun e =>
      { e.revoke with presence := .offline } }

def stopSession (env : Env) (w : TrustManager) (receiverId : String) : TrustManager :=
  if env.sessionStopped then
    { w with
      registry := w.registry.modify receiverId fun e => { e with activeSessionId := none } }
  else w

end TrustManager

def revokeStep (deviceMichiId : String) (env : Env) (w : TrustManager) :
    RevokeStage deviceMichiId → List Task × TrustManager
  | .issue reason =>
    match w.home with
    | none => ([.returned (.revoked (.error "HomeRootAuthority not configured"))], w)
    | some auth =>
      ([.revokeDevice deviceMichiId (.persist
        (auth.issueRevocation auth.homeId deviceMichiId env.nowRfc3339 reason)
        (revocationRow auth deviceMichiId reason env))], w)
  | .persist revocation pRev =>
    match w.persist env pRev with
    | .error e => ([.returned (.revoked (.error e))], w)
    | .ok w => ([.revokeDevice deviceMichiId (.push revocation)], w)
  | .push revocation =>
    if w.revocationsLocked then ([.revokeDevice deviceMichiId (.push revocation)], w)
    else ([.revokeDevice deviceMichiId (.mark revocation)], w.pushRevocation revocation)
  | .mark revocation =>
    ([.revokeDevice deviceMichiId
        (.stopSessions revocation (w.receiverIdsToStop deviceMichiId))],
      w.markDevice deviceMichiId)
  | .stopSessions revocation [] => ([.returned (.revoked (.ok revocation.val))], w)
  | .stopSessions revocation (rid :: rest) =>
    ([.revokeDevice deviceMichiId (.stopSessions revocation rest)], w.stopSession env rid)

/-- The loop over the persisted revocations, which stops at the first that is refused. -/
def verifyPersisted (crates : Crates) (home : HomeRootAuthority) :
    List PersistedHomeRevocation → List HomeDeviceRevocationDto → ℕ →
      Except String ℕ × List HomeDeviceRevocationDto
  | [], revs, count => (.ok count, revs)
  | p :: rest, revs, count =>
    match crates.verifyRevocation p.toDto home.publicKeyBase64url home.homeId with
    | .error e =>
      (.error ("CRITICAL: Persisted revocation for device " ++ p.revokedDeviceMichiId ++
        " has invalid cryptographic signature: " ++ e), revs)
    | .ok () =>
      if revs.any fun r => r.revokedDeviceMichiId = p.revokedDeviceMichiId then
        verifyPersisted crates home rest revs count
      else verifyPersisted crates home rest (revs ++ [p.toDto]) (count + 1)

/-- The entry's device is in the revocation set: its michi id, or its receiver id when it has none. -/
def reconciled (w : TrustManager) (e : ReceiverRegistryEntry) : Bool :=
  (e.michiId.getD e.receiverId) ∈ w.revoked

def TrustManager.reconcile (w : TrustManager) : TrustManager :=
  { w with
    registry := w.registry.updateAll (reconciled w) ReceiverRegistryEntry.revoke
    trustState := .ready
    revocationsLocked := false }

def loadStep (crates : Crates) (env : Env) (w : TrustManager) :
    LoadStage → List Task × TrustManager
  | .list =>
    match w.db, w.home with
    | some rows, some home =>
      match env.database with
      | .error e =>
        ([.returned (.loaded (.error ("Failed to read home_revocations from DB: " ++ e)))],
          { w with trustState := .recoveryRequired })
      | .ok () =>
        ([.loadPersistedRevocations (.verify home (listHomeRevocationsDb rows home.homeId))], w)
    | _, _ => ([.returned (.loaded (.ok 0))], w)
  | .verify home persisted =>
    if w.revocationsLocked then ([.loadPersistedRevocations (.verify home persisted)], w)
    else
      match verifyPersisted crates home persisted w.revocations 0 with
      | (.error e, revs) =>
        ([.returned (.loaded (.error e))],
          { w with revocations := revs, trustState := .recoveryRequired })
      | (.ok count, revs) =>
        ([.loadPersistedRevocations (.reconcile count)],
          { w with revocations := revs, revocationsLocked := true })
  | .reconcile count => ([.returned (.loaded (.ok count))], w.reconcile)

def authenticatedEntry (sessionToken : String) (info : ReceiverInfo) (e : ReceiverRegistryEntry) :
    ReceiverRegistryEntry :=
  { e with
    token := some sessionToken
    paired := true
    authenticated := true
    presence := .verifiedOnline
    michiId := info.michiId.or e.michiId }

def authStep (receiverId : String) (env : Env) (w : TrustManager) :
    AuthStage → List Task × TrustManager
  | .enter =>
    if receiverId ∈ w.singleFlightAuth then
      ([.returned (.authenticated (.error (.protocol
        ("authentication already in-flight for " ++ receiverId))))], w)
    else
      ([.authenticateReceiver receiverId .trust],
        { w with singleFlightAuth := receiverId :: w.singleFlightAuth })
  | .trust =>
    if w.trustState ≠ .ready then
      ([.authenticateReceiver receiverId (.leave (.error (.protocol
        ("TRUST_RECOVERY_REQUIRED: home trust state is " ++ w.trustState.display ++
          "; receiver authentication is blocked until trust domain is restored"))))], w)
    else ([.authenticateReceiver receiverId .readEntry], w)
  | .readEntry =>
    match w.registry.get receiverId with
    | none =>
      ([.authenticateReceiver receiverId (.leave (.error (.offline
        ("receiver not found: " ++ receiverId))))], w)
    | some entry =>
      if entry.revoked then
        ([.authenticateReceiver receiverId (.leave (.error (.protocol
          ("receiver " ++ receiverId ++ " is revoked in this home"))))], w)
      else ([.authenticateReceiver receiverId (.context entry.michiId)], w)
  | .context clientId =>
    if w.revocationsLocked then ([.authenticateReceiver receiverId (.context clientId)], w)
    else
      match w.homeContext with
      | none =>
        ([.authenticateReceiver receiverId (.leave (.error (.protocol
          "HomeRootAuthority context not configured")))], w)
      | some homeCtx =>
        let targetMid := clientId.getD receiverId
        if homeCtx.revocations.any fun r => r.revokedDeviceMichiId = targetMid then
          ([.authenticateReceiver receiverId (.markRevoked targetMid)], w)
        else ([.authenticateReceiver receiverId (.authenticate homeCtx)], w)
  | .markRevoked targetMid =>
    ([.authenticateReceiver receiverId (.leave (.error (.protocol
        ("device " ++ targetMid ++ " is revoked"))))],
      { w with registry := w.registry.modify receiverId ReceiverRegistryEntry.revoke })
  | .authenticate _ =>
    match env.sessionToken with
    | .error e => ([.authenticateReceiver receiverId (.leave (.error e))], w)
    | .ok sessionToken => ([.authenticateReceiver receiverId (.getInfo sessionToken)], w)
  | .getInfo sessionToken =>
    match env.info with
    | .error e =>
      ([.authenticateReceiver receiverId (.leave (.error (.protocol
        ("failed to get receiver info: " ++ e))))], w)
    | .ok info => ([.authenticateReceiver receiverId (.writeEntry sessionToken info)], w)
  | .writeEntry sessionToken info =>
    ([.authenticateReceiver receiverId (.leave (.ok info))],
      { w with registry := w.registry.modify receiverId (authenticatedEntry sessionToken info) })
  | .leave res =>
    ([.returned (.authenticated res)],
      { w with singleFlightAuth := w.singleFlightAuth.filter fun rid => rid ≠ receiverId })

def trim (s : String) : String :=
  let isWhite (c : Char) : Bool :=
    c.toNat ∈ [9, 10, 11, 12, 13, 32, 0x85, 0xa0, 0x1680, 0x2028, 0x2029, 0x202f, 0x205f, 0x3000] ∨
      (0x2000 ≤ c.toNat ∧ c.toNat ≤ 0x200a)
  String.ofList ((s.toList.dropWhile isWhite).reverse.dropWhile isWhite).reverse

/-- An optional text as Rust's `{:?}` prints it, where no character of it is escaped. -/
def debug : Option String → String
  | none => "None"
  | some s => "Some(\"" ++ s ++ "\")"

/-- The identity a confirmation expects of the receiver, checked at a moment. -/
def checkIdentity (moment : String) (pending : PendingReceiverPairing) (info : ReceiverInfo)
    (serverId : String) : Except String Unit :=
  if serverId ≠ pending.expectedServerId then
    .error ("IDENTITY_MISMATCH: receiver server_id changed " ++ moment ++ " (expected '" ++
      pending.expectedServerId ++ "', got '" ++ serverId ++ "')")
  else if info.michiId ≠ some pending.expectedMichiId then
    .error ("IDENTITY_MISMATCH: receiver michi_id changed " ++ moment ++ " (expected '" ++
      pending.expectedMichiId ++ "', got '" ++ debug info.michiId ++ "')")
  else if info.publicKey ≠ some pending.expectedPublicKey then
    .error ("IDENTITY_MISMATCH: receiver public_key changed " ++ moment ++ " (expected '" ++
      pending.expectedPublicKey ++ "', got '" ++ debug info.publicKey ++ "')")
  else .ok ()

def checkPreInfo (crates : Crates) (pending : PendingReceiverPairing) (preInfo : ReceiverInfo) :
    Except String Unit :=
  match preInfo.serverId with
  | none => .error "CONTRACT_VIOLATION: server_id is required in receiver info"
  | some preServerId =>
    match crates.parseUuid preServerId with
    | .error e =>
      .error ("CONTRACT_VIOLATION: server_id must be a valid canonical UUID: " ++ e)
    | .ok () =>
      match checkIdentity "before pair_confirm" pending preInfo preServerId with
      | .error e => .error e
      | .ok () =>
        match (preInfo.identityScheme.map trim).filter fun s => s ≠ "" with
        | none => .error "CONTRACT_VIOLATION: identity_scheme is required in receiver info"
        | some preScheme =>
          if preScheme ≠ "ed25519-blake3-v1" then
            .error ("CONTRACT_VIOLATION: identity_scheme must be 'ed25519-blake3-v1', got '" ++
              preScheme ++ "'")
          else preInfo.audioCapabilities

/-- The entry of a confirmed receiver, if it still is the one that was paired with. -/
def confirmedEntry (pending : PendingReceiverPairing) (freshInfo : ReceiverInfo)
    (token : Option String) (presence : ReceiverPresence) : Except String ReceiverRegistryEntry :=
  match freshInfo.serverId with
  | none => .error "CONTRACT_VIOLATION: server_id is required in receiver info"
  | some freshServerId =>
    match checkIdentity "post-confirmation" pending freshInfo freshServerId with
    | .error e => .error e
    | .ok () =>
      match freshInfo.discreteCapabilities with
      | .error e => .error e
      | .ok () =>
        .ok
          { receiverId := freshInfo.michiId.getD freshServerId
            michiId := freshInfo.michiId
            baseUrl := pending.receiverBaseUrl
            paired := true
            token := token
            presence := presence
            activeSessionId := none
            authenticated := true
            revoked := false }

def refusal (e : ReceiverProtocolError) : Except String String :=
  .error ("pair_confirm failed: " ++ e.code ++ ": " ++ e.message)

def consumedCodes : List String :=
  ["PAIRING_EXPIRED", "PAIRING_NOT_FOUND", "PAIRING_ALREADY_CONSUMED", "CONFLICT",
    "PAIRING_ATTEMPTS_EXCEEDED"]

/-- What follows the receiver's confirmation, which can carry an error of its own. -/
def confirmed (pairingId : String) (pending : PendingReceiverPairing) (resp : PairConfirmResponse)
    (token : Option String) : Task :=
  match resp.error with
  | none => .confirmPairing pairingId (.freshInfo pending token)
  | some err =>
    if err.code = "PAIRING_ALREADY_CONSUMED" ∨ err.code = "CONFLICT" then
      .confirmPairing pairingId (.recoverReported pending err)
    else if err.code ∈ consumedCodes then
      .confirmPairing pairingId (.removePending (refusal err))
    else .returned (.paired (refusal err))

/-- What follows a failed confirmation: whether the pairing is kept for another try. -/
def refused (pairingId : String) (e : ReceiverProtocolError) : Task :=
  if e.code = "PAIRING_PIN_MISMATCH" then .returned (.paired (refusal e))
  else if e.code ∈ consumedCodes ∨ e.httpStatus = 408 ∨ e.httpStatus = 410 then
    .confirmPairing pairingId (.removePending (refusal e))
  else .returned (.paired (refusal e))

def pairStep (crates : Crates) (pairingId : String) (env : Env) (w : TrustManager) :
    PairStage → List Task × TrustManager
  | .readPending =>
    match w.pending pairingId with
    | none => ([.returned (.paired (.error "pairing session not found or expired"))], w)
    | some pending =>
      if env.now > pending.expiresAt then
        ([.confirmPairing pairingId (.removePending (.error "pairing session expired"))], w)
      else ([.confirmPairing pairingId (.preInfo pending)], w)
  | .removePending res => ([.returned (.paired res)], w.removePending pairingId)
  | .preInfo pending =>
    match env.info.bind (checkPreInfo crates pending) with
    | .error e => ([.returned (.paired (.error e))], w)
    | .ok () => ([.confirmPairing pairingId (.pairConfirm pending)], w)
  | .pairConfirm pending =>
    match env.pairConfirm with
    | .ok resp => ([confirmed pairingId pending resp env.token], w)
    | .error e =>
      if e.code ∈ ["NETWORK_ERROR", "PAIRING_ALREADY_CONSUMED", "CONFLICT"] ∨
          e.httpStatus = 409 then
        ([.confirmPairing pairingId (.recover pending e)], w)
      else ([refused pairingId e], w)
  | .recover pending e =>
    match env.recovered with
    | some resp => ([confirmed pairingId pending resp env.token], w)
    | none => ([refused pairingId e], w)
  | .recoverReported pending err =>
    match env.recovered with
    | some _ => ([.confirmPairing pairingId (.freshInfo pending env.token)], w)
    | none => ([.confirmPairing pairingId (.removePending (refusal err))], w)
  | .freshInfo pending token =>
    match env.info.bind fun info => confirmedEntry pending info token env.presence with
    | .error e => ([.returned (.paired (.error e))], w)
    | .ok entry => ([.confirmPairing pairingId (.addEntry entry)], w)
  | .addEntry entry =>
    ([.confirmPairing pairingId (.removePending (.ok entry.receiverId))],
      { w with registry := w.registry.add entry })

/-! ## The discovery bridge -/

def targetPresence (presenceSource : ScentPresenceSource) (verified : Bool) : ReceiverPresence :=
  if presenceSource = .whiskerSigned ∧ verified then .verifiedOnline else .provisionalMdns

def isReceiver (record : ScentRecord) : Bool :=
  (record.verified ∨ record.presenceSource = .mdnsProvisional) ∧
    (record.service = "michi-stream-standard" ∨ record.service = "michi-stream-hifi") ∧
    "audio_receiver" ∈ record.roles

def legacyEntry (reg : ReceiverRegistry) (record : ScentRecord) : Option ReceiverRegistryEntry :=
  reg.receivers.find? fun e => e.receiverId = record.deviceId ∨ e.receiverId = record.michiId

def projectedEntry (record : ScentRecord) (baseUrl : String) : ReceiverRegistryEntry where
  receiverId := record.michiId
  michiId := some record.michiId
  baseUrl := baseUrl
  presence := targetPresence record.presenceSource record.verified

/-- `reconcile_record`, in one write of the registry; the tasks are those it spawns. -/
def reconcileRecord (record : ScentRecord) (reg : ReceiverRegistry) :
    List Task × ReceiverRegistry :=
  match isReceiver record, record.baseUrl with
  | true, some baseUrl =>
    let presence := targetPresence record.presenceSource record.verified
    match reg.getMut record.michiId with
    | some entry =>
      (if !entry.authenticated && !entry.revoked then
          [.authenticateReceiver record.michiId .enter] else [],
        reg.modify record.michiId fun e => { e with baseUrl := baseUrl, presence := presence })
    | none =>
      match legacyEntry reg record with
      | some entry =>
        ([], reg.updateAll (fun e => e.receiverId = entry.receiverId) fun e =>
          { e with michiId := some record.michiId, baseUrl := baseUrl, presence := presence })
      | none =>
        ([.authenticateReceiver record.michiId .enter], reg.add (projectedEntry record baseUrl))
  | _, _ => ([], reg)

/-- `handle_event`, in one write of the registry; the tasks are those it spawns. -/
def handleEvent (reg : ReceiverRegistry) : ScentEvent → List Task × ReceiverRegistry
  | .discovered record => reconcileRecord record reg
  | .endpointChanged michiId new presenceSource verified =>
    match reg.getMut michiId with
    | some entry =>
      (if !entry.authenticated && !entry.revoked then
          [.authenticateReceiver entry.receiverId .enter] else [],
        reg.modify michiId fun e =>
          { e with baseUrl := new, presence := targetPresence presenceSource verified })
    | none => ([], reg)
  | .offline michiId => ([], reg.modify michiId fun e => { e with presence := .offline })

/-! ## The machine -/

/-- What happens meanwhile: a pairing is started, or the registry's map takes another order. -/
inductive Background where
  | startPairing (now : ℕ) (pending : PendingReceiverPairing)
  | rehash (registry : ReceiverRegistry)

def trustManager (crates : Crates) : Machine Call Task Env Background TrustManager where
  enter
    | .revokeDevice deviceMichiId reason => .revokeDevice deviceMichiId (.issue reason)
    | .loadPersistedRevocations => .loadPersistedRevocations .list
    | .authenticateReceiver receiverId => .authenticateReceiver receiverId .enter
    | .confirmPairing pairingId => .confirmPairing pairingId .readPending
    | .handleEvent event => .handleEvent event
  step
    | .revokeDevice deviceMichiId stage, env, w => revokeStep deviceMichiId env w stage
    | .loadPersistedRevocations stage, env, w => loadStep crates env w stage
    | .authenticateReceiver receiverId stage, env, w => authStep receiverId env w stage
    | .confirmPairing pairingId stage, env, w => pairStep crates pairingId env w stage
    | .handleEvent event, _, w =>
      (.returned .handled :: (handleEvent w.registry event).1,
        { w with registry := (handleEvent w.registry event).2 })
    | .returned answer, _, w => ([.returned answer], w)
  tick
    | .startPairing now pending, w =>
      { w with
        pendingPairings := pending :: w.pendingPairings.filter fun p =>
          p.expiresAt > now ∧ p.pairingId ≠ pending.pairingId }
    | .rehash registry, w =>
      if registry.receivers.Perm w.registry.receivers then { w with registry := registry } else w

abbrev TrustPool := Pool Task TrustManager

abbrev TrustMove := PoolMove Call Env Background

/-! ## A sample home -/

def sampleHome : HomeRootAuthority where
  homeId := "home"
  publicKeyBase64url := "key"
  issueRevocation homeId deviceMichiId revokedAt reason :=
    ⟨{ version := 1
       homeId := homeId
       revokedDeviceMichiId := deviceMichiId
       revokedAt := revokedAt
       reason := reason
       signature := "key" ++ homeId ++ deviceMichiId ++ revokedAt ++ reason }, rfl⟩

def sampleCrates : Crates where
  verifyRevocation rev rootPk homeId :=
    if rev.homeId = homeId ∧ rev.signature =
        rootPk ++ rev.homeId ++ rev.revokedDeviceMichiId ++ rev.revokedAt ++ rev.reason then
      .ok ()
    else .error "signature"
  parseUuid _ := .ok ()

def sampleRegistry : ReceiverRegistry where
  receivers := [{ receiverId := "living-room", michiId := some "dev", paired := true }]

end MichiServer.Receivers.Trust
