import MichiServer.Receivers.Lockstep
import MichiServer.Files.Names

/-!
# The grants of the authority gate

`AuthorityGate` keeps, by receiver id, the grant under which a receiver's session was started. Stopping
a session releases the grant with its stamp; losing it drops the grant without a word to the receiver.
-/

namespace MichiServer.Receivers

structure AuthorityStamp where
  authorityInstanceId : String
  leaseEpoch : ℕ
deriving DecidableEq

structure AuthorityGrant where
  authorityInstanceId : String
  leaseEpoch : ℕ
  grantToken : String
  activationExpiresAt : ℤ
deriving DecidableEq

def AuthorityGrant.stamp (grant : AuthorityGrant) : AuthorityStamp :=
  ⟨grant.authorityInstanceId, grant.leaseEpoch⟩

inductive AuthorityError where
  | occupied (ownerMichiId ownerName : Option String)
  | unauthorized (text : String)
  | epochMismatch (expected actual : ℕ)
  | grantExpired
  | unsupported
  | takeoverRequiresExplicit
  | http (text : String)
  | protocol (text : String)

structure ReleaseRequest where
  endpoint : String
  token : Option String
  stamp : AuthorityStamp

structure AuthorityGate where
  activeGrants : String → Option AuthorityGrant := fun _ => none
  releases : List ReleaseRequest := []

namespace AuthorityGate

def getGrant (gate : AuthorityGate) (receiverId : String) : Option AuthorityGrant :=
  gate.activeGrants receiverId

def storeGrant (gate : AuthorityGate) (receiverId : String) (grant : AuthorityGrant) : AuthorityGate :=
  { gate with activeGrants := Function.update gate.activeGrants receiverId (some grant) }

def invalidateGrant (gate : AuthorityGate) (receiverId : String) : AuthorityGate :=
  { gate with activeGrants := Function.update gate.activeGrants receiverId none }

/-- `release_grant`: the grant is removed, and released at the receiver if its URL can be read. -/
def releaseGrant (urlOk : String → Bool) (gate : AuthorityGate) (receiver : ReceiverRegistryEntry) :
    AuthorityGate :=
  match gate.activeGrants receiver.receiverId with
  | some grant =>
    let gate := gate.invalidateGrant receiver.receiverId
    if urlOk receiver.baseUrl then
      { gate with releases := gate.releases ++ [⟨receiver.baseUrl, receiver.token, grant.stamp⟩] }
    else gate
  | none => gate

variable (urlOk : String → Bool) (gate : AuthorityGate) (receiver : ReceiverRegistryEntry)

theorem releaseGrant_activeGrants : (gate.releaseGrant urlOk receiver).activeGrants =
    Function.update gate.activeGrants receiver.receiverId none := by
  unfold releaseGrant
  cases hgrant : gate.activeGrants receiver.receiverId with
  | none => exact (Function.update_eq_self_iff.mpr hgrant.symm).symm
  | some grant =>
    dsimp only
    split <;> rfl

end AuthorityGate

/-!
## Sessions and their grants

Starting, stopping and losing sessions of any receivers, with the grants that a start claims and a stop
releases. The calls are tasks that go from one critical section or answer of the network to the next.
Of a session the model keeps the record in `active_sessions`; the transports, the registry's session ids
and the heartbeats change no grant.

A record carries the stamp it was started under, and `owed` collects the stamps of grants that went to
no session or gave way to a newer one; the source keeps neither.
-/

namespace Grants

open MichiServer.Interleave MichiServer.Text MichiServer.Files

structure Entry extends ReceiverRegistryEntry where
  authoritySupported : Bool
  capabilitiesVerified : Bool
deriving DecidableEq

structure SessionRecord where
  session : ReceiverActiveSession
  under : Option AuthorityStamp
deriving DecidableEq

structure GateWorld where
  registry : String → Option Entry
  gate : AuthorityGate := {}
  activeSessions : String → Option SessionRecord := fun _ => none
  owed : List (String × AuthorityStamp) := []

namespace GateWorld

def setSession (w : GateWorld) (id : String) (rec : Option SessionRecord) : GateWorld :=
  { w with activeSessions := Function.update w.activeSessions id rec }

def owe (w : GateWorld) (id : String) (claimed : Option AuthorityGrant) : GateWorld :=
  { w with owed := w.owed ++ (claimed.toList.map fun grant => (id, grant.stamp)) }

end GateWorld

/-! ## Tasks -/

/-- Where a `start_session_with_authority` is: the checks, `info` and `claim` of the gate and the grant
that is stored, the session at the receiver, the authentication and the second request where the first
is refused, the transport, and the record. -/
inductive StartStage where
  | check
  | info (entry : Entry)
  | claim (entry : Entry)
  | store (entry : Entry) (grant : AuthorityGrant)
  | sessionStart (entry : Entry) (claimed : Option AuthorityGrant)
  | authenticate (entry : Entry) (claimed : Option AuthorityGrant)
  | startAgain (entry : Entry) (claimed : Option AuthorityGrant)
  | transport (entry : Entry) (claimed : Option AuthorityGrant) (n : NegotiatedReceiverSession)
  | record (claimed : Option AuthorityGrant) (n : NegotiatedReceiverSession)
deriving DecidableEq

inductive StopStage where
  | markClosing
  | readEntry (rec : SessionRecord)
  | sessionStop (rec : SessionRecord) (entry : Entry)
  | markFailed
  | removeSession (rec : SessionRecord) (entry : Entry)
  | release (rec : SessionRecord) (entry : Entry)
deriving DecidableEq

inductive LostStage where
  | removeSession
  | invalidate
deriving DecidableEq

inductive Task where
  | start (id : String) (authority : Option AuthorityGrant) (stage : StartStage)
  | stop (id : String) (stage : StopStage)
  | lost (id : String) (stage : LostStage)
deriving DecidableEq

inductive Call where
  | startSession (id : String) (authority : Option AuthorityGrant)
  | stopSession (id : String)
  | handleSessionLost (id : String)

/-- What a step meets: the checks of the capabilities, whether URLs can be read, and the answers of the
receiver and of the transport. -/
structure TaskEnv where
  capabilities : Except String Unit := .ok ()
  urlOk : String → Bool := fun _ => true
  info : Except AuthorityError Unit := .ok ()
  claim : Except AuthorityError AuthorityGrant := .error (.http "")
  negotiated : Except String NegotiatedReceiverSession := .error ""
  authenticated : Bool := false
  transport : Except String Unit := .ok ()
  stopped : Except String Unit := .ok ()

/-! ## Steps -/

def unauthorized (e : String) : Bool := contains e "401" || contains (toLowercase e) "unauthorized"

def claimedWith (id : String) (authority : Option AuthorityGrant) (entry : Entry) (w : GateWorld) :
    Except AuthorityError (Option AuthorityGrant) → List Task × GateWorld
  | .ok claimed => ([.start id authority (.sessionStart entry claimed)], w)
  | .error .unsupported => ([.start id authority (.sessionStart entry none)], w)
  | .error _ => ([], w)

def startFailed (id : String) (claimed : Option AuthorityGrant) (w : GateWorld) :
    List Task × GateWorld :=
  ([], w.owe id claimed)

def under (authority claimed : Option AuthorityGrant) : Option AuthorityStamp :=
  (authority.or claimed).map AuthorityGrant.stamp

/-- A step of `start_session_with_authority`. A call that returns, with a session or an error, is gone. -/
def startStep (id : String) (authority : Option AuthorityGrant) (env : TaskEnv) (w : GateWorld) :
    StartStage → List Task × GateWorld
  | .check =>
    match w.registry id with
    | none => ([], w)
    | some entry =>
      if entry.revoked then ([], w)
      else
        match env.capabilities with
        | .error _ => ([], w)
        | .ok () =>
          if authority.isNone && entry.authoritySupported then ([.start id authority (.info entry)], w)
          else ([.start id authority (.sessionStart entry none)], w)
  | .info entry =>
    if !env.urlOk entry.baseUrl then
      claimedWith id authority entry w (.error (.protocol "invalid base_url"))
    else if !entry.authoritySupported && entry.capabilitiesVerified then
      claimedWith id authority entry w (.ok none)
    else
      match env.info with
      | .ok () => ([.start id authority (.claim entry)], w)
      | .error .unsupported => claimedWith id authority entry w (.ok none)
      | .error e => claimedWith id authority entry w (.error e)
  | .claim entry =>
    match env.claim with
    | .ok grant => ([.start id authority (.store entry grant)], w)
    | .error e => claimedWith id authority entry w (.error e)
  | .store entry grant =>
    -- a grant that gives way to the new one is gone without a release
    let w := w.owe entry.receiverId (w.gate.getGrant entry.receiverId)
    ([.start id authority (.sessionStart entry (some grant))],
      { w with gate := w.gate.storeGrant entry.receiverId grant })
  | .sessionStart entry claimed =>
    match env.negotiated with
    | .ok n => ([.start id authority (.transport entry claimed n)], w)
    | .error e =>
      if unauthorized e then ([.start id authority (.authenticate entry claimed)], w)
      else startFailed entry.receiverId claimed w
  | .authenticate entry claimed =>
    if env.authenticated then ([.start id authority (.startAgain entry claimed)], w)
    else startFailed entry.receiverId claimed w
  | .startAgain entry claimed =>
    match env.negotiated with
    | .ok n => ([.start id authority (.transport entry claimed n)], w)
    | .error _ => startFailed entry.receiverId claimed w
  | .transport entry claimed n =>
    if !env.urlOk entry.baseUrl then startFailed entry.receiverId claimed w
    else
      match env.transport with
      | .ok () => ([.start id authority (.record claimed n)], w)
      | .error _ => startFailed entry.receiverId claimed w
  | .record claimed n =>
    ([], w.setSession id (some ⟨.ofNegotiated n, under authority claimed⟩))

def stopStep (id : String) (env : TaskEnv) (w : GateWorld) : StopStage → List Task × GateWorld
  | .markClosing =>
    match w.activeSessions id with
    | none => ([], w)
    | some rec =>
      let closing := { rec with session := { rec.session with state := .closing } }
      ([.stop id (.readEntry closing)], w.setSession id (some closing))
  | .readEntry rec =>
    match w.registry id with
    | none => ([], w)
    | some entry => ([.stop id (.sessionStop rec entry)], w)
  | .sessionStop rec entry =>
    match env.stopped with
    | .ok () => ([.stop id (.removeSession rec entry)], w)
    | .error _ => ([.stop id .markFailed], w)
  | .markFailed =>
    ([], w.setSession id ((w.activeSessions id).map fun rec =>
      { rec with session := { rec.session with state := .failed } }))
  | .removeSession rec entry => ([.stop id (.release rec entry)], w.setSession id none)
  | .release _ entry =>
    ([], { w with gate := w.gate.releaseGrant env.urlOk entry.toReceiverRegistryEntry })

def lostStep (id : String) (w : GateWorld) : LostStage → List Task × GateWorld
  | .removeSession => ([.lost id .invalidate], w.setSession id none)
  | .invalidate => ([], { w with gate := w.gate.invalidateGrant id })

def gateManager : Machine Call Task TaskEnv (String → Option Entry) GateWorld where
  enter
    | .startSession id authority => .start id authority .check
    | .stopSession id => .stop id .markClosing
    | .handleSessionLost id => .lost id .removeSession
  step
    | .start id authority stage, env, w => startStep id authority env w stage
    | .stop id stage, env, w => stopStep id env w stage
    | .lost id stage, _, w => lostStep id w stage
  tick registry w := { w with registry }

abbrev GatePool := Pool Task GateWorld

abbrev GateMove := PoolMove Call TaskEnv (String → Option Entry)

def GatePool.idle (registry : String → Option Entry) : GatePool where
  tasks := []
  world := { registry }

end Grants

end MichiServer.Receivers
