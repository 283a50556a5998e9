import MichiServer.Connect.Presence

/-!
# The events of the presence store

What the operations send to the subscribers of the store, and about whom. A record goes into its event
as it is when it is written, so an event says what the store held then.
-/

namespace MichiServer.Connect

def isStreamService (service : String) : Bool :=
  service = "michi-stream-standard" || service = "michi-stream-hifi"

def hasAudioRole (roles : List String) : Bool := roles.any fun r => r = "audio_receiver"

namespace ScentOp

def events (op : ScentOp) (now : Instant) (s : ScentStore) : List ScentEvent :=
  match op with
  | observeSignedWithHome michiId deviceId name service roles source home fingerprint =>
    (s.observeSignedWithHome michiId deviceId name service roles source now home
      fingerprint).2
  | observeMdnsCandidate info baseUrl source =>
    (s.observeMdnsCandidate info baseUrl source now).2
  | updateBaseUrl michiId newUrl source => (s.updateBaseUrl michiId newUrl source now).2
  | checkExpirations => (s.checkExpirations now).2
  | _ => []

end ScentOp

def ScentEvent.subject : ScentEvent → String
  | discovered record => record.michiId
  | updated record => record.michiId
  | endpointChanged michiId .. => michiId
  | offline michiId => michiId

namespace ScentStore

theorem sighted_base (old : ScentRecord) (info : VerifiedServerInfo) (baseUrl : Url)
    (source : Option SocketAddr) (now : Instant) :
    (sighted old info baseUrl source now).michiId = old.michiId ∧
      (sighted old info baseUrl source now).baseUrl = some baseUrl := by
  grind [sighted]

theorem rebased_base (old : ScentRecord) (newUrl : Url) (source : Option SocketAddr)
    (now : Instant) :
    (rebased old newUrl source now).michiId = old.michiId ∧
      (rebased old newUrl source now).baseUrl = some newUrl := by
  grind [rebased]

theorem expire_base (x : String) (r : ScentRecord) (now : Instant) :
    (expire x r now).1.michiId = r.michiId ∧
      (expire x r now).1.baseUrl = r.baseUrl := by
  grind [expire]

theorem expire_event {x : String} {r : ScentRecord} {now : Instant} {ev : ScentEvent}
    (h : (expire x r now).2 = some ev) :
    ev = .updated (expire x r now).1 ∨ ev = .offline x := by
  grind [expire]

end ScentStore

/-!
## What is taken from the network

The two ways a peer gets into the presence store. `handle_packet` of the discovery listener takes an
announcement whose signature holds. `MdnsResolver` takes an advertised michi id, asks the address for
`GET /api/v1/server/info` and compares the answer with the id: the answer must name the id, and the
public key in it must be the one the id is derived from. The host is not asked to sign anything.
-/

/-- What the resolver reads of the body of `GET /api/v1/server/info`; a field that is missing or not
of its type is `none`. -/
structure ServerInfoBody where
  michiId : Option String
  publicKey : Option String
  service : Option String
  apiVersion : Option String
  roles : Option (List String)
  serverId : Option String
  name : Option String

variable (deriveMichiId : String → Except String String)

def verifyIdentityEndpoint (answer : Except String ServerInfoBody) (expectedMichiId : String) :
    Except String (Option VerifiedServerInfo) :=
  match answer with
  | .error e => .error e
  | .ok body =>
    let returnedMichiId := body.michiId.getD ""
    if returnedMichiId = "" then .error "server/info did not return a michi_id"
    else if returnedMichiId ≠ expectedMichiId then .ok none
    else
      let publicKey := body.publicKey.getD ""
      if publicKey = "" then .ok none
      else
        match deriveMichiId publicKey with
        | .error _ => .ok none
        | .ok derivedMichiId =>
          if derivedMichiId ≠ expectedMichiId then .ok none
          else
            let service := body.service.getD ""
            if !isStreamService service then .ok none
            else if body.apiVersion.getD "" ≠ "v1-lite" then .ok none
            else
              let roles := body.roles.getD []
              if !hasAudioRole roles then .ok none
              else
                match body.serverId.filter (· ≠ "") with
                | none => .ok none
                | some serverId =>
                  .ok (some {
                    michiId := expectedMichiId
                    deviceId := serverId
                    name := (body.name.filter (· ≠ "")).getD "Michi Stream"
                    service, roles })

/-- An address of a resolved mDNS service, with what the request to it came to. `holdsKey` says of
the host at the address that it has the key it serves: the code does not see it. -/
structure Probe where
  url : Url
  socket : SocketAddr
  answer : Except String ServerInfoBody
  holdsKey : Bool

/-- `handle_resolved_service`: the first address that passes, with what is taken from it. -/
def handleResolvedService (michiId : Option String) (probes : List Probe) :
    Option (VerifiedServerInfo × Probe) :=
  match michiId.filter (· ≠ "") with
  | none => none
  | some michiId =>
    probes.findSome? fun probe =>
      match verifyIdentityEndpoint deriveMichiId probe.answer michiId with
      | .ok (some info) => some (info, probe)
      | _ => none

/-- What a verified announcement adds to the store: `handle_packet` takes the announcements of stream
receivers only. -/
def handleAnnounce (michiId deviceId name service : String) (roles : List String)
    (source : Option SocketAddr) (michiHomeId membershipFingerprint : Option String) :
    Option ScentOp :=
  if isStreamService service && hasAudioRole roles then
    some (.observeSignedWithHome michiId deviceId name service roles source michiHomeId
      membershipFingerprint)
  else none

variable {deriveMichiId} {answer : Except String ServerInfoBody} {expected : String}
  {info : VerifiedServerInfo}

end MichiServer.Connect
