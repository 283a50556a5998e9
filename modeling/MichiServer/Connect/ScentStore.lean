import Mathlib.Data.List.AList

/-!
# The presence store

`ScentStore` of `michi-connect`: what the server knows of the peers it hears. A peer is seen by its
signed Whisker announcements and by mDNS sightings, each with the instant it was last seen, and a
sighting is fresh for ninety seconds. The level of presence is derived from the two instants; the
flags `online` and `verified` are stored beside them and are written by the operations and by a
sweeper that runs every five seconds.

An operation returns the store it leaves and the events it sends.
-/

namespace MichiServer.Connect

/-- `std::time::Instant`, in nanoseconds on the server's monotonic clock. -/
abbrev Instant := ℕ

/-- `url::Url`, as the text it serialises to: only compared and passed on here. -/
abbrev Url := String

abbrev SocketAddr := String

def scentExpiryTimeout : ℕ := 90 * 1000000000

/-! ## Records -/

inductive ScentPresenceSource where
  | whiskerSigned
  | mdnsProvisional
deriving DecidableEq

structure VerifiedServerInfo where
  michiId : String
  deviceId : String
  name : String
  service : String
  roles : List String
deriving DecidableEq

structure ScentRecord where
  michiId : String
  deviceId : String
  name : String
  service : String
  roles : List String
  verified : Bool
  presenceSource : ScentPresenceSource
  endpoints : List SocketAddr
  baseUrl : Option Url
  lastSignedSeen : Option Instant
  lastMdnsSeen : Option Instant
  serverInfoVerifiedAt : Option Instant
  online : Bool
  michiHomeId : Option String
  membershipFingerprint : Option String

inductive EffectivePresence where
  | verifiedOnline
  | provisionalMdns
  | offline
deriving DecidableEq

/-- The test of a last sighting against the timeout. `duration_since` is zero for an instant that is
still to come. -/
def isFresh (seen : Option Instant) (now : Instant) : Bool :=
  seen.any fun t => now - t < scentExpiryTimeout

namespace ScentRecord

def isSignedFresh (r : ScentRecord) (now : Instant) : Bool := isFresh r.lastSignedSeen now

def isMdnsFresh (r : ScentRecord) (now : Instant) : Bool := isFresh r.lastMdnsSeen now

def effectivePresence (r : ScentRecord) (now : Instant) : EffectivePresence :=
  if r.isSignedFresh now then .verifiedOnline
  else if r.isMdnsFresh now then .provisionalMdns
  else .offline

end ScentRecord

inductive ScentEvent where
  | discovered (record : ScentRecord)
  | updated (record : ScentRecord)
  | endpointChanged (michiId : String) (old : Option Url) (new : Url)
      (presenceSource : ScentPresenceSource) (verified : Bool)
  | offline (michiId : String)

/-! ## The store -/

structure ScentStore where
  records : AList fun _ : String => ScentRecord

namespace ScentStore

def new : ScentStore := ⟨∅⟩

def get (s : ScentStore) (michiId : String) : Option ScentRecord := s.records.lookup michiId

def set (s : ScentStore) (michiId : String) (record : ScentRecord) : ScentStore :=
  ⟨s.records.insert michiId record⟩

def list (s : ScentStore) : List ScentRecord := s.records.entries.map Sigma.snd

def listActiveAt (s : ScentStore) («at» : Instant) : List ScentRecord :=
  s.list.filter fun r => r.effectivePresence «at» ≠ .offline

def listSignedVerifiedAt (s : ScentStore) («at» : Instant) : List ScentRecord :=
  s.list.filter fun r => r.effectivePresence «at» = .verifiedOnline

def withSource (endpoints : List SocketAddr) : Option SocketAddr → List SocketAddr
  | some src => if src ∈ endpoints then endpoints else endpoints ++ [src]
  | none => endpoints

def observeSignedWithHome (s : ScentStore) (michiId deviceId name service : String)
    (roles : List String) (source : Option SocketAddr) (now : Instant)
    (michiHomeId membershipFingerprint : Option String) : ScentStore × List ScentEvent :=
  match s.get michiId with
  | some old =>
    let record := { old with
      lastSignedSeen := some now
      presenceSource := .whiskerSigned
      online := true
      verified := true
      deviceId, name, service, roles, michiHomeId, membershipFingerprint
      endpoints := withSource old.endpoints source }
    (s.set michiId record, if old.online then [.updated record] else [.discovered record])
  | none =>
    let record : ScentRecord := {
      michiId, deviceId, name, service, roles
      verified := true
      presenceSource := .whiskerSigned
      endpoints := withSource [] source
      baseUrl := none
      lastSignedSeen := some now
      lastMdnsSeen := none
      serverInfoVerifiedAt := none
      online := true
      michiHomeId, membershipFingerprint }
    (s.set michiId record, [.discovered record])

def observeSigned (s : ScentStore) (michiId deviceId name service : String)
    (roles : List String) (source : Option SocketAddr) (now : Instant) :
    ScentStore × List ScentEvent :=
  s.observeSignedWithHome michiId deviceId name service roles source now none none

/-- What an mDNS sighting makes of a record that is there. With a stale announcement the record is
provisional again and takes what the sighting says of the peer. -/
def sighted (old : ScentRecord) (info : VerifiedServerInfo) (baseUrl : Url)
    (source : Option SocketAddr) (now : Instant) : ScentRecord :=
  let record := { old with
    lastMdnsSeen := some now
    serverInfoVerifiedAt := some now
    online := true }
  let record :=
    if record.isSignedFresh now then
      { record with presenceSource := .whiskerSigned, verified := true }
    else
      { record with
        presenceSource := .mdnsProvisional
        verified := false
        deviceId := info.deviceId
        name := info.name
        service := info.service
        roles := info.roles }
  { record with endpoints := withSource record.endpoints source, baseUrl := some baseUrl }

def observeMdnsCandidate (s : ScentStore) (info : VerifiedServerInfo) (baseUrl : Url)
    (source : Option SocketAddr) (now : Instant) : ScentStore × List ScentEvent :=
  match s.get info.michiId with
  | some old =>
    let record := sighted old info baseUrl source now
    let event :=
      if !old.online then ScentEvent.discovered record
      else if old.baseUrl ≠ some baseUrl then
        .endpointChanged info.michiId old.baseUrl baseUrl record.presenceSource record.verified
      else .updated record
    (s.set info.michiId record, [event])
  | none =>
    let record : ScentRecord := {
      michiId := info.michiId
      deviceId := info.deviceId
      name := info.name
      service := info.service
      roles := info.roles
      verified := false
      presenceSource := .mdnsProvisional
      endpoints := withSource [] source
      baseUrl := some baseUrl
      lastSignedSeen := none
      lastMdnsSeen := some now
      serverInfoVerifiedAt := some now
      online := true
      michiHomeId := none
      membershipFingerprint := none }
    (s.set info.michiId record, [.discovered record])

/-- What a base URL update makes of a record. It refreshes the mDNS sighting and leaves `online` as
it is. -/
def rebased (old : ScentRecord) (newUrl : Url) (sourceEndpoint : Option SocketAddr)
    (now : Instant) : ScentRecord :=
  let record := { old with lastMdnsSeen := some now }
  let record :=
    if record.isSignedFresh now then record
    else { record with presenceSource := .mdnsProvisional, verified := false }
  { record with
    endpoints := withSource record.endpoints sourceEndpoint, baseUrl := some newUrl }

def updateBaseUrl (s : ScentStore) (michiId : String) (newUrl : Url)
    (sourceEndpoint : Option SocketAddr) (now : Instant) : ScentStore × List ScentEvent :=
  match s.get michiId with
  | some old =>
    let record := rebased old newUrl sourceEndpoint now
    let events :=
      if old.baseUrl ≠ some newUrl then
        [ScentEvent.endpointChanged michiId old.baseUrl newUrl record.presenceSource
          record.verified]
      else []
    (s.set michiId record, events)
  | none => (s, [])

def markServerInfoVerified (s : ScentStore) (michiId : String) (now : Instant) : ScentStore :=
  match s.get michiId with
  | some record => s.set michiId { record with serverInfoVerifiedAt := some now }
  | none => s

/-! ## The sweep -/

/-- What a sweep makes of a record and the event it sends. A record that is offline is skipped. -/
def expire (michiId : String) (record : ScentRecord) (now : Instant) :
    ScentRecord × Option ScentEvent :=
  if !record.online then (record, none)
  else
    match record.effectivePresence now with
    | .verifiedOnline => (record, none)
    | .provisionalMdns =>
      if record.presenceSource ≠ .mdnsProvisional ∨ record.verified then
        let record := { record with
          presenceSource := .mdnsProvisional
          verified := false
          online := true }
        (record, some (.updated record))
      else (record, none)
    | .offline =>
      ({ record with online := false, verified := false }, some (.offline michiId))

def expiredRecords (s : ScentStore) (now : Instant) : AList fun _ : String => ScentRecord where
  entries := s.records.entries.map (.map id fun x r => (expire x r now).1)
  nodupKeys := by
    have hkeys : (s.records.entries.map (.map id fun x r => (expire x r now).1) :
        List ((_ : String) × ScentRecord)).keys = s.records.entries.keys := by
      rw [List.keys, List.map_map]
      rfl
    rw [List.NodupKeys, hkeys]
    exact s.records.nodupKeys

def checkExpirations (s : ScentStore) (now : Instant) : ScentStore × List ScentEvent :=
  (⟨s.expiredRecords now⟩, s.records.entries.filterMap fun e => (expire e.1 e.2 now).2)

/-! ## What an operation leaves under an id -/

@[simp] theorem get_new (x : String) : new.get x = none := AList.lookup_empty x

@[simp] theorem get_set_self (s : ScentStore) (x : String) (r : ScentRecord) :
    (s.set x r).get x = some r :=
  AList.lookup_insert s.records

theorem get_set_ne (s : ScentStore) {x y : String} (h : x ≠ y) (r : ScentRecord) :
    (s.set y r).get x = s.get x :=
  AList.lookup_insert_ne h

theorem mem_list {s : ScentStore} {r : ScentRecord} : r ∈ s.list ↔ ∃ x, s.get x = some r := by
  simp only [list, get, List.mem_map]
  constructor
  · rintro ⟨⟨x, r⟩, hmem, rfl⟩
    exact ⟨x, AList.mem_lookup_iff.mpr hmem⟩
  · rintro ⟨x, hx⟩
    exact ⟨⟨x, r⟩, AList.mem_lookup_iff.mp hx, rfl⟩

theorem get_checkExpirations (s : ScentStore) (now : Instant) (x : String) :
    (s.checkExpirations now).1.get x = (s.get x).map fun r => (expire x r now).1 :=
  List.dlookup_map₂ x

theorem get_observeSignedWithHome (s : ScentStore) (x deviceId name service : String)
    (roles : List String) (source : Option SocketAddr) (now : Instant)
    (home fingerprint : Option String) :
    ∃ r, (s.observeSignedWithHome x deviceId name service roles source now home
        fingerprint).1.get x = some r ∧
      r.online = true ∧ r.verified = true ∧ r.lastSignedSeen = some now := by
  unfold observeSignedWithHome
  split
  · exact ⟨_, get_set_self .., rfl, rfl, rfl⟩
  · exact ⟨_, get_set_self .., rfl, rfl, rfl⟩

theorem get_observeSignedWithHome_ne (s : ScentStore) {x y : String} (h : x ≠ y)
    (deviceId name service : String) (roles : List String) (source : Option SocketAddr)
    (now : Instant) (home fingerprint : Option String) :
    (s.observeSignedWithHome y deviceId name service roles source now home
      fingerprint).1.get x = s.get x := by
  grind [observeSignedWithHome, get_set_ne]

@[simp] theorem sighted_lastSignedSeen (old : ScentRecord) (info : VerifiedServerInfo)
    (baseUrl : Url) (source : Option SocketAddr) (now : Instant) :
    (sighted old info baseUrl source now).lastSignedSeen = old.lastSignedSeen := by
  simp only [sighted]
  split <;> rfl

@[simp] theorem sighted_lastMdnsSeen (old : ScentRecord) (info : VerifiedServerInfo)
    (baseUrl : Url) (source : Option SocketAddr) (now : Instant) :
    (sighted old info baseUrl source now).lastMdnsSeen = some now := by
  simp only [sighted]
  split <;> rfl

@[simp] theorem sighted_online (old : ScentRecord) (info : VerifiedServerInfo)
    (baseUrl : Url) (source : Option SocketAddr) (now : Instant) :
    (sighted old info baseUrl source now).online = true := by
  simp only [sighted]
  split <;> rfl

theorem sighted_verified (old : ScentRecord) (info : VerifiedServerInfo)
    (baseUrl : Url) (source : Option SocketAddr) (now : Instant) :
    (sighted old info baseUrl source now).verified = old.isSignedFresh now := by
  simp only [sighted]
  split
  · next h => exact h.symm
  · next h => exact (Bool.eq_false_iff.mpr h).symm

theorem get_observeMdnsCandidate (s : ScentStore) (info : VerifiedServerInfo) (baseUrl : Url)
    (source : Option SocketAddr) (now : Instant) :
    (∃ old, s.get info.michiId = some old ∧
      (s.observeMdnsCandidate info baseUrl source now).1.get info.michiId =
        some (sighted old info baseUrl source now)) ∨
    (s.get info.michiId = none ∧
      ∃ r, (s.observeMdnsCandidate info baseUrl source now).1.get info.michiId = some r ∧
        r.online = true ∧ r.verified = false ∧ r.lastSignedSeen = none ∧
        r.lastMdnsSeen = some now) := by
  unfold observeMdnsCandidate
  split
  · next old hget => exact .inl ⟨old, hget, get_set_self ..⟩
  · next hget => exact .inr ⟨hget, _, get_set_self .., rfl, rfl, rfl, rfl⟩

theorem get_observeMdnsCandidate_ne (s : ScentStore) {x : String} {info : VerifiedServerInfo}
    (h : x ≠ info.michiId) (baseUrl : Url) (source : Option SocketAddr) (now : Instant) :
    (s.observeMdnsCandidate info baseUrl source now).1.get x = s.get x := by
  grind [observeMdnsCandidate, get_set_ne]

@[simp] theorem rebased_lastSignedSeen (old : ScentRecord) (newUrl : Url)
    (source : Option SocketAddr) (now : Instant) :
    (rebased old newUrl source now).lastSignedSeen = old.lastSignedSeen := by
  simp only [rebased]
  split <;> rfl

@[simp] theorem rebased_lastMdnsSeen (old : ScentRecord) (newUrl : Url)
    (source : Option SocketAddr) (now : Instant) :
    (rebased old newUrl source now).lastMdnsSeen = some now := by
  simp only [rebased]
  split <;> rfl

@[simp] theorem rebased_online (old : ScentRecord) (newUrl : Url)
    (source : Option SocketAddr) (now : Instant) :
    (rebased old newUrl source now).online = old.online := by
  simp only [rebased]
  split <;> rfl

theorem rebased_verified (old : ScentRecord) (newUrl : Url)
    (source : Option SocketAddr) (now : Instant) :
    (rebased old newUrl source now).verified = (old.isSignedFresh now && old.verified) := by
  simp only [rebased]
  split
  · next h =>
    have hfresh : old.isSignedFresh now = true := h
    rw [hfresh, Bool.true_and]
  · next h =>
    have hstale : old.isSignedFresh now = false := Bool.eq_false_iff.mpr h
    rw [hstale, Bool.false_and]

theorem get_updateBaseUrl (s : ScentStore) (x : String) (newUrl : Url)
    (source : Option SocketAddr) (now : Instant) :
    (s.updateBaseUrl x newUrl source now).1.get x =
      (s.get x).map fun old => rebased old newUrl source now := by
  grind [updateBaseUrl, get_set_self]

theorem get_updateBaseUrl_ne (s : ScentStore) {x y : String} (h : x ≠ y) (newUrl : Url)
    (source : Option SocketAddr) (now : Instant) :
    (s.updateBaseUrl y newUrl source now).1.get x = s.get x := by
  unfold updateBaseUrl
  split
  · exact get_set_ne s h _
  · rfl

theorem get_markServerInfoVerified (s : ScentStore) (x : String) (now : Instant) :
    (s.markServerInfoVerified x now).get x =
      (s.get x).map fun r => { r with serverInfoVerifiedAt := some now } := by
  grind [markServerInfoVerified, get_set_self]

theorem get_markServerInfoVerified_ne (s : ScentStore) {x y : String} (h : x ≠ y)
    (now : Instant) : (s.markServerInfoVerified y now).get x = s.get x := by
  unfold markServerInfoVerified
  split
  · exact get_set_ne s h _
  · rfl

end ScentStore

end MichiServer.Connect
