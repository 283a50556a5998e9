import MichiServer.Ingest.Fetch

/-!
# Whose request it is

`resolve_client_ip` takes the address of the TCP peer, unless the peer is a trusted proxy: then it is
the nearest hop of `X-Forwarded-For` that is no trusted proxy, or `X-Real-IP` where there is none. A
hop that cannot be read ends the search without an address.
-/

namespace MichiServer.Network

open MichiServer.Ingest MichiServer.Text

structure Config where
  remoteSync : Bool := false
  maxRemoteBitrate : ℕ := 0
  trustProxy : Bool := false
  trustedProxies : List IpAddr := []
deriving DecidableEq

def Config.isTrustedProxy (config : Config) (peerIp : IpAddr) : Bool :=
  if !config.trustProxy then false else config.trustedProxies.contains peerIp

/-- The headers of a request, in their order; the names are in lower case. -/
abbrev HeaderMap := List (String × List UInt8)

def HeaderMap.get (headers : HeaderMap) (name : String) : Option (List UInt8) :=
  (headers.find? fun h => h.1 = name).map Prod.snd

def toStr (value : List UInt8) : Option String :=
  if value.all fun b => (0x20 ≤ b && b < 0x7F) || b == 0x09 then
    some (String.ofList (value.map fun b => Char.ofNat b.toNat))
  else none

def headerText (headers : HeaderMap) (name : String) : Option String := (headers.get name).bind toStr

def hops (forwardedHeader : String) : List String :=
  ((forwardedHeader.toList.splitOn ',').map fun token => trim (String.ofList token)).reverse

section

variable (parse : String → Option IpAddr) (config : Config)

/-- The walk along the hops: no address, the end of the hops, or the first that is no trusted proxy. -/
def forwarded : List String → Option (Option IpAddr)
  | [] => some none
  | token :: rest =>
    if token.isEmpty then none
    else
      match parse token with
      | some ip => if config.isTrustedProxy ip then forwarded rest else some (some ip)
      | none => none

def resolveClientIp (connectInfo : Option SocketAddr) (headers : HeaderMap) : Option IpAddr := do
  let peerAddr ← connectInfo
  if config.isTrustedProxy peerAddr.ip then
    let resolved ← match headerText headers "x-forwarded-for" with
      | some forwardedHeader => forwarded parse config (hops forwardedHeader)
      | none => some none
    match resolved with
    | some ip => some ip
    | none => (headerText headers "x-real-ip").bind fun realIp => parse (trim realIp)
  else some peerAddr.ip

def extractClientIp (connectInfo : Option SocketAddr) (headers : HeaderMap) : String :=
  ((resolveClientIp parse config connectInfo headers).map IpAddr.display).getD "127.0.0.1"

def trustedHop (token : String) : Bool :=
  !token.isEmpty && (parse token).any config.isTrustedProxy

/-- The client of a request: the peer; behind a trusted proxy the nearest hop that is none, or the real
address where every hop is one. -/
def clientAddress (peer : SocketAddr) (headers : HeaderMap) : Option IpAddr :=
  if config.isTrustedProxy peer.ip then
    match (((headerText headers "x-forwarded-for").map hops).getD []).dropWhile
        (trustedHop parse config) with
    | token :: _ => if token.isEmpty then none else parse token
    | [] => (headerText headers "x-real-ip").bind fun realIp => parse (trim realIp)
  else some peer.ip

theorem forwarded_eq (tokens : List String) :
    forwarded parse config tokens =
      match tokens.dropWhile (trustedHop parse config) with
      | token :: _ => if token.isEmpty then none else (parse token).map some
      | [] => some none := by
  induction tokens with
  | nil => rfl
  | cons token rest ih =>
    rw [forwarded, List.dropWhile_cons]
    grind [trustedHop]

theorem resolveClientIp_eq (peer : SocketAddr) (headers : HeaderMap) :
    resolveClientIp parse config (some peer) headers = clientAddress parse config peer headers := by
  simp only [resolveClientIp, clientAddress, Option.bind_eq_bind, Option.bind_some]
  split
  next _ =>
    cases headerText headers "x-forwarded-for" with
    | none => rfl
    | some forwardedHeader =>
      grind [forwarded_eq, hops, trustedHop]
  next _ => rfl

end

/-!
## The network policies

`enforce_sync_network_policy` stands before the sync routes, and `lan_policy_handler` tells a client
which profile it has. The first lets a request through when no address of its client could be
established; the second takes such a client for the server itself.
-/

open MichiServer.Queue

section

variable (parse : String → Option IpAddr) (config : Config)

/-- `enforce_sync_network_policy`: the refusal, if the request goes no further. -/
def enforceSyncNetworkPolicy (connectInfo : Option SocketAddr) (headers : HeaderMap) :
    Option ApiError :=
  if !config.remoteSync then
    match resolveClientIp parse config connectInfo headers with
    | some ip =>
      if !isLocalOrPrivateIp ip then
        some (v1Error 403 "FORBIDDEN" "Remote sync is disabled on this server")
      else none
    -- taken for a request that came over no socket
    | none => none
  else none

structure LanPolicy where
  profile : String
  maxBitrate : Option ℕ
  allowSync : Bool
  allowStream : Bool
  clientIp : String

def lanPolicyHandler (disabledModules : List String) (connectInfo : Option SocketAddr)
    (headers : HeaderMap) : LanPolicy :=
  let resolvedIpStr := extractClientIp parse config connectInfo headers
  let isLan := isLanIp resolvedIpStr
  { profile := if isLan then "lan" else "remote"
    maxBitrate :=
      if isLan then none
      else if config.maxRemoteBitrate > 0 then some config.maxRemoteBitrate
      else some 128000
    allowSync := !disabledModules.contains "sync" && (isLan || config.remoteSync)
    allowStream := !disabledModules.contains "stream"
    clientIp := resolvedIpStr }

/-- Remote sync is off for the request of a peer: it goes on only from an established address that is
local or private, and has the lan profile only from one in a loopback or private range. -/
def StaysOff (disabledModules : List String) (peer : SocketAddr) (headers : HeaderMap) : Prop :=
  (enforceSyncNetworkPolicy parse config (some peer) headers = none →
    ∃ ip, resolveClientIp parse config (some peer) headers = some ip ∧
      isLocalOrPrivateIp ip = true) ∧
  ((lanPolicyHandler parse config disabledModules (some peer) headers).profile = "lan" →
    ∃ ip, resolveClientIp parse config (some peer) headers = some ip ∧
      isLoopbackOrPrivate ip = true)

theorem isLanIp_agrees_iff (ip : IpAddr) :
    (isLanIp ip.display = true → isLoopbackOrPrivate ip = true) ↔
      ∀ a, ip = .v6 a → ¬ Misread a := by
  cases ip with
  | v4 a =>
    refine iff_of_true (fun h => ?_) (fun b h => nomatch h)
    rw [← isLanIp_v4]
    exact h
  | v6 a =>
    constructor
    · intro h b heq hmisread
      cases heq
      obtain ⟨hlan, hfar⟩ := (misread_iff a).mpr hmisread
      rw [h hlan] at hfar
      cases hfar
    · intro h hlan
      by_contra hfar
      rw [Bool.not_eq_true] at hfar
      exact h a rfl ((misread_iff a).mp ⟨hlan, hfar⟩)

theorem profile_eq_lan_iff {disabledModules : List String} {connectInfo : Option SocketAddr}
    {headers : HeaderMap} :
    (lanPolicyHandler parse config disabledModules connectInfo headers).profile = "lan" ↔
      isLanIp (extractClientIp parse config connectInfo headers) = true := by
  simp [lanPolicyHandler]

/-- Remote sync stays off for a request exactly when the request names the address of its client, and
that address is none that is misread. -/
theorem stays_off_iff (disabledModules : List String) (hoff : config.remoteSync = false)
    (peer : SocketAddr) (headers : HeaderMap) :
    StaysOff parse config disabledModules peer headers ↔
      ∃ ip, clientAddress parse config peer headers = some ip ∧ ∀ a, ip = .v6 a → ¬ Misread a := by
  have hresolved := resolveClientIp_eq parse config peer headers
  rw [StaysOff, profile_eq_lan_iff, enforceSyncNetworkPolicy, extractClientIp, hresolved, hoff]
  cases clientAddress parse config peer headers with
  | none => simp
  | some ip =>
    simp [← isLanIp_agrees_iff ip]

end

/-- `IpAddr::from_str`, of the addresses that the requests below name. -/
def parseNamed (s : String) : Option IpAddr :=
  if s = "10.0.0.2" then some (.v4 (.new 10 0 0 2))
  else if s = "127.0.0.1" then some (.v4 (.new 127 0 0 1))
  else if s = "203.0.113.9" then some (.v4 (.new 203 0 113 9))
  else if s = "192.168.1.20" then some (.v4 (.new 192 168 1 20))
  else none

def proxied : Config where
  trustProxy := true
  trustedProxies := [.v4 ⟨#v[10, 0, 0, 2]⟩]

/-- A request of a host in the local network, which came by the trusted proxy twice, stays under the
policy. -/
theorem stays_off_private :
    StaysOff parseNamed proxied [] ⟨.v4 ⟨#v[10, 0, 0, 2]⟩, 443⟩
      [("x-forwarded-for", "192.168.1.20, 10.0.0.2".toUTF8.toList)] :=
  (stays_off_iff parseNamed proxied [] rfl _ _).mpr
    ⟨.v4 ⟨#v[192, 168, 1, 20]⟩, by decide +kernel, fun _ h => by cases h⟩

/-- A request through the proxy whose forwarding header is missing goes through, and has the lan
profile, though its client is unknown; a peer at `fd::1` has the lan profile. -/
theorem remote_sync_let_through :
    ¬ StaysOff (fun _ => none) proxied [] ⟨.v4 ⟨#v[10, 0, 0, 2]⟩, 443⟩ [] ∧
      ¬ StaysOff (fun _ => none) {} [] ⟨.v6 ⟨#v[0xFD, 0, 0, 0, 0, 0, 0, 1]⟩, 443⟩ [] := by
  constructor
  · intro h
    obtain ⟨ip, hip, _⟩ := h.1 (by decide +kernel)
    cases hip
  · intro h
    obtain ⟨ip, hip, hnear⟩ := h.2 (by decide +kernel)
    cases hip
    exact absurd hnear (by decide +kernel)

end MichiServer.Network
