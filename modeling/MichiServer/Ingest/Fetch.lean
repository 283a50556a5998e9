import MichiServer.Queue.Routes
import MichiServer.Text.Str
import Mathlib.Tactic.IntervalCases

/-!
# Internet addresses and the blocked ranges

Addresses as the standard library has them, by octets and by segments, its tests for the special
ranges, and the ingest crate's test `is_private_or_link_local` over them.
-/

namespace MichiServer.Ingest

structure Ipv4Addr where
  octets : Vector UInt8 4
deriving DecidableEq

structure Ipv6Addr where
  segments : Vector UInt16 8
deriving DecidableEq

inductive IpAddr where
  | v4 (addr : Ipv4Addr)
  | v6 (addr : Ipv6Addr)
deriving DecidableEq

structure SocketAddr where
  ip : IpAddr
  port : ℕ

namespace Ipv4Addr

def new (a b c d : UInt8) : Ipv4Addr := ⟨#v[a, b, c, d]⟩

def isLoopback (a : Ipv4Addr) : Bool := a.octets[0] == 127

def isMulticast (a : Ipv4Addr) : Bool := a.octets[0] ≥ 224 && a.octets[0] ≤ 239

def isUnspecified (a : Ipv4Addr) : Bool := a.octets == #v[0, 0, 0, 0]

end Ipv4Addr

namespace Ipv6Addr

def new (a b c d e f g h : UInt16) : Ipv6Addr := ⟨#v[a, b, c, d, e, f, g, h]⟩

def isLoopback (a : Ipv6Addr) : Bool := a.segments == #v[0, 0, 0, 0, 0, 0, 0, 1]

def isMulticast (a : Ipv6Addr) : Bool := a.segments[0] &&& 0xFF00 == 0xFF00

def isUnspecified (a : Ipv6Addr) : Bool := a.segments == #v[0, 0, 0, 0, 0, 0, 0, 0]

end Ipv6Addr

namespace IpAddr

def isLoopback : IpAddr → Bool
  | v4 a => a.isLoopback
  | v6 a => a.isLoopback

def isMulticast : IpAddr → Bool
  | v4 a => a.isMulticast
  | v6 a => a.isMulticast

def isUnspecified : IpAddr → Bool
  | v4 a => a.isUnspecified
  | v6 a => a.isUnspecified

end IpAddr

/-! ## How an address is written -/

namespace Ipv4Addr

def display (a : Ipv4Addr) : String :=
  ".".intercalate (a.octets.toList.map fun o => toString o.toNat)

end Ipv4Addr

namespace Ipv6Addr

def displaySegments (segments : List UInt16) : String :=
  ":".intercalate (segments.map fun s => String.ofList (Nat.toDigits 16 s.toNat))

/-- Where the first longest run of zero segments starts, and its length. -/
def longestZeros (segments : List UInt16) : ℕ × ℕ :=
  (List.range segments.length).foldl (fun longest start =>
    let len := ((segments.drop start).takeWhile (· == 0)).length
    if len > longest.2 then (start, len) else longest) (0, 0)

/-- `Display`: a mapped address by its IPv4 address, any other with its longest run of two or more
zero segments left out. -/
def display (a : Ipv6Addr) : String :=
  let s := a.segments
  if s[0] == 0 && s[1] == 0 && s[2] == 0 && s[3] == 0 && s[4] == 0 && s[5] == 0xFFFF then
    let octets : Vector UInt8 4 :=
      #v[(s[6] >>> 8).toUInt8, s[6].toUInt8, (s[7] >>> 8).toUInt8, s[7].toUInt8]
    "::ffff:" ++ (Ipv4Addr.mk octets).display
  else
    let (start, len) := longestZeros s.toList
    if len > 1 then
      displaySegments (s.toList.take start) ++ "::" ++ displaySegments (s.toList.drop (start + len))
    else displaySegments s.toList

end Ipv6Addr

def IpAddr.display : IpAddr → String
  | .v4 a => a.display
  | .v6 a => a.display

/-! ## Blocked ranges -/

def isPrivateOrLinkLocal (ip : IpAddr) : Bool :=
  if ip.isLoopback || ip.isMulticast || ip.isUnspecified then true
  else
    match ip with
    | .v4 v4 =>
      let o := v4.octets
      (o[0] == 169 && o[1] == 254)
      || o[0] == 10
      || (o[0] == 172 && o[1] &&& 0xF0 == 16)
      || (o[0] == 192 && o[1] == 168)
    | .v6 v6 =>
      let s := v6.segments
      (s[0] == 0 && s[1] == 0 && s[2] == 0 && s[3] == 0 && s[4] == 0 && s[5] == 0 && s[6] == 0
        && s[7] == 1)
      || s[0] &&& 0xFFC0 == 0xFE80
      || s[0] &&& 0xFE00 == 0xFC00
      || s[0] &&& 0xFF00 == 0xFF00
      || (s[0] == 0 && s[1] == 0 && s[2] == 0 && s[3] == 0 && s[4] == 0 && s[5] == 0xFFFF)

/-!
## Fetching what a client names

The ingest crate's `validate_url_and_resolve`, `safe_fetch` and `sniff_stream`, and `ssrf_proxy_fetch`
of the API. Each goes in hops: a URL is parsed, its host is looked up, every address of the answer is
tested, a client is built that has the first address pinned for the host, and the request is sent;
a redirect starts the next hop from its `Location`.

What the network does is outside: the answer to a lookup, the reply to a request and whether a client
can be built may depend on everything that was asked and sent before. A computation keeps the record
of its lookups and requests. The `url` crate and the decoding of a body are parameters.
-/

open MichiServer.Logic MichiServer.Logic.Handler MichiServer.Text
open MichiServer.Queue (ApiError v1Error)

/-! ## The network -/

structure UrlCrate (Url : Type) where
  parse : String → Except String Url
  hostStr : Url → Option String
  portOrKnownDefault : Url → Option ℕ
  join : Url → String → Except String Url
  toString : Url → String

inductive Method where
  | head
  | get

/-- A request of a client: the method, the URL and its `Range` header. -/
structure Request where
  method : Method
  url : String
  range : Option String := none

structure HeaderValue where
  toStr : Option String

/-- A reply. Its body comes in chunks, until the end or until reading fails. -/
structure Response where
  status : ℕ
  headers : List (String × HeaderValue) := []
  chunks : List (Except String (List UInt8)) := []

def Response.isRedirection (r : Response) : Bool := 300 ≤ r.status && r.status < 400

def Response.isSuccess (r : Response) : Bool := 200 ≤ r.status && r.status < 300

def Response.header (r : Response) (name : String) : Option HeaderValue := r.headers.lookup name

def Response.headerStr (r : Response) (name : String) : Option String :=
  (r.header name).bind HeaderValue.toStr

/-- What a computation asked of the network: a lookup of `host:port` with its answer, or a request
with the address it went to. -/
inductive NetEvent where
  | lookup (name : String) (answer : Except String (List SocketAddr))
  | request (request : Request) (peer : SocketAddr)

/-- The network, and the crates that stand between it and the server. `stray` is where a client goes
for a host it has nothing pinned for. -/
structure Net (Url : Type) where
  url : UrlCrate Url
  toSocketAddrs : List NetEvent → String → Except String (List SocketAddr)
  build : List NetEvent → Except String Unit
  stray : List NetEvent → Url → SocketAddr
  reply : List NetEvent → Request → Except String Response
  decode : Response → List UInt8 → String
  displayStatus : ℕ → String

/-- A computation that uses the network, with the record of what it asked. -/
abbrev Fetch (ε α : Type) := Handler ε (List NetEvent) α

/-- `reqwest::Client`, with no redirects of its own and one address pinned for one host. -/
structure Client where
  host : String
  addr : SocketAddr

section

variable {Url ε : Type} (net : Net Url)

def resolve (name : String) (onError : String → ε) : Fetch ε (List SocketAddr) :=
  update fun log =>
    let answer := net.toSocketAddrs log name
    (log ++ [.lookup name answer], answer.mapError onError)

def Client.dial (client : Client) (log : List NetEvent) (url : Url) : SocketAddr :=
  if net.url.hostStr url = some client.host then client.addr else net.stray log url

def send (client : Client) (request : Request) (onError : String → ε) : Fetch ε Response :=
  update fun log =>
    match net.url.parse request.url with
    | .error e => (log, .error (onError e))
    | .ok url =>
      (log ++ [.request request (client.dial net log url)],
        (net.reply log request).mapError onError)

def build (host : String) (addr : SocketAddr) (onError : String → ε) : Fetch ε Client :=
  update fun log => (log, ((net.build log).mapError onError).map fun _ => ⟨host, addr⟩)

def Response.text (resp : Response) : String :=
  match resp.chunks.mapM id with
  | .ok chunks => net.decode resp chunks.flatten
  | .error _ => ""

/-! ## Validation -/

def checkAddrs (addrs : List SocketAddr) : Except String Unit :=
  match addrs.find? fun addr => isPrivateOrLinkLocal addr.ip with
  | some addr => .error s!"blocked address: {addr.ip.display}"
  | none => .ok ()

def addrStr (url : Url) : Option String :=
  (net.url.hostStr url).map fun host =>
    s!"{host}:{(net.url.portOrKnownDefault url).getD 80}"

def validateUrlAndResolve (urlStr : String) : Fetch String (Url × List SocketAddr) := do
  rejectIf (!startsWith urlStr "http://" && !startsWith urlStr "https://")
    "only http and https are allowed"
  let parsed ← MonadExcept.ofExcept ((net.url.parse urlStr).mapError fun e => s!"invalid URL: {e}")
  let addrStr ← require (addrStr net parsed) "URL has no host"
  let addrs ← resolve net addrStr fun e => s!"DNS resolution failed: {e}"
  rejectIf addrs.isEmpty "DNS resolution returned no addresses"
  MonadExcept.ofExcept (checkAddrs addrs)
  pure (parsed, addrs)

/-- The start of a hop: the URL validated, and a client that has its host pinned. The three fetchers
differ in how they word what goes wrong. -/
def openHop (urlStr noHost noAddrs : String) (buildError : String → String) :
    Fetch String (Url × Client) := do
  let (parsedUrl, addrs) ← validateUrlAndResolve net urlStr
  let host ← require (net.url.hostStr parsedUrl) noHost
  let firstAddr ← require addrs.head? noAddrs
  let client ← build net host firstAddr buildError
  pure (parsedUrl, client)

/-- The URL a redirect leads to: its `Location`, taken relative to the URL of the request. -/
def nextUrl (parsedUrl : Url) (resp : Response) (missing : String)
    (invalid : String → String → String) : Except String String :=
  match resp.headerStr "location" with
  | none => .error missing
  | some location =>
    match net.url.join parsedUrl location with
    | .error e => .error (invalid location e)
    | .ok url => .ok (net.url.toString url)

/-! ## `safe_fetch` -/

def readBody (maxBytes : ℕ) (body : List UInt8) :
    List (Except String (List UInt8)) → Except String (List UInt8)
  | [] => .ok body
  | .error e :: _ => .error s!"chunk read error: {e}"
  | .ok chunk :: rest =>
    if body.length + chunk.length > maxBytes then
      .error s!"FEED_TOO_LARGE: response body exceeded maximum limit of {maxBytes} bytes"
    else readBody maxBytes (body ++ chunk) rest

structure Fetched (Url : Type) where
  status : ℕ
  headers : List (String × HeaderValue)
  body : List UInt8
  url : Url

/-- The loop of `safe_fetch` from a hop on, with the number of hops left. -/
def safeFetchFrom (maxRedirects maxBytes : ℕ) : ℕ → ℕ → String → Fetch String (Fetched Url)
  | 0, _, _ => throw "too many redirects"
  | left + 1, hop, currentUrlStr => do
    let (parsedUrl, client) ← openHop net currentUrlStr "URL has no host"
      "DNS resolution returned no addresses" fun e => s!"client build failed: {e}"
    let resp ← send net client ⟨.get, currentUrlStr, none⟩ fun e => s!"request failed: {e}"
    if resp.isRedirection then do
      rejectIf (hop = maxRedirects) s!"too many redirects (max {maxRedirects})"
      let next ← MonadExcept.ofExcept (nextUrl net parsedUrl resp
        "redirect response missing Location header"
        fun location e => s!"invalid redirect Location '{location}': {e}")
      safeFetchFrom maxRedirects maxBytes left (hop + 1) next
    else do
      let body ← MonadExcept.ofExcept (readBody maxBytes [] resp.chunks)
      pure ⟨resp.status, resp.headers, body, parsedUrl⟩

def safeFetch (initialUrl : String) (maxRedirects maxBytes : ℕ) :
    Fetch String (Fetched Url) :=
  safeFetchFrom net maxRedirects maxBytes (maxRedirects + 1) 0 initialUrl

/-! ## `sniff_stream` -/

def codecFromMime (mime : String) : String :=
  if contains mime "mpeg" then "mp3"
  else if contains mime "aac" then "aac"
  else if contains mime "ogg" then "ogg"
  else if contains mime "opus" then "opus"
  else if contains mime "flac" then "flac"
  else if contains mime "wav" then "wav"
  else "unknown"

def extractRssTitle (body : String) : Option String := do
  let (_, rest) ← splitAtFirst "<title>".toList body.toList
  let (title, _) ← splitAtFirst "</title>".toList rest
  some (String.ofList title)

inductive StreamType where
  | radio
  | podcast
  | directFile
  | unknown

structure StreamInfo where
  url : String
  streamType : StreamType
  name : Option String := none
  genre : Option String := none
  description : Option String := none
  logoUrl : Option String := none
  codec : Option String := none
  sampleRate : Option ℕ := none

def isFeed (body : String) : Bool :=
  contains body "<rss" || contains body "<feed" || contains body "<channel>"

def podcast (url body : String) : StreamInfo :=
  { url, streamType := .podcast, name := extractRssTitle body }

/-- What the headers alone say of a stream: an audio type, from a radio or not. -/
def audioStream (url : String) (resp : Response) : Option StreamInfo :=
  let ct := (resp.headerStr "content-type").getD ""
  let icyName := ((resp.header "icy-name").or (resp.header "ice-name")).bind HeaderValue.toStr
  let icyGenre := resp.headerStr "icy-genre"
  if contains ct "audio/mpeg" || contains ct "audio/aac" || contains ct "audio/ogg" ||
      contains ct "audio/opus" then
    if icyName.isSome || (resp.header "icy-metaint").isSome ||
        (resp.header "ice-version").isSome then
      some {
        url
        streamType := .radio
        name := icyName
        genre := icyGenre
        codec := some (codecFromMime ct) }
    else some { url, streamType := .directFile, codec := some (codecFromMime ct) }
  else none

def hlsStream (url currentUrlStr : String) (resp : Response) : Option StreamInfo :=
  let ct := (resp.headerStr "content-type").getD ""
  let icyName := ((resp.header "icy-name").or (resp.header "ice-name")).bind HeaderValue.toStr
  if contains ct "mpegurl" || contains ct "apple" || endsWith currentUrlStr ".m3u8" then
    some {
      url
      streamType := .radio
      name := icyName.or (some "HLS Stream")
      genre := resp.headerStr "icy-genre"
      codec := some "hls" }
  else none

def mayBeFeed (currentUrlStr : String) (resp : Response) : Bool :=
  let ct := (resp.headerStr "content-type").getD ""
  contains ct "xml" || contains ct "rss" || contains ct "atom" ||
    endsWith currentUrlStr ".xml" || endsWith currentUrlStr ".rss"

def sniffFeed (url currentUrlStr : String) (client : Client) (resp : Response) :
    Fetch String (Option StreamInfo) :=
  if mayBeFeed currentUrlStr resp then do
    let bodyResp ← send net client ⟨.get, currentUrlStr, some "bytes=0-4095"⟩
      fun e => s!"get: {e}"
    let body := bodyResp.text net
    pure (if isFeed body then some (podcast url body) else none)
  else pure none

def sniffFallback (url currentUrlStr : String) (client : Client) : Fetch String StreamInfo := do
  let fallbackResp ← send net client ⟨.get, currentUrlStr, some "bytes=0-2047"⟩
    fun e => s!"fallback: {e}"
  let fbCt := (fallbackResp.headerStr "content-type").getD ""
  let fbBody := fallbackResp.text net
  pure <|
    if contains fbCt "audio/" then
      { url, streamType := .directFile, codec := some (codecFromMime fbCt) }
    else if isFeed fbBody then podcast url fbBody
    else { url, streamType := .unknown }

/-- The hop a redirect of the first reply leads to, or the first hop with its reply. -/
def sniffRedirect (url : String) (parsedUrl : Url) (client : Client) (r : Response) :
    Fetch String (String × Client × Response) :=
  if r.isRedirection then do
    let currentUrlStr ← MonadExcept.ofExcept (nextUrl net parsedUrl r
      "redirect has no Location header" fun _ e => s!"invalid redirect Location: {e}")
    let (_, nextClient) ← openHop net currentUrlStr "redirect URL has no host"
      "redirect DNS returned no addresses" fun e => s!"redirect client: {e}"
    let redResp ← send net nextClient ⟨.head, currentUrlStr, none⟩ fun e => s!"redirect head: {e}"
    pure (currentUrlStr, nextClient, redResp)
  else pure (url, client, r)

def sniffStream (url : String) : Fetch String StreamInfo := do
  let (parsedUrl, client) ← openHop net url "URL has no host"
    "DNS resolution returned no addresses" fun e => s!"client: {e}"
  let r ← send net client ⟨.head, url, none⟩ fun e => s!"head: {e}"
  let (currentUrlStr, client, resp) ← sniffRedirect net url parsedUrl client r
  match audioStream url resp with
  | some info => pure info
  | none => do
    match ← sniffFeed net url currentUrlStr client resp with
    | some info => pure info
    | none =>
      match hlsStream url currentUrlStr resp with
      | some info => pure info
      | none => sniffFallback net url currentUrlStr client

/-! ## `ssrf_proxy_fetch` -/

def maxHops : ℕ := 5

/-- The response of the proxy: the upstream body is passed on as it comes. -/
structure ProxyResponse where
  status : ℕ
  headers : List (String × String)
  stream : List (Except String (List UInt8))

def proxyResponse (hop : ℕ) (resp : Response) : Except ApiError ProxyResponse :=
  if resp.isSuccess then
    let contentType := (resp.headerStr "content-type").getD ""
    if contains contentType "text/html" || contains contentType "application/xhtml" then
      .error (v1Error 502 "PROXY_BLOCKED" "stream returned HTML, possible SSRF redirect")
    else .ok {
      status := resp.status
      headers := (if contentType ≠ "" then [("content-type", contentType)] else []) ++
        [("Access-Control-Allow-Origin", "*"),
          ("Access-Control-Allow-Methods", "GET, OPTIONS"),
          ("Access-Control-Allow-Headers", "Range, Content-Type")]
      stream := resp.chunks }
  else
    let status := net.displayStatus resp.status
    .error (v1Error 502 "PROXY_ERROR" s!"upstream returned status {status} at hop {hop}")

def openProxyHop (hop : ℕ) (currentUrl : String) : Fetch ApiError (Url × Client) := do
  let (parsedUrl, addrs) ← (validateUrlAndResolve net currentUrl).adapt
    fun e => v1Error 400 "SSRF_BLOCKED" s!"hop {hop}: {e}"
  let host ← require (net.url.hostStr parsedUrl) (v1Error 400 "SSRF_BLOCKED" "URL has no host")
  let firstAddr ← require addrs.head?
    (v1Error 400 "SSRF_BLOCKED" "DNS resolution returned no addresses")
  let client ← build net host firstAddr fun e => v1Error 500 "CLIENT_ERROR" e
  pure (parsedUrl, client)

/-- The loop of `ssrf_proxy_fetch` from a hop on, with the number of hops left. -/
def ssrfProxyFetchFrom : ℕ → ℕ → String → Fetch ApiError ProxyResponse
  | 0, _, _ => throw (v1Error 502 "TOO_MANY_REDIRECTS" s!"exceeded {maxHops} redirect hops")
  | left + 1, hop, currentUrl => do
    let (parsedUrl, client) ← openProxyHop net hop currentUrl
    let resp ← send net client ⟨.get, currentUrl, none⟩
      fun e => v1Error 502 "PROXY_ERROR" s!"hop {hop}: {e}"
    if resp.isRedirection then do
      let next ← MonadExcept.ofExcept ((nextUrl net parsedUrl resp
        "redirect response has no Location header" fun _ e => s!"invalid Location: {e}").mapError
          fun text => v1Error 502 "REDIRECT_ERROR" text)
      ssrfProxyFetchFrom left (hop + 1) next
    else MonadExcept.ofExcept (proxyResponse net hop resp)

def ssrfProxyFetch (initialUrl : String) : Fetch ApiError ProxyResponse :=
  ssrfProxyFetchFrom net maxHops 0 initialUrl

end

end MichiServer.Ingest

/-!
## Which addresses are near

Two tests of an address: `is_local_or_private_ip` looks at its octets and segments, `is_lan_ip` at the
text it is written as. On IPv4 addresses the second accepts the loopback and private ones; on IPv6
addresses it also accepts some whose text only begins as one of those does.
-/

namespace MichiServer.Network

open MichiServer.Ingest MichiServer.Text

/-! ## By octets and segments -/

def isPrivate (a : Ipv4Addr) : Bool :=
  a.octets[0] == 10 || (a.octets[0] == 172 && (a.octets[1] ≥ 16 && a.octets[1] ≤ 31)) ||
    (a.octets[0] == 192 && a.octets[1] == 168)

def isLinkLocal (a : Ipv4Addr) : Bool := a.octets[0] == 169 && a.octets[1] == 254

def isUnicastLinkLocal (a : Ipv6Addr) : Bool := a.segments[0] &&& 0xFFC0 == 0xFE80

def isUniqueLocal (a : Ipv6Addr) : Bool := a.segments[0] &&& 0xFE00 == 0xFC00

def isLocalOrPrivateIp : IpAddr → Bool
  | .v4 v4 =>
    v4.isLoopback || isPrivate v4 || isLinkLocal v4 || v4.octets[0] == 10 ||
      (v4.octets[0] == 172 && (v4.octets[1] ≥ 16 && v4.octets[1] ≤ 31)) ||
      (v4.octets[0] == 192 && v4.octets[1] == 168)
  | .v6 v6 => v6.isLoopback || isUnicastLinkLocal v6 || isUniqueLocal v6

def isLoopbackOrPrivate : IpAddr → Bool
  | .v4 v4 => v4.isLoopback || isPrivate v4
  | .v6 v6 => v6.isLoopback || isUniqueLocal v6

/-! ## By text -/

def lanIpRanges : List String :=
  ["10.", "192.168.", "172.16.", "172.17.", "172.18.", "172.19.", "172.20.", "172.21.", "172.22.",
    "172.23.", "172.24.", "172.25.", "172.26.", "172.27.", "172.28.", "172.29.", "172.30.",
    "172.31.", "127.", "::1", "fd"]

def isLanIp (ip : String) : Bool := lanIpRanges.any fun r => startsWith ip r

/-- The text of a number begins with the digit 1, in hexadecimal and up to four digits. -/
def LeadingOne (n : ℕ) : Prop := n = 1 ∨ n / 16 = 1 ∨ n / 256 = 1 ∨ n / 4096 = 1

/-- The text of the address begins as that of a near one, and the address is not one: its first segment
is `fd` or one of `fd0` to `fdf`, or the zeros left out at its start are followed by a digit 1. -/
def Misread (a : Ipv6Addr) : Prop :=
  a.segments[0].toNat = 0xFD ∨ a.segments[0].toNat / 16 = 0xFD ∨
    ∃ len seg, Ipv6Addr.longestZeros a.segments.toList = (0, len) ∧ 1 < len ∧
      a.segments.toList[len]? = some seg ∧ LeadingOne seg.toNat ∧ a.isLoopback = false

/-! ## Prefixes of texts -/

section

variable {d e p rest : List Char}

theorem prefix_before {c : Char} (hp : c ∉ p) (hrest : rest = [] ∨ ∃ t, rest = c :: t) :
    p <+: e ++ rest ↔ p <+: e := by
  induction p generalizing e with
  | nil => simp
  | cons x p ih =>
    rw [List.mem_cons, not_or] at hp
    cases e with
    | nil =>
      grind
    | cons y e => simp only [List.cons_append, List.cons_prefix_cons, ih hp.2]

theorem prefix_separated {c : Char} (hd : c ∉ d) (he : c ∉ e) :
    d ++ c :: p <+: e ++ c :: rest ↔ d = e ∧ p <+: rest := by
  induction d generalizing e with
  | nil =>
    cases e with
    | nil => simp [List.cons_prefix_cons]
    | cons y e =>
      grind
  | cons x d ih =>
    rw [List.mem_cons, not_or] at hd
    cases e with
    | nil => simp [List.cons_prefix_cons, Ne.symm hd.1]
    | cons y e =>
      grind

theorem startsWith_iff {s pat : String} : startsWith s pat = true ↔ pat.toList <+: s.toList := by
  rw [startsWith, List.isPrefixOf_iff_prefix]

end

/-! ## IPv4 -/

def octetText (n : ℕ) : List Char := (toString n).toList

variable {n : ℕ} {c : Char}

theorem digit_of_octetText (h : c ∈ octetText n) : c.isDigit = true :=
  Text.isDigit_of_mem_toString h

theorem not_mem_octetText (hc : c.isDigit = false) (n : ℕ) : c ∉ octetText n := by
  intro h
  rw [digit_of_octetText h] at hc
  cases hc

theorem octetText_inj {m n : ℕ} : octetText m = octetText n ↔ m = n := Text.toString_inj

theorem display_v4 (a : Ipv4Addr) :
    a.display.toList = octetText a.octets[0].toNat ++ '.' :: (octetText a.octets[1].toNat ++
      '.' :: (octetText a.octets[2].toNat ++ '.' :: octetText a.octets[3].toNat)) := by
  have hlist : a.octets.toList = [a.octets[0], a.octets[1], a.octets[2], a.octets[3]] := by
    apply List.ext_getElem
    · simp
    · intro i hi _
      have : i < 4 := by simpa using hi
      interval_cases i <;> rfl
  rw [Ipv4Addr.display, String.toList_intercalate, hlist]
  simp [List.intercalate, octetText]

theorem lan_ranges_eq : lanIpRanges.map String.toList =
    [octetText 10 ++ '.' :: []] ++
      ((192, 168) :: (List.range 16).map fun i => (172, 16 + i)).map
        (fun o => octetText o.1 ++ '.' :: (octetText o.2 ++ '.' :: [])) ++
      [octetText 127 ++ '.' :: []] ++ [[':', ':', '1'], ['f', 'd']] := by
  decide +kernel

theorem isLanIp_iff {ip : String} :
    isLanIp ip = true ↔ ∃ r ∈ lanIpRanges.map String.toList, r <+: ip.toList := by
  simp [isLanIp, startsWith_iff]

theorem octet_prefix {a : Ipv4Addr} :
    octetText n ++ '.' :: [] <+: a.display.toList ↔ a.octets[0].toNat = n := by
  grind [display_v4, prefix_separated, not_mem_octetText, octetText_inj]

theorem octets_prefix {a : Ipv4Addr} {m n : ℕ} :
    octetText m ++ '.' :: (octetText n ++ '.' :: []) <+: a.display.toList ↔
      a.octets[0].toNat = m ∧ a.octets[1].toNat = n := by
  rw [display_v4, prefix_separated (not_mem_octetText rfl _) (not_mem_octetText rfl _),
    prefix_separated (not_mem_octetText rfl _) (not_mem_octetText rfl _), octetText_inj,
    octetText_inj]
  simp [eq_comm]

/-- For an address of version 4 the text says what the bits say. -/
theorem isLanIp_v4 (a : Ipv4Addr) : isLanIp a.display = isLoopbackOrPrivate (.v4 a) := by
  have hnot : ∀ {c : Char} {p : List Char}, c.isDigit = false → ¬ c :: p <+: a.display.toList := by
    intro c p hc hstarts
    rw [display_v4] at hstarts
    cases htext : octetText a.octets[0].toNat with
    | nil =>
      rw [octetText, Nat.toString_eq_ofList_toDigits, String.toList_ofList] at htext
      exact absurd htext Nat.toDigits_ne_nil
    | cons x t =>
      grind [digit_of_octetText]
  have hcolon : ¬ [':', ':', '1'] <+: a.display.toList := hnot (by decide)
  have hletter : ¬ ['f', 'd'] <+: a.display.toList := hnot (by decide)
  rw [Bool.eq_iff_iff, isLanIp_iff, lan_ranges_eq]
  simp only [List.mem_append, List.mem_map, List.mem_cons, List.mem_range, List.not_mem_nil, or_false,
    or_and_right, exists_or, exists_eq_left, octet_prefix, or_assoc, exists_exists_and_eq_and,
    octets_prefix, hcolon, hletter, exists_eq_left']
  have hsixteen : (∃ i < 16, a.octets[0].toNat = 172 ∧ a.octets[1].toNat = 16 + i) ↔
      a.octets[0].toNat = 172 ∧ 16 ≤ a.octets[1].toNat ∧ a.octets[1].toNat ≤ 31 := by
    constructor
    · rintro ⟨i, hi, h0, h1⟩
      omega
    · rintro ⟨h0, hlow, hhigh⟩
      exact ⟨a.octets[1].toNat - 16, by omega, h0, by omega⟩
  rw [hsixteen]
  simp only [isLoopbackOrPrivate, Ipv4Addr.isLoopback, isPrivate, Bool.or_eq_true,
    Bool.and_eq_true, beq_iff_eq, decide_eq_true_eq, ge_iff_le, ← UInt8.toNat_inj,
    UInt8.le_iff_toNat_le, UInt8.reduceToNat]
  omega

/-! ## IPv6 -/

def segmentText (n : ℕ) : List Char := Nat.toDigits 16 n

theorem mem_segmentText (h : c ∈ segmentText n) : ∃ d < 16, c = Nat.digitChar d := by
  induction n using Nat.strongRecOn with
  | ind n ih =>
    rw [segmentText, Nat.toDigits_eq_if (by decide)] at h
    split at h
    next hlt => exact ⟨n, hlt, List.mem_singleton.mp h⟩
    next hge =>
      rcases List.mem_append.mp h with h | h
      · exact ih (n / 16) (by omega) h
      · exact ⟨n % 16, Nat.mod_lt _ (by decide), List.mem_singleton.mp h⟩

theorem colon_not_mem_segmentText (n : ℕ) : ':' ∉ segmentText n := by
  grind [mem_segmentText]

/-- The digits of a segment, without zeros in front. -/
theorem segmentText_eq (h : n < 65536) :
    segmentText n =
      if n < 16 then [n.digitChar]
      else if n < 256 then [(n / 16).digitChar, (n % 16).digitChar]
      else if n < 4096 then [(n / 256).digitChar, (n / 16 % 16).digitChar, (n % 16).digitChar]
      else [(n / 4096).digitChar, (n / 256 % 16).digitChar, (n / 16 % 16).digitChar,
        (n % 16).digitChar] := by
  have hstep : ∀ m, 16 ≤ m → Nat.toDigits 16 m = Nat.toDigits 16 (m / 16) ++ [(m % 16).digitChar] :=
    fun m hm => Nat.toDigits_of_base_le (by decide) hm
  have hone : ∀ m, m < 16 → Nat.toDigits 16 m = [m.digitChar] := fun m hm =>
    Nat.toDigits_of_lt_base hm
  unfold segmentText
  split
  next hlt => exact hone n hlt
  next h16 =>
    rw [hstep n (by omega)]
    split
    next hlt => rw [hone (n / 16) (by omega), List.singleton_append]
    next h256 =>
      rw [hstep (n / 16) (by omega), Nat.div_div_eq_div_mul]
      split
      next hlt => rw [hone (n / (16 * 16)) (by omega), List.singleton_append, List.cons_append,
        List.singleton_append]
      next h4096 =>
        rw [hstep (n / (16 * 16)) (by omega), Nat.div_div_eq_div_mul,
          hone (n / (16 * 16 * 16)) (by omega)]
        rfl

theorem one_eq_digitChar : ∀ d < 16, '1' = Nat.digitChar d ↔ d = 1 := by decide

theorem f_eq_digitChar : ∀ d < 16, 'f' = Nat.digitChar d ↔ d = 15 := by decide

theorem d_eq_digitChar : ∀ d < 16, 'd' = Nat.digitChar d ↔ d = 13 := by decide

theorem one_prefix_segment (h : n < 65536) : ['1'] <+: segmentText n ↔ LeadingOne n := by
  grind [segmentText_eq, LeadingOne, one_eq_digitChar]

/-- The segments whose text begins with `fd`. -/
theorem fd_prefix_segment (h : n < 65536) :
    ['f', 'd'] <+: segmentText n ↔ n = 0xFD ∨ n / 16 = 0xFD ∨ n / 256 = 0xFD := by
  rw [segmentText_eq h]
  split
  next hlt =>
    simp only [List.cons_prefix_cons, List.prefix_nil, reduceCtorEq, and_false, false_iff]
    omega
  next _ =>
    split
    next hlt =>
      rw [List.cons_prefix_cons, List.cons_prefix_cons, f_eq_digitChar _ (by omega),
          d_eq_digitChar _ (by omega)]
      simp only [List.nil_prefix, and_true]
      omega
    next _ =>
      split
      next hlt =>
        rw [List.cons_prefix_cons, List.cons_prefix_cons, f_eq_digitChar _ (by omega),
          d_eq_digitChar _ (by omega)]
        simp only [List.nil_prefix, and_true]
        omega
      next _ =>
        rw [List.cons_prefix_cons, List.cons_prefix_cons, f_eq_digitChar _ (by omega),
          d_eq_digitChar _ (by omega)]
        simp only [List.nil_prefix, and_true]
        omega

theorem displaySegments_cons (seg : UInt16) (segments : List UInt16) :
    ∃ rest, (Ipv6Addr.displaySegments (seg :: segments)).toList = segmentText seg.toNat ++ rest ∧
      (rest = [] ∨ ∃ t, rest = ':' :: t) := by
  rw [Ipv6Addr.displaySegments, String.toList_intercalate]
  cases segments with
  | nil =>
    refine ⟨[], ?_, .inl rfl⟩
    simp [List.intercalate, segmentText]
  | cons next segments =>
    simp [segmentText]

theorem mem_intercalate {sep : List Char} {texts : List (List Char)}
    (h : c ∈ sep.intercalate texts) : c ∈ sep ∨ ∃ t ∈ texts, c ∈ t := by
  induction texts with
  | nil => cases h
  | cons t texts ih =>
    cases texts with
    | nil =>
      rw [List.intercalate_singleton] at h
      exact .inr ⟨t, List.mem_cons_self, h⟩
    | cons next texts =>
      rw [List.intercalate_cons_cons, List.mem_append, List.mem_append] at h
      grind

theorem mem_displaySegments {segments : List UInt16}
    (h : c ∈ (Ipv6Addr.displaySegments segments).toList) : c = ':' ∨ ∃ n, c ∈ segmentText n := by
  rw [Ipv6Addr.displaySegments, String.toList_intercalate] at h
  rcases mem_intercalate h with hsep | ⟨t, ht, hc⟩
  · exact .inl (List.mem_singleton.mp hsep)
  · obtain ⟨text, htext, rfl⟩ := List.mem_map.mp ht
    obtain ⟨seg, _, rfl⟩ := List.mem_map.mp htext
    exact .inr ⟨seg.toNat, by simpa [segmentText] using hc⟩

theorem dot_not_mem_segments (segments : List UInt16) :
    '.' ∉ (Ipv6Addr.displaySegments segments).toList := by
  grind [mem_displaySegments, mem_segmentText]

theorem isLanIp_without_dot {ip : String} (hdot : '.' ∉ ip.toList) :
    isLanIp ip = true ↔ [':', ':', '1'] <+: ip.toList ∨ ['f', 'd'] <+: ip.toList := by
  have hranges : ∀ r ∈ lanIpRanges.map String.toList,
      '.' ∈ r ∨ r = [':', ':', '1'] ∨ r = ['f', 'd'] := by decide +kernel
  rw [isLanIp_iff]
  constructor
  · grind
  · intro h
    rcases h with hstarts | hstarts
    · exact ⟨_, by decide +kernel, hstarts⟩
    · exact ⟨_, by decide +kernel, hstarts⟩

/-! ## The zeros that are left out -/

theorem longestZeros_spec (segments : List UInt16) :
    (Ipv6Addr.longestZeros segments).2 = 0 ∨ (Ipv6Addr.longestZeros segments).2 =
      ((segments.drop (Ipv6Addr.longestZeros segments).1).takeWhile (· == 0)).length := by
  unfold Ipv6Addr.longestZeros
  refine List.foldlRecOn (motive := fun longest : ℕ × ℕ => longest.2 = 0 ∨
    longest.2 = ((segments.drop longest.1).takeWhile (· == 0)).length) _ _ (.inl rfl) ?_
  grind

theorem leading_zeros {segments : List UInt16} {len : ℕ}
    (h : Ipv6Addr.longestZeros segments = (0, len)) (hlen : 0 < len) :
    len = (segments.takeWhile (· == 0)).length := by
  grind [longestZeros_spec]

/-! ## The text of an IPv6 address -/

section

variable (a : Ipv6Addr)

def isMapped : Bool :=
  a.segments[0] == 0 && a.segments[1] == 0 && a.segments[2] == 0 && a.segments[3] == 0 &&
    a.segments[4] == 0 && a.segments[5] == 0xFFFF

theorem segments_toList : a.segments.toList = [a.segments[0], a.segments[1], a.segments[2],
    a.segments[3], a.segments[4], a.segments[5], a.segments[6], a.segments[7]] := by
  apply List.ext_getElem
  · simp
  · intro i hi _
    have : i < 8 := by simpa using hi
    interval_cases i <;> rfl

def compressed : String :=
  let (start, len) := Ipv6Addr.longestZeros a.segments.toList
  if len > 1 then
    Ipv6Addr.displaySegments (a.segments.toList.take start) ++ "::" ++
      Ipv6Addr.displaySegments (a.segments.toList.drop (start + len))
  else Ipv6Addr.displaySegments a.segments.toList

theorem display_eq :
    a.display = if isMapped a then
      "::ffff:" ++ (Ipv4Addr.mk #v[(a.segments[6] >>> 8).toUInt8, a.segments[6].toUInt8,
        (a.segments[7] >>> 8).toUInt8, a.segments[7].toUInt8]).display
    else compressed a := rfl

variable {a}

theorem isLanIp_mapped (h : isMapped a = true) : isLanIp a.display = false := by
  have hranges : ∀ t, ∀ r ∈ lanIpRanges.map String.toList, ¬ r <+: [':', ':', 'f'] ++ t := by
    intro t
    simp [lanIpRanges]
  rw [display_eq, if_pos h, ← Bool.not_eq_true, isLanIp_iff, String.toList_append]
  rintro ⟨r, hr, hstarts⟩
  exact hranges _ r hr hstarts

theorem displaySegments_append {seg : UInt16} {segments : List UInt16} {after : List Char}
    (hafter : after = [] ∨ ∃ t, after = ':' :: t) :
    ∃ rest, (Ipv6Addr.displaySegments (seg :: segments)).toList ++ after =
      segmentText seg.toNat ++ rest ∧ (rest = [] ∨ ∃ t, rest = ':' :: t) := by
  obtain ⟨rest, htext, hrest⟩ := displaySegments_cons seg segments
  grind

/-- The text of an address begins with its first segment, or with the colons of a leading run of zeros.
-/
theorem compressed_cases (a : Ipv6Addr) :
    (∃ len, Ipv6Addr.longestZeros a.segments.toList = (0, len) ∧ 1 < len ∧
      (compressed a).toList =
        ':' :: ':' :: (Ipv6Addr.displaySegments (a.segments.toList.drop len)).toList) ∨
    (∀ len, Ipv6Addr.longestZeros a.segments.toList = (0, len) → len ≤ 1) ∧
      ∃ rest, (compressed a).toList = segmentText a.segments[0].toNat ++ rest ∧
        (rest = [] ∨ ∃ t, rest = ':' :: t) := by
  unfold compressed
  rcases hzeros : Ipv6Addr.longestZeros a.segments.toList with ⟨start, len⟩
  simp only
  split
  next hlen =>
    cases start with
    | zero =>
      refine .inl ⟨len, rfl, hlen, ?_⟩
      rw [String.toList_append, String.toList_append, Nat.zero_add]
      rfl
    | succ k =>
      simp [segments_toList, displaySegments_append]
  next hlen =>
    refine .inr ⟨fun len' heq => ?_, ?_⟩
    · rw [← (Prod.mk.inj heq).2]
      exact Nat.not_lt.mp hlen
    · rw [segments_toList, ← List.append_nil (String.toList _)]
      exact displaySegments_append (.inl rfl)

theorem dot_not_mem_compressed (a : Ipv6Addr) : '.' ∉ (compressed a).toList := by
  unfold compressed
  rcases Ipv6Addr.longestZeros a.segments.toList with ⟨start, len⟩
  simp only
  split
  · simp [dot_not_mem_segments]
  · exact dot_not_mem_segments _

theorem and_seven_high {n : ℕ} (h : n < 65536) : n &&& 0xFE00 = n / 512 * 512 := by
  have hdiv : (n &&& 0xFE00) / 2 ^ 9 = n / 2 ^ 9 := by
    rw [Nat.and_div_two_pow, show 0xFE00 / 2 ^ 9 = 2 ^ 7 - 1 from rfl, Nat.and_two_pow_sub_one_eq_mod]
    omega
  have hmod : (n &&& 0xFE00) % 2 ^ 9 = 0 := by
    rw [Nat.and_mod_two_pow, show 0xFE00 % 2 ^ 9 = 0 from rfl, Nat.and_zero]
  omega

theorem isUniqueLocal_iff (a : Ipv6Addr) :
    isUniqueLocal a = true ↔ a.segments[0].toNat / 512 = 0x7E := by
  have hlt := a.segments[0].toNat_lt
  rw [isUniqueLocal, beq_iff_eq, ← UInt16.toNat_inj, UInt16.toNat_and]
  grind [and_seven_high]

theorem first_segment_of_loopback {a : Ipv6Addr} (h : a.isLoopback = true) : a.segments[0] = 0 := by
  rw [Ipv6Addr.isLoopback, beq_iff_eq] at h
  rw [h]
  rfl

theorem one_prefix_segments {segments : List UInt16} :
    ['1'] <+: (Ipv6Addr.displaySegments segments).toList ↔
      ∃ seg, segments[0]? = some seg ∧ LeadingOne seg.toNat := by
  cases segments with
  | nil =>
    refine iff_of_false (by decide) fun ⟨seg, hseg, _⟩ => ?_
    cases hseg
  | cons seg segments =>
    obtain ⟨rest, htext, hrest⟩ := displaySegments_cons seg segments
    rw [htext, prefix_before (by decide) hrest, one_prefix_segment seg.toNat_lt]
    simp

/-- The text of an address misleads exactly where a short segment begins with `fd`. -/
theorem misread_iff (a : Ipv6Addr) :
    (isLanIp a.display = true ∧ isLoopbackOrPrivate (.v6 a) = false) ↔ Misread a := by
  have hprivate : isLoopbackOrPrivate (.v6 a) = false ↔
      a.isLoopback = false ∧ a.segments[0].toNat / 512 ≠ 0x7E := by
    grind [isLoopbackOrPrivate, isUniqueLocal, isUniqueLocal_iff]
  have hzeros : ∀ {len}, Ipv6Addr.longestZeros a.segments.toList = (0, len) → 1 < len →
      len = (a.segments.toList.takeWhile (· == 0)).length := fun h hlen => leading_zeros h (by omega)
  by_cases hmapped : isMapped a = true
  · rw [isLanIp_mapped hmapped]
    simp only [isMapped, Bool.and_eq_true, beq_iff_eq] at hmapped
    obtain ⟨⟨⟨⟨⟨h0, h1⟩, h2⟩, h3⟩, h4⟩, h5⟩ := hmapped
    refine iff_of_false (fun h => absurd h.1 Bool.false_ne_true) fun h => ?_
    rcases h with h | h | ⟨len, seg, hlongest, hlen, hseg, hone, _⟩
    · rw [h0] at h
      exact absurd h (by decide)
    · rw [h0] at h
      exact absurd h (by decide)
    · have hfive := hzeros hlongest hlen
      rw [segments_toList, h0, h1, h2, h3, h4, h5] at hfive
      rw [hfive, segments_toList, h5] at hseg
      cases hseg
      exact absurd hone (by unfold LeadingOne; decide)
  · rw [display_eq, if_neg hmapped, isLanIp_without_dot (dot_not_mem_compressed a), hprivate]
    rcases compressed_cases a with ⟨len, hlongest, hlen, htext⟩ | ⟨hnone, rest, htext, hrest⟩
    · have hfirst : a.segments[0] = 0 := by
        by_contra hne
        have hlength := hzeros hlongest hlen
        rw [segments_toList, List.takeWhile_cons_of_neg (by simpa using hne)] at hlength
        simp only [List.length_nil] at hlength
        omega
      rw [htext, List.cons_prefix_cons, List.cons_prefix_cons, List.cons_prefix_cons,
        one_prefix_segments, List.getElem?_drop, Nat.add_zero, Misread, hfirst]
      constructor
      · grind
      · grind
    · have hcolon : ¬ [':', ':', '1'] <+: (compressed a).toList := by
        intro hstarts
        rw [htext] at hstarts
        cases hseg : segmentText a.segments[0].toNat with
        | nil => exact absurd hseg Nat.toDigits_ne_nil
        | cons c t =>
          grind [colon_not_mem_segmentText]
      rw [or_iff_right hcolon, htext, prefix_before (by decide) hrest,
        fd_prefix_segment a.segments[0].toNat_lt, Misread]
      constructor
      · rintro ⟨htext, hloopback, hlocal⟩
        omega
      · intro h
        have hfirst : a.segments[0].toNat = 0xFD ∨ a.segments[0].toNat / 16 = 0xFD := by
          grind
        refine ⟨by omega, ?_, by omega⟩
        rw [← Bool.not_eq_true]
        intro hloopback
        rw [first_segment_of_loopback hloopback] at hfirst
        exact absurd hfirst (by decide)

end

end MichiServer.Network
