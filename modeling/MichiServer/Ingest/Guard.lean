import MichiServer.Ingest.Fetch

/-!
# Every request stays on public addresses

A hop is one lookup and the requests that follow it, up to the next lookup. `Guarded` says of a
record that every request in it went to an address of its hop's lookup, that the lookup was of the
request's own host, and that every address of its answer is public. Opening a hop establishes what a
request needs and requests keep it, so a fetcher is followed with `Hop` from the start of a hop to
its end, whatever the network answers.
-/

namespace MichiServer.Ingest

open MichiServer.Logic MichiServer.Logic.Handler
open MichiServer.Queue (ApiError v1Error)

/-! ## Records -/

def NetEvent.lookup? : NetEvent → Option (String × Except String (List SocketAddr))
  | lookup name answer => some (name, answer)
  | request .. => none

def lookups (log : List NetEvent) : List (String × Except String (List SocketAddr)) :=
  log.filterMap NetEvent.lookup?

def requests (log : List NetEvent) : ℕ := log.countP fun e => e.lookup?.isNone

section Records

variable (log : List NetEvent) (name : String) (answer : Except String (List SocketAddr))
  (request : Request) (peer : SocketAddr)

@[simp] theorem lookups_append_lookup :
    lookups (log ++ [.lookup name answer]) = lookups log ++ [(name, answer)] := by
  simp [lookups, NetEvent.lookup?]

@[simp] theorem lookups_append_request :
    lookups (log ++ [.request request peer]) = lookups log := by
  simp [lookups, NetEvent.lookup?]

@[simp] theorem requests_append_lookup : requests (log ++ [.lookup name answer]) = requests log := by
  simp [requests, NetEvent.lookup?]

@[simp] theorem requests_append_request :
    requests (log ++ [.request request peer]) = requests log + 1 := by
  simp [requests, NetEvent.lookup?]

end Records

section Guard

variable {Url ε : Type} (net : Net Url)

/-- After these events a request goes to an address that the lookup of its hop gave for its own host,
and every address of the answer is public. -/
def Pinned (before : List NetEvent) (urlStr : String) (peer : SocketAddr) : Prop :=
  ∃ url name addrs, net.url.parse urlStr = .ok url ∧ addrStr net url = some name ∧
    (lookups before).getLast? = some (name, .ok addrs) ∧ peer ∈ addrs ∧
    ∀ addr ∈ addrs, isPrivateOrLinkLocal addr.ip = false

def Guarded (log : List NetEvent) : Prop :=
  ∀ before request peer after, log = before ++ .request request peer :: after →
    Pinned net before request.url peer

structure Bounded (maxRequests maxHops : ℕ) (log : List NetEvent) : Prop where
  guarded : Guarded net log
  requests : requests log ≤ maxRequests
  hops : (lookups log).length ≤ maxHops

/-- The record ends within a hop to the URL, and the client is the hop's. -/
def Hop (urlStr : String) (client : Client) (log : List NetEvent) : Prop :=
  Pinned net log urlStr client.addr ∧
    ∀ url, net.url.parse urlStr = .ok url → net.url.hostStr url = some client.host

variable {net}

theorem guarded_nil : Guarded net [] := by
  intro before request peer after h
  cases before <;> cases h

variable {log : List NetEvent}

theorem Guarded.append (h : Guarded net log) (e : NetEvent)
    (he : ∀ request peer, e = .request request peer → Pinned net log request.url peer) :
    Guarded net (log ++ [e]) := by
  intro before request peer after heq
  rcases List.eq_nil_or_concat after with rfl | ⟨rest, last, rfl⟩
  · obtain ⟨rfl, hlast⟩ := List.append_inj' heq rfl
    exact he request peer (List.singleton_inj.mp hlast)
  · rw [List.concat_eq_append, ← List.cons_append, ← List.append_assoc] at heq
    obtain ⟨hlog, -⟩ := List.append_inj' heq rfl
    exact h before request peer rest hlog

theorem Bounded.mono {n n' h h' : ℕ} (hb : Bounded net n h log)
    (hn : n ≤ n') (hh : h ≤ h') : Bounded net n' h' log :=
  ⟨hb.guarded, hb.requests.trans hn, hb.hops.trans hh⟩

theorem bounded_nil (net : Net Url) : Bounded net 0 0 [] := ⟨guarded_nil, le_rfl, le_rfl⟩

theorem Bounded.append_lookup {n h : ℕ} (hb : Bounded net n h log)
    (name : String) (answer : Except String (List SocketAddr)) :
    Bounded net n (h + 1) (log ++ [.lookup name answer]) where
  guarded := hb.guarded.append _ fun _ _ heq => by cases heq
  requests := by
    rw [requests_append_lookup]
    exact hb.requests
  hops := by
    rw [lookups_append_lookup, List.length_append]
    exact Nat.add_le_add_right hb.hops 1

theorem Bounded.append_request {n h : ℕ} (hb : Bounded net n h log)
    (request : Request) {peer : SocketAddr} (hpinned : Pinned net log request.url peer) :
    Bounded net (n + 1) h (log ++ [.request request peer]) where
  guarded := hb.guarded.append _ fun _ _ heq => by
    cases heq
    exact hpinned
  requests := by
    rw [requests_append_request]
    exact Nat.add_le_add_right hb.requests 1
  hops := by
    rw [lookups_append_request]
    exact hb.hops

theorem Hop.append_request {urlStr : String} {client : Client}
    (h : Hop net urlStr client log) (request : Request) (peer : SocketAddr) :
    Hop net urlStr client (log ++ [.request request peer]) := by
  obtain ⟨⟨url, name, addrs, hparse, hname, hlast, hrest⟩, hhost⟩ := h
  exact ⟨⟨url, name, addrs, hparse, hname, by rw [lookups_append_request]; exact hlast, hrest⟩, hhost⟩

/-! ## The steps of a hop -/

theorem checkAddrs_ok {addrs : List SocketAddr} (h : checkAddrs addrs = .ok ()) :
    ∀ addr ∈ addrs, isPrivateOrLinkLocal addr.ip = false := by
  grind [checkAddrs]

variable {n h : ℕ} {log : List NetEvent} {urlStr : String} {client : Client}

/-- What a validated URL has behind it, in the record its lookup ends. -/
structure Validated (net : Net Url) (urlStr : String) (r : Url × List SocketAddr)
    (log : List NetEvent) : Prop where
  parsed : net.url.parse urlStr = .ok r.1
  resolved : ∃ name, addrStr net r.1 = some name ∧ (lookups log).getLast? = some (name, .ok r.2)
  allowed : ∀ addr ∈ r.2, isPrivateOrLinkLocal addr.ip = false

/-- A check makes at most one lookup, and what it lets through is public. -/
theorem validate_leaves (hb : Bounded net n h log) :
    Leaves (validateUrlAndResolve net urlStr) log
      (fun r log' => Bounded net n (h + 1) log' ∧ Validated net urlStr r log')
      fun _ log' => Bounded net n (h + 1) log' := by
  have hstay := hb.mono le_rfl (Nat.le_succ h)
  unfold validateUrlAndResolve
  refine .bind (.rejectIf (fun _ => hstay) fun _ => ?_)
  refine .bind (.ofExcept (fun parsed hparsed => ?_) fun _ _ => hstay)
  refine .bind (.require (fun _ => hstay) fun name hname => ?_)
  refine .bind (.update (fun addrs haddrs => ?_) fun _ _ => hb.append_lookup ..)
  refine .bind (.rejectIf (fun _ => hb.append_lookup ..) fun _ => ?_)
  refine .bind (.ofExcept (fun _ hchecked => ?_) fun _ _ => hb.append_lookup ..)
  refine .pure ⟨hb.append_lookup .., ?_, ⟨name, hname, ?_⟩, checkAddrs_ok hchecked⟩
  · cases hparse : net.url.parse urlStr with
    | error e =>
      rw [hparse] at hparsed
      cases hparsed
    | ok url =>
      rw [hparse] at hparsed
      cases hparsed
      rfl
  · cases hanswer : net.toSocketAddrs log name with
    | error e =>
      simp only [hanswer] at haddrs
      cases haddrs
    | ok answer =>
      simp only [hanswer] at haddrs
      cases haddrs
      simp

theorem Validated.hop {url : Url} {addrs : List SocketAddr}
    (hv : Validated net urlStr (url, addrs) log)
    (hhost : net.url.hostStr url = some client.host) (haddr : addrs.head? = some client.addr) :
    Hop net urlStr client log := by
  obtain ⟨name, hname, hlast⟩ := hv.resolved
  refine ⟨⟨url, name, addrs, hv.parsed, hname, hlast, List.mem_of_head? haddr, hv.allowed⟩, ?_⟩
  intro url' hparse
  cases hv.parsed.symm.trans hparse
  exact hhost

theorem build_leaves {P : Client → List NetEvent → Prop} {E : ε → List NetEvent → Prop}
    {host : String} {addr : SocketAddr} {onError : String → ε} (hok : P ⟨host, addr⟩ log)
    (herror : ∀ e, E e log) : Leaves (build net host addr onError) log P E := by
  refine .update (fun c hc => ?_) fun e _ => herror e
  cases hbuild : net.build log with
  | error e =>
    simp only [hbuild] at hc
    cases hc
  | ok u =>
    simp only [hbuild] at hc
    cases hc
    exact hok

theorem openHop_leaves (hb : Bounded net n h log) (noHost noAddrs : String)
    (buildError : String → String) :
    Leaves (openHop net urlStr noHost noAddrs buildError) log
      (fun r log' => Bounded net n (h + 1) log' ∧ Hop net urlStr r.2 log')
      fun _ log' => Bounded net n (h + 1) log' := by
  unfold openHop
  refine .bind ((validate_leaves hb).mono ?_ fun _ _ h => h)
  rintro ⟨url, addrs⟩ log' ⟨hb', hv⟩
  refine .bind (.require (fun _ => hb') fun host hhost => ?_)
  refine .bind (.require (fun _ => hb') fun addr haddr => ?_)
  exact .bind (build_leaves (.pure ⟨hb', hv.hop hhost haddr⟩) fun _ => hb')

theorem openProxyHop_leaves (hb : Bounded net n h log) (hop : ℕ) :
    Leaves (openProxyHop net hop urlStr) log
      (fun r log' => Bounded net n (h + 1) log' ∧ Hop net urlStr r.2 log')
      fun _ log' => Bounded net n (h + 1) log' := by
  unfold openProxyHop
  refine .bind (.adapt ((validate_leaves hb).mono ?_ fun _ _ h => h))
  rintro ⟨url, addrs⟩ log' ⟨hb', hv⟩
  refine .bind (.require (fun _ => hb') fun host hhost => ?_)
  refine .bind (.require (fun _ => hb') fun addr haddr => ?_)
  exact .bind (build_leaves (.pure ⟨hb', hv.hop hhost haddr⟩) fun _ => hb')

theorem Hop.dial {url : Url} (hhop : Hop net urlStr client log)
    (hparse : net.url.parse urlStr = .ok url) : client.dial net log url = client.addr := by
  unfold Client.dial
  rw [if_pos (hhop.2 url hparse)]

theorem send_leaves (hb : Bounded net n h log) (hhop : Hop net urlStr client log)
    (method : Method) (range : Option String) (onError : String → ε) :
    Leaves (send net client ⟨method, urlStr, range⟩ onError) log
      (fun _ log' => Bounded net (n + 1) h log' ∧ Hop net urlStr client log')
      fun _ log' => Bounded net (n + 1) h log' := by
  unfold send
  cases hparse : net.url.parse urlStr with
  | error e =>
    refine .update (fun r hr => ?_) fun e' _ => ?_
    · cases hr
    · exact hb.mono (Nat.le_succ n) le_rfl
  | ok url =>
    have hdial := hhop.dial hparse
    refine .update (fun r _ => ?_) fun e' _ => ?_
    · simp only [hdial]
      exact ⟨hb.append_request _ hhop.1, hhop.append_request ..⟩
    · simp only [hdial]
      exact hb.append_request _ hhop.1

/-! ## The fetchers -/

theorem readBody_length {maxBytes : ℕ} {chunks : List (Except String (List UInt8))}
    {body read : List UInt8} (hbody : body.length ≤ maxBytes)
    (h : readBody maxBytes body chunks = .ok read) : read.length ≤ maxBytes := by
  induction chunks generalizing body with
  | nil =>
    cases h
    exact hbody
  | cons chunk rest ih =>
    cases chunk with
    | error e => cases h
    | ok chunk =>
      grind [readBody]

/-- A fetch makes at most one request for each hop, and its body is bounded. -/
theorem safeFetchFrom_leaves (urlStr : String) (maxRedirects maxBytes left hop : ℕ)
    (hb : Bounded net n h log) :
    Leaves (safeFetchFrom net maxRedirects maxBytes left hop urlStr) log
      (fun r log' => Bounded net (n + left) (h + left) log' ∧ r.body.length ≤ maxBytes)
      fun _ log' => Bounded net (n + left) (h + left) log' := by
  induction left generalizing n h log hop urlStr with
  | zero => exact .throw hb
  | succ left ih =>
    have hopened : ∀ {log'}, Bounded net n (h + 1) log' →
        Bounded net (n + (left + 1)) (h + (left + 1)) log' :=
      fun hb' => hb'.mono (by omega) (by omega)
    have hsent : ∀ {log'}, Bounded net (n + 1) (h + 1) log' →
        Bounded net (n + (left + 1)) (h + (left + 1)) log' :=
      fun hb' => hb'.mono (by omega) (by omega)
    rw [safeFetchFrom]
    refine .bind ((openHop_leaves hb ..).mono ?_ fun _ _ hb' => hopened hb')
    rintro ⟨url, client⟩ log₁ ⟨hb₁, hhop⟩
    refine .bind ((send_leaves hb₁ hhop ..).mono ?_ fun _ _ hb' => hsent hb')
    rintro resp log₂ ⟨hb₂, -⟩
    refine .ite (fun _ => ?_) fun _ => ?_
    · refine .bind (.rejectIf (fun _ => hsent hb₂) fun _ => ?_)
      refine .bind (.ofExcept (fun next _ => ?_) fun _ _ => hsent hb₂)
      grind
    · refine .bind (.ofExcept (fun body hbody => ?_) fun _ _ => hsent hb₂)
      exact .pure ⟨hsent hb₂, readBody_length (Nat.zero_le _) hbody⟩

/-- So does a fetch of the proxy. -/
theorem ssrfProxyFetchFrom_leaves (urlStr : String) (left hop : ℕ) (hb : Bounded net n h log) :
    Leaves (ssrfProxyFetchFrom net left hop urlStr) log
      (fun _ log' => Bounded net (n + left) (h + left) log')
      fun _ log' => Bounded net (n + left) (h + left) log' := by
  induction left generalizing n h log hop urlStr with
  | zero => exact .throw hb
  | succ left ih =>
    have hopened : ∀ {log'}, Bounded net n (h + 1) log' →
        Bounded net (n + (left + 1)) (h + (left + 1)) log' :=
      fun hb' => hb'.mono (by omega) (by omega)
    have hsent : ∀ {log'}, Bounded net (n + 1) (h + 1) log' →
        Bounded net (n + (left + 1)) (h + (left + 1)) log' :=
      fun hb' => hb'.mono (by omega) (by omega)
    rw [ssrfProxyFetchFrom]
    refine .bind ((openProxyHop_leaves hb hop).mono ?_ fun _ _ hb' => hopened hb')
    rintro ⟨url, client⟩ log₁ ⟨hb₁, hhop⟩
    refine .bind ((send_leaves hb₁ hhop ..).mono ?_ fun _ _ hb' => hsent hb')
    rintro resp log₂ ⟨hb₂, -⟩
    refine .ite (fun _ => ?_) fun _ => ?_
    · refine .bind (.ofExcept (fun next _ => ?_) fun _ _ => hsent hb₂)
      grind
    · exact .ofExcept (fun _ _ => hsent hb₂) fun _ _ => hsent hb₂

theorem sniffRedirect_leaves {url : Url} (resp : Response) (hb : Bounded net n h log)
    (hhop : Hop net urlStr client log) :
    Leaves (sniffRedirect net urlStr url client resp) log
      (fun r log' => Bounded net (n + 1) (h + 1) log' ∧ Hop net r.1 r.2.1 log')
      fun _ log' => Bounded net (n + 1) (h + 1) log' := by
  unfold sniffRedirect
  refine .ite (fun _ => ?_) fun _ => .pure ⟨hb.mono (Nat.le_succ n) (Nat.le_succ h), hhop⟩
  refine .bind (.ofExcept (fun next _ => ?_) fun _ _ => hb.mono (Nat.le_succ n) (Nat.le_succ h))
  refine .bind ((openHop_leaves hb ..).mono ?_ fun _ _ hb' => hb'.mono (Nat.le_succ n) le_rfl)
  rintro ⟨url', client'⟩ log₁ ⟨hb₁, hhop'⟩
  exact .bind ((send_leaves hb₁ hhop' ..).mono (fun _ _ h => .pure h) fun _ _ h => h)

theorem sniffFeed_leaves (url : String) (resp : Response) (hb : Bounded net n h log)
    (hhop : Hop net urlStr client log) :
    Leaves (sniffFeed net url urlStr client resp) log
      (fun _ log' => Bounded net (n + 1) h log' ∧ Hop net urlStr client log')
      fun _ log' => Bounded net (n + 1) h log' := by
  unfold sniffFeed
  refine .ite (fun _ => ?_) fun _ => .pure ⟨hb.mono (Nat.le_succ n) le_rfl, hhop⟩
  exact .bind ((send_leaves hb hhop ..).mono (fun _ _ h => .pure h) fun _ _ h => h)

/-- A sniff makes four requests at most, in two hops. -/
theorem sniffStream_leaves (url : String) (hb : Bounded net n h log) :
    Leaves (sniffStream net url) log (fun _ log' => Bounded net (n + 4) (h + 2) log')
      fun _ log' => Bounded net (n + 4) (h + 2) log' := by
  unfold sniffStream
  refine .bind ((openHop_leaves hb ..).mono ?_
    fun _ _ hb' => hb'.mono (by omega) (by omega))
  rintro ⟨parsedUrl, client⟩ log₁ ⟨hb₁, hhop₁⟩
  refine .bind ((send_leaves hb₁ hhop₁ ..).mono ?_
    fun _ _ hb' => hb'.mono (by omega) (by omega))
  rintro r log₂ ⟨hb₂, hhop₂⟩
  refine .bind ((sniffRedirect_leaves r hb₂ hhop₂).mono ?_
    fun _ _ hb' => hb'.mono (by omega) (by omega))
  rintro ⟨currentUrlStr, client, resp⟩ log₃ ⟨hb₃, hhop₃⟩
  simp only
  cases audioStream url resp with
  | some info => exact .pure (hb₃.mono (by omega) (by omega))
  | none =>
    refine .bind ((sniffFeed_leaves url resp hb₃ hhop₃).mono ?_
      fun _ _ hb' => hb'.mono (by omega) (by omega))
    rintro feed log₄ ⟨hb₄, hhop₄⟩
    cases feed with
    | some info => exact .pure (hb₄.mono (by omega) (by omega))
    | none =>
      cases hlsStream url currentUrlStr resp with
      | some info => exact .pure (hb₄.mono (by omega) (by omega))
      | none =>
        exact .bind ((send_leaves hb₄ hhop₄ ..).mono (fun _ _ hb' => .pure hb'.1) fun _ _ hb' => hb')

/-- Every request of the three fetchers goes to an address that was looked up for its own host and
found public, with all others of the answer, in the same hop, whatever the network answers.
`safe_fetch` sends at most one request for each hop its limit allows and returns no more than its
bound; the proxy sends at most one for each of its hops; `sniff_stream` follows one redirect and sends
at most four. -/
theorem ssrf_guard (net : Net Url) :
    (∀ initialUrl maxRedirects maxBytes,
      Leaves (safeFetch net initialUrl maxRedirects maxBytes) []
        (fun r log => Bounded net (maxRedirects + 1) (maxRedirects + 1) log ∧
          r.body.length ≤ maxBytes)
        fun _ log => Bounded net (maxRedirects + 1) (maxRedirects + 1) log) ∧
    (∀ initialUrl, Leaves (ssrfProxyFetch net initialUrl) []
      (fun _ log => Bounded net maxHops maxHops log)
      fun _ log => Bounded net maxHops maxHops log) ∧
    (∀ url, Leaves (sniffStream net url) []
      (fun _ log => Bounded net 4 2 log) fun _ log => Bounded net 4 2 log) := by
  refine ⟨fun initialUrl maxRedirects maxBytes => ?_, fun initialUrl => ?_, fun url => ?_⟩
  · have h := safeFetchFrom_leaves initialUrl maxRedirects maxBytes (maxRedirects + 1) 0
      (bounded_nil net)
    simpa only [safeFetch, Nat.zero_add] using h
  · simp [ssrfProxyFetchFrom_leaves, maxHops, bounded_nil, ssrfProxyFetch]
  · exact sniffStream_leaves url (bounded_nil net)

end Guard

/-! ## A stream that is hard to tell -/

/-- A network of one public host. It redirects `http://radio/` to a page of text at a name that ends
like a feed's. -/
def radioNet : Net String where
  url := {
    parse := .ok
    hostStr := fun _ => some "radio"
    portOrKnownDefault := fun _ => none
    join := fun _ location => .ok location
    toString := id }
  toSocketAddrs := fun _ _ => .ok [⟨.v4 ⟨#v[93, 184, 216, 34]⟩, 80⟩]
  build := fun _ => .ok ()
  stray := fun _ _ => ⟨.v4 ⟨#v[127, 0, 0, 1]⟩, 80⟩
  reply := fun _ request =>
    if request.url = "http://radio/" then
      .ok { status := 301, headers := [("location", ⟨some "http://radio/live.xml"⟩)] }
    else .ok { status := 200, headers := [("content-type", ⟨some "text/plain"⟩)] }
  decode := fun _ _ => ""
  displayStatus := toString

/-- One redirect is followed, and four requests are sent. -/
theorem sniff_beyond_redirects : ¬ ∀ (net : Net String) (url : String),
    Leaves (sniffStream net url) [] (fun _ log => requests log ≤ 1 + 1)
      fun _ log => requests log ≤ 1 + 1 := by
  intro hlimit
  have hsent : requests ((sniffStream radioNet "http://radio/").exec []).2 = 4 := by decide +kernel
  have hle : requests ((sniffStream radioNet "http://radio/").exec []).2 ≤ 1 + 1 :=
    (hlimit radioNet "http://radio/").final
  omega

end MichiServer.Ingest
