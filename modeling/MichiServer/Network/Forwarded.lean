import MichiServer.Network.Policy
import MichiServer.Text.Lines

/-!
# Forwarded requests

A request that comes by trusted proxies: the client writes what header lines it likes, and each proxy
appends the address it got the request from, to the last line or as a line of its own. `HeaderMap::get`
reads the first line, and where that gives no address `X-Real-IP` is read, which the client may write.
-/

namespace MichiServer.Network

open MichiServer.Ingest MichiServer.Text

def ascii (l : List Char) : List UInt8 := l.map fun c => UInt8.ofNat c.toNat

def HeaderMap.getAll (headers : HeaderMap) (name : String) : List (List UInt8) :=
  (headers.filter fun h => h.1 = name).map Prod.snd

/-- How a proxy appends: to the list of the last line, behind a comma and spaces, or as a line. -/
inductive Append where
  | item (spaces : ℕ)
  | line
deriving DecidableEq

/-- A trusted proxy: its address, and what it writes for the address it gets the request from. -/
structure Proxy where
  address : IpAddr
  append : Append
  token : String
deriving DecidableEq

def listed (spaces : ℕ) (token : String) : List Char :=
  ',' :: (List.replicate spaces ' ' ++ token.toList)

def Proxy.relay (proxy : Proxy) : List (List UInt8) → List (List UInt8)
  | [] => [ascii proxy.token.toList]
  | [last] =>
    match proxy.append with
    | .item spaces => [last ++ ascii (listed spaces proxy.token)]
    | .line => [last, ascii proxy.token.toList]
  | first :: rest => first :: proxy.relay rest

def relayed (supplied : List (List UInt8)) (proxies : List Proxy) : List (List UInt8) :=
  proxies.foldl (fun lines proxy => proxy.relay lines) supplied

def peerOf (client : IpAddr) (proxies : List Proxy) : IpAddr :=
  proxies.foldl (fun _ proxy => proxy.address) client

section

variable (parse : String → Option IpAddr) (config : Config)

/-- A text that names an address: of visible characters, without a comma. -/
structure Names (token : String) (ip : IpAddr) : Prop where
  parsed : parse token = some ip
  nonempty : token.toList ≠ []
  visible : ∀ c ∈ token.toList, 0x20 < c.toNat ∧ c.toNat < 0x7F ∧ c ≠ ','

/-- Trusted proxies that hand a request on, each naming the address it comes from. -/
def Chain : IpAddr → List Proxy → Prop
  | _, [] => True
  | sender, proxy :: rest =>
    Names parse proxy.token sender ∧ config.isTrustedProxy proxy.address = true ∧
      Chain proxy.address rest

def Kinds (lines : List (List UInt8)) : List Bool := lines.map fun line => (toStr line).isSome

/-- No text of the client changes what its request is resolved to: with any other header lines, as many
and as readable as those it supplied, and any other headers, it is the client's own address, or it is
nothing with all of them. -/
def Unspoofed (client : IpAddr) (proxies : List Proxy) (supplied : List (List UInt8)) : Prop :=
  ∃ result : Option IpAddr, (result = some client ∨ result = none) ∧
    ∀ (headers : HeaderMap) (port : ℕ) (written : List (List UInt8)),
      Kinds written = Kinds supplied →
      headers.getAll "x-forwarded-for" = relayed written proxies →
      resolveClientIp parse config (some ⟨peerOf client proxies, port⟩) headers = result

/-- The client's address reaches the first line, and that line can be read: the client supplied none,
or a single readable one that the first proxy appended to. -/
def OnFirstLine (proxies : List Proxy) (supplied : List (List UInt8)) : Prop :=
  supplied = [] ∨ (∃ line, supplied = [line] ∧ (toStr line).isSome = true) ∧
    ∃ proxy ∈ proxies.head?, proxy.append ≠ .line

variable {parse config} {client sender ip : IpAddr} {proxies : List Proxy} {proxy : Proxy}
  {supplied lines : List (List UInt8)} {line : List UInt8} {token text : String}

/-! ## Lines that are read -/

theorem get_eq_head? (headers : HeaderMap) (name : String) :
    headers.get name = (headers.getAll name).head? := by
  rw [HeaderMap.get, HeaderMap.getAll, List.head?_map, List.head?_filter]

theorem toStr_append (a b : List UInt8) : toStr (a ++ b) =
    (toStr a).bind fun s => (toStr b).map fun t => s ++ t := by
  grind [toStr]

theorem toStr_ascii {l : List Char} (h : ∀ c ∈ l, 0x20 ≤ c.toNat ∧ c.toNat < 0x7F) :
    toStr (ascii l) = some (String.ofList l) := by
  have hbyte : ∀ c ∈ l, (UInt8.ofNat c.toNat).toNat = c.toNat := fun c hc => by
    have hrange := h c hc
    rw [UInt8.toNat_ofNat']
    omega
  have hall : (ascii l).all (fun b => (0x20 ≤ b && b < 0x7F) || b == 0x09) = true := by
    rw [List.all_eq_true]
    intro b hb
    obtain ⟨c, hc, rfl⟩ := List.mem_map.mp hb
    have hrange := h c hc
    simp [UInt8.le_iff_toNat_le, UInt8.lt_iff_toNat_lt, hbyte c hc, hrange]
  have hback : (ascii l).map (fun b => Char.ofNat b.toNat) = l := by
    rw [ascii, List.map_map]
    refine (List.map_congr_left fun c hc => ?_).trans (List.map_id l)
    simp [hbyte c hc]
  rw [toStr, if_pos hall, hback]

namespace Names

theorem toStr (h : Names parse token ip) : toStr (ascii token.toList) = some token := by
  rw [toStr_ascii fun c hc => ⟨(h.visible c hc).1.le, (h.visible c hc).2.1⟩, String.ofList_toList]

theorem not_blank (h : Names parse token ip) : ∀ c ∈ token.toList, isWhitespace c = false := by
  intro c hc
  have hrange := h.visible c hc
  grind [isWhitespace]

theorem trim (h : Names parse token ip) (spaces : ℕ) :
    trim (String.ofList (List.replicate spaces ' ' ++ token.toList)) = token := by
  have hblank : Blank (List.replicate spaces ' ') := fun c hc => by
    obtain rfl := List.eq_of_mem_replicate hc
    decide
  rw [trim_eq, String.toList_ofList, trimChars_of_blank_left hblank, trimChars_of_solid h.not_blank,
    String.ofList_toList]

theorem hops_append (h : Names parse token ip) (spaces : ℕ) (text : String) :
    hops (text ++ String.ofList (listed spaces token)) =
      token :: hops text := by
  have hcomma : ',' ∉ List.replicate spaces ' ' ++ token.toList := by
    rw [List.mem_append, List.mem_replicate]
    rintro (⟨-, hspace⟩ | hmem)
    · cases hspace
    · exact (h.visible _ hmem).2.2 rfl
  rw [hops, String.toList_append, String.toList_ofList, listed, List.splitOn_append_cons_self,
    List.splitOn_eq_singleton hcomma, List.map_append, List.reverse_append, List.map_singleton, h.trim]
  rfl

theorem hops_alone (h : Names parse token ip) : hops token = [token] := by
  have hcomma : ',' ∉ token.toList := fun hmem => (h.visible _ hmem).2.2 rfl
  have htrim := h.trim 0
  rw [List.replicate_zero, List.nil_append] at htrim
  rw [hops, List.splitOn_eq_singleton hcomma, List.map_singleton, htrim]
  rfl

end Names

/-! ## The line that decides -/

variable (parse config) in
/-- The nearest hop of the line that is no trusted proxy names the address. -/
def Reads (ip : IpAddr) (line : List UInt8) : Prop :=
  ∃ text token more, toStr line = some text ∧
    (hops text).dropWhile (trustedHop parse config) = token :: more ∧ token.isEmpty = false ∧
      parse token = some ip

theorem Names.trustedHop_eq (h : Names parse token ip) :
    trustedHop parse config token = config.isTrustedProxy ip := by
  have hempty : token.isEmpty = false := by simpa using h.nonempty
  simp [trustedHop, hempty, h.parsed]

theorem reads_alone (h : Names parse token ip) (hip : config.isTrustedProxy ip = false) :
    Reads parse config ip (ascii token.toList) := by
  refine ⟨token, token, [], h.toStr, ?_, by simpa using h.nonempty, h.parsed⟩
  rw [h.hops_alone, List.dropWhile_cons_of_neg (by simp [h.trustedHop_eq, hip])]

theorem toStr_item (h : Names parse token ip) (spaces : ℕ) (hline : toStr line = some text) :
    toStr (line ++ ascii (listed spaces token)) =
      some (text ++ String.ofList (listed spaces token)) := by
  have hrange : ∀ c ∈ listed spaces token, 0x20 ≤ c.toNat ∧ c.toNat < 0x7F := by
    simp only [listed, List.mem_cons, List.mem_append, List.mem_replicate]
    rintro c (rfl | ⟨-, rfl⟩ | hc)
    · decide
    · decide
    · exact ⟨(h.visible c hc).1.le, (h.visible c hc).2.1⟩
  rw [toStr_append, hline, toStr_ascii hrange]
  rfl

theorem reads_appended (h : Names parse token ip) (hip : config.isTrustedProxy ip = false) (spaces : ℕ)
    (hline : toStr line = some text) :
    Reads parse config ip (line ++ ascii (listed spaces token)) := by
  refine ⟨_, token, hops text, toStr_item h spaces hline, ?_, by simpa using h.nonempty, h.parsed⟩
  rw [h.hops_append, List.dropWhile_cons_of_neg (by simp [h.trustedHop_eq, hip])]

theorem Reads.append (hreads : Reads parse config client line) (h : Names parse token ip)
    (hip : config.isTrustedProxy ip = true) (spaces : ℕ) :
    Reads parse config client (line ++ ascii (listed spaces token)) := by
  obtain ⟨text, nearest, more, hline, hdrop, hnearest⟩ := hreads
  refine ⟨_, nearest, more, toStr_item h spaces hline, ?_, hnearest⟩
  rw [h.hops_append, List.dropWhile_cons_of_pos (by simp [h.trustedHop_eq, hip]), hdrop]

theorem relay_ne_nil (proxy : Proxy) (lines : List (List UInt8)) : proxy.relay lines ≠ [] := by
  rcases lines with _ | ⟨first, _ | ⟨second, rest⟩⟩
  · exact List.cons_ne_nil _ _
  · rw [Proxy.relay]
    split <;> exact List.cons_ne_nil _ _
  · exact List.cons_ne_nil _ _

theorem relayed_front (hlines : lines ≠ []) (line : List UInt8) (proxies : List Proxy) :
    ∃ rest, relayed (line :: lines) proxies = line :: rest := by
  induction proxies generalizing lines with
  | nil => exact ⟨lines, rfl⟩
  | cons proxy proxies ih =>
    obtain ⟨second, rest, rfl⟩ := List.exists_cons_of_ne_nil hlines
    exact ih (relay_ne_nil proxy (second :: rest))

theorem relayed_reads (hchain : Chain parse config sender proxies)
    (hsender : config.isTrustedProxy sender = true) (h : Reads parse config client line) :
    ∃ first rest, relayed [line] proxies = first :: rest ∧ Reads parse config client first := by
  induction proxies generalizing sender line with
  | nil => exact ⟨line, [], rfl, h⟩
  | cons proxy proxies ih =>
    obtain ⟨hnames, htrusted, hchain⟩ := hchain
    simp only [relayed, List.foldl_cons, Proxy.relay]
    cases proxy.append with
    | item spaces => exact ih hchain htrusted (h.append hnames hsender spaces)
    | line =>
      obtain ⟨rest, hrest⟩ := relayed_front (List.cons_ne_nil _ []) line proxies
      exact ⟨line, rest, hrest, h⟩

theorem relayed_first (line : List UInt8) (lines : List (List UInt8)) (proxies : List Proxy) :
    ∃ more rest, relayed (line :: lines) proxies = (line ++ more) :: rest := by
  induction proxies generalizing line lines with
  | nil => exact ⟨[], lines, by simp [relayed]⟩
  | cons proxy proxies ih =>
    rcases lines with _ | ⟨second, rest⟩
    · simp only [relayed, List.foldl_cons, Proxy.relay]
      cases proxy.append with
      | item spaces =>
        obtain ⟨more, rest, h⟩ := ih (line ++ ascii (listed spaces proxy.token)) []
        exact ⟨_, rest, h.trans (by rw [List.append_assoc])⟩
      | line => exact ih line [ascii proxy.token.toList]
    · exact ih line (proxy.relay (second :: rest))

theorem peer_trusted (hchain : Chain parse config sender proxies)
    (hsender : config.isTrustedProxy sender = true) :
    config.isTrustedProxy (peerOf sender proxies) = true := by
  induction proxies generalizing sender with
  | nil => exact hsender
  | cons proxy proxies ih => exact ih hchain.2.2 hchain.2.1

theorem resolved_of_reads {peer : SocketAddr} {headers : HeaderMap}
    (hpeer : config.isTrustedProxy peer.ip = true)
    (hget : headers.getAll "x-forwarded-for" = line :: lines) (h : Reads parse config client line) :
    resolveClientIp parse config (some peer) headers = some client := by
  obtain ⟨text, token, more, hline, hdrop, hempty, hparsed⟩ := h
  have htext : headerText headers "x-forwarded-for" = some text := by
    rw [headerText, get_eq_head?, hget]
    exact hline
  grind [resolveClientIp_eq, clientAddress]

theorem resolved_spoofed {peer : SocketAddr} {headers : HeaderMap}
    (hpeer : config.isTrustedProxy peer.ip = true) (h : Names parse token ip)
    (hget : headers.getAll "x-forwarded-for" = line :: lines)
    (hline : toStr line = none ∨ toStr line = some token)
    (hreal : headers.get "x-real-ip" = some (ascii token.toList)) :
    resolveClientIp parse config (some peer) headers = some ip := by
  have htrim : trim token = token := by simpa using h.trim 0
  have htext : headerText headers "x-forwarded-for" = toStr line := by
    rw [headerText, get_eq_head?, hget]
    rfl
  have hempty : token.isEmpty = false := by simpa using h.nonempty
  rw [resolveClientIp_eq, clientAddress, if_pos hpeer, htext, headerText, hreal, Option.bind_some,
    h.toStr]
  rcases hline with hnone | hsome
  · simp [hnone, htrim, h.parsed]
  · simp only [hsome, Option.map_some, Option.getD_some, h.hops_alone]
    cases htrusted : trustedHop parse config token <;>
      simp [List.dropWhile, htrusted, hempty, htrim, h.parsed]

/-- **When the client cannot choose its address.** For every set of trusted proxies, every chain of them
that a request of an untrusted client came by, and every list of header lines it supplied: whatever
else of the kind it had written, the request resolves to its own address, or always to nothing, exactly
when it came by no proxy or its address is read from the first line. -/
theorem unspoofed_iff (hclient : config.isTrustedProxy client = false)
    (hchain : Chain parse config client proxies)
    (hother : ∃ token ip, Names parse token ip ∧ ip ≠ client) :
    Unspoofed parse config client proxies supplied ↔ proxies = [] ∨ OnFirstLine proxies supplied := by
  rcases proxies with _ | ⟨proxy, proxies⟩
  · refine iff_of_true ⟨some client, .inl rfl, fun headers port written _ _ => ?_⟩ (.inl rfl)
    rw [resolveClientIp_eq, clientAddress, if_neg (by simp [peerOf, hclient])]
    rfl
  obtain ⟨hnames, htrusted, hrest⟩ := hchain
  have hpeer := peer_trusted hrest htrusted
  simp only [List.cons_ne_nil, false_or]
  constructor
  · rintro ⟨result, hresult, h⟩
    obtain ⟨token, ip, htoken, hne⟩ := hother
    by_contra hnot
    obtain ⟨line, lines, rfl⟩ := List.exists_cons_of_ne_nil fun hnil => hnot (.inl hnil)
    -- the client writes a line of the same kind, and the other address once more in `X-Real-IP`
    obtain ⟨written, first, rest, hkind, hrelayed, hfirst⟩ : ∃ written first rest,
        Kinds written = Kinds (line :: lines) ∧ relayed written (proxy :: proxies) = first :: rest ∧
          (toStr first = none ∨ toStr first = some token) := by
      cases hline : toStr line with
      | none =>
        obtain ⟨more, rest, hrelayed⟩ := relayed_first line lines (proxy :: proxies)
        grind [lines, toStr_append]
      | some text =>
        have hkind : Kinds (ascii token.toList :: lines) = Kinds (line :: lines) := by
          rw [Kinds, Kinds, List.map_cons, List.map_cons, htoken.toStr, hline]
          rfl
        rcases lines with _ | ⟨second, lines⟩
        · have happend : proxy.append = .line := by
            by_contra hitem
            exact hnot (.inr ⟨⟨line, rfl, by rw [hline]; rfl⟩, proxy, rfl, hitem⟩)
          obtain ⟨rest, hrelayed⟩ := relayed_front
            (List.cons_ne_nil (ascii proxy.token.toList) []) (ascii token.toList) proxies
          refine ⟨_, _, rest, hkind, ?_, .inr htoken.toStr⟩
          simp only [relayed, List.foldl_cons, Proxy.relay, happend]
          exact hrelayed
        · obtain ⟨rest, hrelayed⟩ := relayed_front (List.cons_ne_nil second lines)
            (ascii token.toList) (proxy :: proxies)
          exact ⟨_, _, rest, hkind, hrelayed, .inr htoken.toStr⟩
    have hget : HeaderMap.getAll ((first :: rest).map (fun line => ("x-forwarded-for", line)) ++
        [("x-real-ip", ascii token.toList)]) "x-forwarded-for" = first :: rest := by
      simp [HeaderMap.getAll, List.filter_map, Function.comp_def]
    have hown := h _ 0 written hkind (hget.trans hrelayed.symm)
    have hreal : HeaderMap.get ((first :: rest).map (fun line => ("x-forwarded-for", line)) ++
        [("x-real-ip", ascii token.toList)]) "x-real-ip" = some (ascii token.toList) := by
      rw [get_eq_head?]
      simp [HeaderMap.getAll, List.filter_map, Function.comp_def]
    rw [resolved_spoofed hpeer htoken hget hfirst hreal] at hown
    rcases hresult with rfl | rfl
    · exact hne (Option.some.inj hown)
    · cases hown
  · intro h
    refine ⟨some client, .inl rfl, fun headers port written hkind hget => ?_⟩
    obtain ⟨line, hrelay, hreads⟩ : ∃ line, proxy.relay written = [line] ∧
        Reads parse config client line := by
      rcases h with rfl | ⟨⟨line, rfl, hline⟩, q, hq, happend⟩
      · obtain rfl : written = [] := by simpa [Kinds] using hkind
        exact ⟨_, rfl, reads_alone hnames hclient⟩
      · obtain rfl : proxy = q := by simpa using hq
        obtain ⟨own, rfl, hown⟩ : ∃ own, written = [own] ∧ (toStr own).isSome = true := by
          rcases written with _ | ⟨own, _ | ⟨second, others⟩⟩
          · simp [Kinds] at hkind
          · exact ⟨own, rfl, by simpa [Kinds, hline] using hkind⟩
          · simp [Kinds] at hkind
        obtain ⟨text, htext⟩ := Option.isSome_iff_exists.mp hown
        cases hitem : proxy.append with
        | line => exact absurd hitem happend
        | item spaces =>
          exact ⟨_, by simp only [Proxy.relay, hitem], reads_appended hnames hclient spaces htext⟩
    obtain ⟨first, rest, hlines, hfirst⟩ := relayed_reads hrest htrusted hreads
    rw [relayed, List.foldl_cons, hrelay] at hget
    exact resolved_of_reads hpeer (hget.trans hlines) hfirst

end

def outside : IpAddr := .v4 (.new 203 0 113 9)

def front (append : Append) : Proxy := ⟨.v4 (.new 10 0 0 2), append, "203.0.113.9"⟩

theorem visible_of_all {token : String} (h : token.toList.all
    (fun c => decide (0x20 < c.toNat ∧ c.toNat < 0x7F ∧ c ≠ ',')) = true) :
    ∀ c ∈ token.toList, 0x20 < c.toNat ∧ c.toNat < 0x7F ∧ c ≠ ',' :=
  fun c hc => of_decide_eq_true (List.all_eq_true.mp h c hc)

theorem chain_front (append : Append) : Chain parseNamed proxied outside [front append] :=
  have htrusted : proxied.isTrustedProxy (.v4 ⟨#v[10, 0, 0, 2]⟩) = true := by decide +kernel
  ⟨⟨rfl, by simp only [front]; decide, visible_of_all (by simp only [front]; decide)⟩,
    htrusted, trivial⟩

/-- A request of one line, to which the proxy appends. -/
theorem unspoofed_one_line :
    Unspoofed parseNamed proxied outside [front (.item 1)] [ascii "127.0.0.1".toList] :=
  (unspoofed_iff (by decide +kernel) (chain_front _) ⟨"192.168.1.20", .v4 ⟨#v[192, 168, 1, 20]⟩,
    ⟨by decide +kernel, by decide, visible_of_all (by decide)⟩, by decide +kernel⟩).mpr
      (.inr (.inr ⟨⟨_, rfl, by decide +kernel⟩, _, rfl, by decide⟩))

/-- A client behind a proxy that adds a line of its own passes for a host of the local network. -/
theorem client_is_spoofed : ¬ ∀ (config : Config) (client : IpAddr) (proxies : List Proxy)
    (supplied : List (List UInt8)), config.isTrustedProxy client = false →
      Chain parseNamed config client proxies →
        Unspoofed parseNamed config client proxies supplied := by
  intro h
  obtain ⟨result, hresult, hsame⟩ := h proxied outside [front .line]
    [ascii "192.168.1.20".toList] (by decide +kernel) (chain_front _)
  have hown := hsame [("x-forwarded-for", ascii "192.168.1.20".toList),
    ("x-forwarded-for", ascii "203.0.113.9".toList)] 443 _ rfl (by decide +kernel)
  obtain rfl : result = some (.v4 (.new 192 168 1 20)) := hown.symm.trans (by decide +kernel)
  revert hresult
  decide +kernel

end MichiServer.Network
