import Mathlib
import MichiServer.Receivers.Bridge

/-!
# Where the tokens go

An entry of the registry has the address its requests go to, with the bearer token it holds. Addresses
come from mDNS: the resolver compares what a host says with the id that was advertised, and whatever
passes goes through the store and the bridge into the entry that the id finds, or the device id.

`holders` follows the network beside the state: at which addresses the holder of a key has answered.
-/

namespace MichiServer.Receivers

open Connect Logic

/-- The discovery of receivers, and the addresses at which the holder of a key has answered. -/
structure Endpoints where
  discovery : Discovery
  holders : List (String × Url)

inductive EndpointMove where
  /-- An announcement whose signature holds. -/
  | announce (michiId deviceId name service : String) (roles : List String)
      (source : Option SocketAddr) (michiHomeId membershipFingerprint : Option String)
      (now : Instant)
  /-- A resolved mDNS service, of anyone. -/
  | sighting (michiId : Option String) (probes : List Probe) (now : Instant)
  | sweep (now : Instant)
  | send (i : ℕ)
  | sweepSend
  | subscribe
  | goOn (now : Instant)
  /-- `authenticate_receiver` has been answered at `base_url` by `member`, who signed the answer;
  `michi_id` is what the host then says of itself. -/
  | authenticated (receiverId token member : String) (baseUrl : Url) (michiId : Option String)
  /-- A request with the token of an entry, as the heartbeat. -/
  | heartbeat (receiverId : String)

variable (deriveMichiId : String → Except String String)

namespace EndpointMove

def discovery : EndpointMove → Option DiscoveryMove
  | announce michiId deviceId name service roles source home fingerprint now =>
    (handleAnnounce michiId deviceId name service roles source home fingerprint).map
      fun op => .call ⟨op, now⟩
  | sighting michiId probes now =>
    (handleResolvedService deriveMichiId michiId probes).map fun (info, probe) =>
      .call ⟨.observeMdnsCandidate info probe.url (some probe.socket), now⟩
  | sweep now => some (.call ⟨.checkExpirations, now⟩)
  | send i => some (.send i)
  | sweepSend => some .sweepSend
  | subscribe => some .subscribe
  | goOn now => some (.goOn now)
  | authenticated receiverId token _ _ michiId => some (.authenticated receiverId token michiId)
  | heartbeat _ => none

def answered : EndpointMove → List (String × Url)
  | sighting michiId probes _ =>
    match handleResolvedService deriveMichiId michiId probes with
    | some (info, probe) => if probe.holdsKey then [(info.michiId, probe.url)] else []
    | none => []
  | authenticated _ _ member baseUrl _ => [(member, baseUrl)]
  | _ => []

end EndpointMove

def endpointStep (w : Endpoints) (mv : EndpointMove) : Endpoints where
  discovery :=
    match mv.discovery deriveMichiId with
    | some move => w.discovery.step move
    | none => w.discovery
  holders := mv.answered deriveMichiId ++ w.holders

/-- Nothing has been heard; the entries that hold a token are where they were paired. -/
def Endpoints.start (registry : ReceiverRegistry) : Endpoints where
  discovery := .start registry
  holders := (registry.receivers.filter fun e => e.token.isSome).map fun e =>
    (knownAs e, e.baseUrl)

/-- The address of an entry that holds a token becomes only one where the holder of its key has
answered. -/
def TokenAddressKept (w : Endpoints) (mv : EndpointMove) : Prop :=
  ∀ e ∈ w.discovery.registry.receivers, e.token ≠ none →
    ∀ e' ∈ (endpointStep deriveMichiId w mv).discovery.registry.entry e.receiverId,
      e'.baseUrl ≠ e.baseUrl →
        (knownAs e, e'.baseUrl) ∈ (endpointStep deriveMichiId w mv).holders

def OtherIdsKept (w : Endpoints) : EndpointMove → Prop
  | .goOn now => ∀ ev ∈ w.discovery.next, ∀ e ∈ w.discovery.registry.receivers,
      ∀ y ∈ e.michiId, y ≠ ev.subject →
        ∀ e' ∈ (endpointStep deriveMichiId w (.goOn now)).discovery.registry.entry e.receiverId,
          e'.michiId = e.michiId ∧ e'.baseUrl = e.baseUrl
  | _ => True

/-- A token goes to an address where the holder of the entry's key has answered. -/
def RequestsHome (w : Endpoints) : EndpointMove → Prop
  | .heartbeat receiverId => ∀ e ∈ w.discovery.registry.get receiverId, e.token ≠ none →
      (knownAs e, e.baseUrl) ∈ w.holders
  | _ => True

structure EndpointsKept (w : Endpoints) (mv : EndpointMove) : Prop where
  token_address : TokenAddressKept deriveMichiId w mv
  other_ids : OtherIdsKept deriveMichiId w mv
  requests : RequestsHome w mv

instance (w : Endpoints) (mv : EndpointMove) : Decidable (EndpointsKept deriveMichiId w mv) :=
  have : Decidable (TokenAddressKept deriveMichiId w mv) :=
    inferInstanceAs (Decidable (∀ e ∈ w.discovery.registry.receivers, e.token ≠ none →
      ∀ e' ∈ (endpointStep deriveMichiId w mv).discovery.registry.entry e.receiverId,
        e'.baseUrl ≠ e.baseUrl → (knownAs e, e'.baseUrl) ∈ _))
  have : Decidable (OtherIdsKept deriveMichiId w mv) := by
    cases mv <;> simp only [OtherIdsKept] <;> infer_instance
  have : Decidable (RequestsHome w mv) := by
    cases mv <;> simp only [RequestsHome] <;> infer_instance
  decidable_of_iff (TokenAddressKept deriveMichiId w mv ∧ OtherIdsKept deriveMichiId w mv ∧
      RequestsHome w mv)
    ⟨fun h => ⟨h.1, h.2.1, h.2.2⟩, fun h => ⟨h.token_address, h.other_ids, h.requests⟩⟩

/-- The ids of the event are not those of an entry known under another id, but for one that has
neither a michi id nor a token. -/
def Unmistaken (reg : ReceiverRegistry) (ev : ScentEvent) : Prop :=
  ∀ e ∈ reg.receivers, e.receiverId = ev.subject ∨ e.receiverId = secondId ev →
    knownAs e = ev.subject ∨ (e.michiId = none ∧ e.token = none)

instance (reg : ReceiverRegistry) (ev : ScentEvent) : Decidable (Unmistaken reg ev) :=
  inferInstanceAs (Decidable (∀ e ∈ reg.receivers, _ → _))

/-- A move with which the entries keep to their receivers: the hosts that pass the resolver hold the
key they serve, an event does not carry the id of another entry, and a receiver that is authenticated
is the one the entry is known as. -/
def Genuine (w : Endpoints) : EndpointMove → Prop
  | .sighting michiId probes _ =>
    ∀ found ∈ handleResolvedService deriveMichiId michiId probes, found.2.holdsKey = true
  | .goOn _ => ∀ ev ∈ w.discovery.next, Unmistaken w.discovery.registry ev
  | .authenticated receiverId _ member baseUrl michiId =>
    ∀ e ∈ w.discovery.registry.getMut receiverId,
      member = knownAs e ∧ (michiId = none ∨ michiId = some (knownAs e)) ∧
        (e.baseUrl = baseUrl ∨ (knownAs e, e.baseUrl) ∈ w.holders)
  | _ => True

instance (w : Endpoints) (mv : EndpointMove) : Decidable (Genuine deriveMichiId w mv) := by
  cases mv <;> simp only [Genuine] <;> infer_instance

/-! ## What the store holds of addresses -/

def Backed (holders : List (String × Url)) (r : ScentRecord) : Prop :=
  ∀ u ∈ r.baseUrl, (r.michiId, u) ∈ holders

/-- The holder of the subject's key has answered at the address an event brings. -/
def EventBacked (holders : List (String × Url)) (ev : ScentEvent) : Prop :=
  ∀ u ∈ newBaseUrl ev, (ev.subject, u) ∈ holders

def StoreBacked (holders : List (String × Url)) (s : ScentStore) : Prop :=
  ∀ x r, s.get x = some r → r.michiId = x ∧ Backed holders r

/-- The address an operation brings, if it brings one, is one where the holder has answered. -/
def OpBacked (holders : List (String × Url)) : ScentOp → Prop
  | .observeMdnsCandidate info baseUrl _ => (info.michiId, baseUrl) ∈ holders
  | .updateBaseUrl michiId newUrl _ => (michiId, newUrl) ∈ holders
  | _ => True

section Store

variable {holders more : List (String × Url)} {s : ScentStore} {r : ScentRecord}

theorem StoreBacked.mono (h : StoreBacked holders s) (hsub : holders ⊆ more) :
    StoreBacked more s :=
  fun x r hr => ⟨(h x r hr).1, fun u hu => hsub ((h x r hr).2 u hu)⟩

theorem EventBacked.mono {ev : ScentEvent} (h : EventBacked holders ev) (hsub : holders ⊆ more) :
    EventBacked more ev :=
  fun u hu => hsub (h u hu)

theorem eventBacked_record {ev : ScentEvent} (hev : ev = .discovered r ∨ ev = .updated r)
    (h : Backed holders r) : EventBacked holders ev := by
  intro u hu
  have hbase : u ∈ r.baseUrl := by
    grind [newBaseUrl]
  obtain rfl | rfl := hev
  · exact h u hbase
  · exact h u hbase

theorem storeBacked_set (h : StoreBacked holders s) {x : String} (hx : r.michiId = x)
    (hr : Backed holders r) : StoreBacked holders (s.set x r) := by
  intro y r' hget
  by_cases hxy : y = x
  · subst hxy
    cases (s.get_set_self y r).symm.trans hget
    exact ⟨hx, hr⟩
  · rw [s.get_set_ne hxy] at hget
    exact h y r' hget

/-- A call that is backed keeps the store so, and sends events that are. -/
theorem storeBacked_apply (h : StoreBacked holders s) {op : ScentOp} (hop : OpBacked holders op)
    (now : Instant) :
    StoreBacked holders (op.apply now s) ∧ ∀ ev ∈ op.events now s, EventBacked holders ev := by
  cases op with
  | observeSignedWithHome x deviceId name service roles source home fingerprint =>
    simp only [ScentOp.apply, ScentOp.events, ScentStore.observeSignedWithHome]
    split
    · next old hold =>
      obtain ⟨hid, hbacked⟩ := h x old hold
      refine ⟨storeBacked_set h hid hbacked, fun ev hev => ?_⟩
      split at hev <;> rw [List.mem_singleton] at hev
      · exact eventBacked_record (.inr hev) hbacked
      · exact eventBacked_record (.inl hev) hbacked
    · grind [ScentRecord, Backed, storeBacked_set, eventBacked_record]
  | observeMdnsCandidate info baseUrl source =>
    have hbacked : ∀ r : ScentRecord, r.michiId = info.michiId → r.baseUrl = some baseUrl →
        Backed holders r := by
      intro r hid hbase u hu
      rw [hbase] at hu
      cases hu
      rw [hid]
      exact hop
    simp only [ScentOp.apply, ScentOp.events, ScentStore.observeMdnsCandidate]
    split
    · next old hold =>
      obtain ⟨hid, hbase⟩ := ScentStore.sighted_base old info baseUrl source now
      rw [(h _ old hold).1] at hid
      have hnew := hbacked _ hid hbase
      refine ⟨storeBacked_set h hid hnew, fun ev hev => ?_⟩
      rw [List.mem_singleton] at hev
      split at hev
      · exact eventBacked_record (.inl hev) hnew
      split at hev
      · subst hev
        intro u hu
        cases hu
        exact hop
      · exact eventBacked_record (.inr hev) hnew
    · grind [storeBacked_set, eventBacked_record]
  | updateBaseUrl x newUrl source =>
    simp only [ScentOp.apply, ScentOp.events, ScentStore.updateBaseUrl]
    split
    · next old hold =>
      obtain ⟨hid, hbase⟩ := ScentStore.rebased_base old newUrl source now
      rw [(h x old hold).1] at hid
      refine ⟨storeBacked_set h hid fun u hu => ?_, fun ev hev => ?_⟩
      · rw [hbase] at hu
        cases hu
        rw [hid]
        exact hop
      · split at hev
        · rw [List.mem_singleton] at hev
          subst hev
          intro u hu
          cases hu
          exact hop
        · cases hev
    · exact ⟨h, fun ev hev => by cases hev⟩
  | markServerInfoVerified x =>
    refine ⟨?_, fun ev hev => by cases hev⟩
    simp only [ScentOp.apply, ScentStore.markServerInfoVerified]
    split
    · next r hr => exact storeBacked_set h (h x r hr).1 (h x r hr).2
    · exact h
  | checkExpirations =>
    constructor
    · intro x r' hget
      rw [ScentOp.apply, s.get_checkExpirations] at hget
      obtain ⟨r, hr, rfl⟩ := Option.map_eq_some_iff.mp hget
      obtain ⟨hid, hbase⟩ := ScentStore.expire_base x r now
      obtain ⟨hx, hbacked⟩ := h x r hr
      exact ⟨hid.trans hx, fun u hu => hid ▸ hbacked u (hbase ▸ hu)⟩
    · intro ev hev
      obtain ⟨⟨x, r⟩, hmem, hexpire⟩ := List.mem_filterMap.mp hev
      obtain ⟨hid, hbase⟩ := ScentStore.expire_base x r now
      obtain ⟨-, hbacked⟩ := h x r (AList.mem_lookup_iff.mpr hmem)
      obtain hev | rfl := ScentStore.expire_event hexpire
      · exact eventBacked_record (.inr hev) fun u hu => hid ▸ hbacked u (hbase ▸ hu)
      · intro u hu
        cases hu
  | get _ => exact ⟨h, fun ev hev => by cases hev⟩
  | list => exact ⟨h, fun ev hev => by cases hev⟩
  | listActiveAt => exact ⟨h, fun ev hev => by cases hev⟩
  | listSignedVerifiedAt => exact ⟨h, fun ev hev => by cases hev⟩

end Store

/-! ## What an event does to an entry -/

section Registry

variable {reg reg' : ReceiverRegistry} {ev : ScentEvent} {e e' : ReceiverRegistryEntry}

theorem knownAs_of_getMut {x : String} (h : reg.getMut x = some e)
    (hother : e.receiverId = x → knownAs e = x ∨ (e.michiId = none ∧ e.token = none)) :
    knownAs e = x := by
  obtain hkey | ⟨-, hmichi⟩ := Option.or_eq_some_iff.mp h
  · grind [ReceiverRegistry.entry_receiverId, knownAs]
  · grind [knownAs]

/-- An event leaves an entry as it is, or is about it. -/
theorem handled_entry (h : Handled reg ev reg') (hclear : Unmistaken reg ev)
    (he : e ∈ reg.receivers) (he' : reg'.entry e.receiverId = some e') :
    e' = e ∨ ((knownAs e = ev.subject ∨ (e.michiId = none ∧ e.token = none)) ∧
      knownAs e' = ev.subject ∧ e'.token = e.token ∧
      e'.baseUrl = (newBaseUrl ev).getD e.baseUrl) := by
  have hentry := ReceiverRegistry.entry_of_mem he
  cases h with
  | unchanged => exact .inl (Option.some.inj (he'.symm.trans hentry))
  | written presence hpresence found hget =>
    have hfound := ReceiverRegistry.mem_of_getMut hget
    rw [ReceiverRegistry.entry_update hfound] at he'
    split at he'
    · next hid =>
      obtain rfl := ReceiverRegistry.eq_of_receiverId he hfound hid
      have hknown := knownAs_of_getMut hget fun hid => hclear e he (.inl hid)
      cases he'
      exact .inr ⟨.inl hknown, hknown, rfl, rfl⟩
    · exact .inl (Option.some.inj (he'.symm.trans hentry))
  | adopted presence hpresence baseUrl hbase hget found hfound hsecond =>
    rw [ReceiverRegistry.entry_update hfound] at he'
    split at he'
    · next hid =>
      obtain rfl := ReceiverRegistry.eq_of_receiverId he hfound hid
      cases he'
      exact .inr ⟨hclear e he (.inr hsecond), rfl, rfl, by rw [hbase, Option.getD_some]⟩
    · exact .inl (Option.some.inj (he'.symm.trans hentry))
  | projected presence hpresence baseUrl hbase hget =>
    have hne : e.receiverId ≠ ev.subject := fun hid =>
      List.find?_eq_none.mp (Option.or_eq_none_iff.mp hget).1 e he (decide_eq_true hid)
    grind [ReceiverRegistry.entry_add_of_ne]

theorem mem_handled (h : Handled reg ev reg') (he' : e' ∈ reg'.receivers) :
    (∃ e ∈ reg.receivers, e.receiverId = e'.receiverId) ∨ e'.token = none := by
  cases h with
  | unchanged => exact .inl ⟨e', he', rfl⟩
  | written presence hpresence found hget =>
    grind [ReceiverRegistry.mem_updateAll]
  | adopted presence hpresence baseUrl hbase hget found hfound hsecond =>
    grind [ReceiverRegistry.mem_updateAll]
  | projected presence hpresence baseUrl hbase hget =>
    grind [ReceiverRegistry.mem_add]

variable {holders more : List (String × Url)}

/-- Every token is at an address where the holder of its entry's key has answered. -/
def TokensHome (holders : List (String × Url)) (reg : ReceiverRegistry) : Prop :=
  ∀ e ∈ reg.receivers, e.token ≠ none → (knownAs e, e.baseUrl) ∈ holders

theorem TokensHome.mono (h : TokensHome holders reg) (hsub : holders ⊆ more) :
    TokensHome more reg :=
  fun e he htoken => hsub (h e he htoken)

theorem handled_token (h : Handled reg ev reg') (hclear : Unmistaken reg ev)
    (hbacked : EventBacked holders ev) (he : e ∈ reg.receivers) (htoken : e.token ≠ none)
    (he' : reg'.entry e.receiverId = some e') :
    knownAs e' = knownAs e ∧ (e'.baseUrl ≠ e.baseUrl → (knownAs e, e'.baseUrl) ∈ holders) := by
  obtain rfl | ⟨hwho, hknown', -, hbase⟩ := handled_entry h hclear he he'
  · exact ⟨rfl, fun hne => absurd rfl hne⟩
  have hknown := hwho.resolve_right fun hbare => htoken hbare.2
  refine ⟨hknown'.trans hknown.symm, fun hne => ?_⟩
  cases hnew : newBaseUrl ev with
  | none =>
    rw [hnew, Option.getD_none] at hbase
    exact absurd hbase hne
  | some u =>
    rw [hnew, Option.getD_some] at hbase
    rw [hbase, hknown]
    exact hbacked u hnew

/-- A backed event leaves each token with its holder. -/
theorem tokensHome_handled (h : Handled reg ev reg') (hclear : Unmistaken reg ev)
    (hbacked : EventBacked holders ev) (hhome : TokensHome holders reg) :
    TokensHome holders reg' := by
  intro e' he' htoken'
  obtain ⟨e, he, hid⟩ | hnone := mem_handled h he'
  swap
  · exact absurd hnone htoken'
  have hentry' : reg'.entry e.receiverId = some e' := by
    rw [hid]
    exact ReceiverRegistry.entry_of_mem he'
  have htoken : e.token ≠ none := by
    obtain rfl | ⟨-, -, hkept, -⟩ := handled_entry h hclear he hentry'
    · exact htoken'
    · rwa [hkept] at htoken'
  obtain ⟨hknown, hmoved⟩ := handled_token h hclear hbacked he htoken hentry'
  rw [hknown]
  by_cases hsame : e'.baseUrl = e.baseUrl
  · rw [hsame]
    exact hhome e he htoken
  · exact hmoved hsame

end Registry

/-! ## What is on its way -/

section Moves

variable {holders : List (String × Url)} {w : Discovery}

/-- Each move whose call is backed keeps the store and the events so. -/
theorem backed_step (hstore : StoreBacked holders w.scent)
    (hpending : ∀ ev ∈ w.pending, EventBacked holders ev) {move : DiscoveryMove}
    (hop : ∀ c, move = .call c → OpBacked holders c.op) :
    StoreBacked holders (w.step move).scent ∧
      ∀ ev ∈ (w.step move).pending, EventBacked holders ev := by
  cases move with
  | call c =>
    obtain ⟨op, now⟩ := c
    grind [storeBacked_apply, Discovery.step, Discovery.pending]
  | send i =>
    simp only [Discovery.step]
    split
    · next ev hget =>
      refine ⟨(Discovery.scent_publish ev).symm ▸ hstore, fun ev' hev' => ?_⟩
      obtain hold | rfl := Discovery.mem_pending_publish hev'
      · refine hpending ev' ?_
        have hmem := fun h => List.mem_of_mem_eraseIdx (l := w.unsent) (i := i) (a := ev') h
        grind [Discovery.pending]
      · grind [Discovery.pending]
    · exact ⟨hstore, hpending⟩
  | sweepSend =>
    simp only [Discovery.step]
    split
    · next ev sweeping hsweeping =>
      refine ⟨(Discovery.scent_publish ev).symm ▸ hstore, fun ev' hev' => hpending ev' ?_⟩
      have hold := Discovery.mem_pending_publish hev'
      grind [Discovery.pending]
    · exact ⟨hstore, hpending⟩
  | subscribe =>
    simp only [Discovery.step]
    split <;> exact ⟨hstore, hpending⟩
  | goOn now =>
    have hturn := w.turn now
    simp only [Discovery.step]
    generalize w.bridge now = w' at hturn ⊢
    cases hturn with
    | idle => exact ⟨hstore, hpending⟩
    | listed =>
      refine ⟨hstore, fun ev hev => ?_⟩
      obtain hlisted | hrest := List.mem_append.mp hev
      · obtain ⟨r, hr, rfl⟩ := List.mem_map.mp hlisted
        obtain ⟨x, hx⟩ := ScentStore.mem_list.mp (List.mem_of_mem_filter hr)
        exact eventBacked_record (.inr rfl) (hstore x r hx).2
      · exact hpending ev (List.mem_append_right _ hrest)
    | reconciled record todo _ htodo =>
      grind [Discovery.pending]
    | told => exact ⟨hstore, hpending⟩
    | received ev channel _ hchannel =>
      grind [Discovery.pending]
  | authenticated receiverId token michiId => exact ⟨hstore, hpending⟩

end Moves

/-! ## The run -/

section Run

variable {w : Endpoints} {mv : EndpointMove} {deriveMichiId : String → Except String String}

structure EndpointInv (w : Endpoints) : Prop where
  store : StoreBacked w.holders w.discovery.scent
  pending : ∀ ev ∈ w.discovery.pending, EventBacked w.holders ev
  tokens : TokensHome w.holders w.discovery.registry

theorem holders_step (deriveMichiId : String → Except String String) (w : Endpoints)
    (mv : EndpointMove) : w.holders ⊆ (endpointStep deriveMichiId w mv).holders :=
  List.subset_append_right _ _

/-- The call of a genuine move is backed. -/
theorem opBacked_of_genuine (hmove : Genuine deriveMichiId w mv) {c : ScentCall}
    (hc : mv.discovery deriveMichiId = some (.call c)) :
    OpBacked (endpointStep deriveMichiId w mv).holders c.op := by
  cases mv with
  | announce x deviceId name service roles source home fingerprint now =>
    obtain ⟨op, hop, hcall⟩ := Option.map_eq_some_iff.mp hc
    cases hcall
    unfold handleAnnounce at hop
    split at hop
    · cases hop
      trivial
    · cases hop
  | sighting x probes now =>
    obtain ⟨⟨info, probe⟩, hfound, hcall⟩ := Option.map_eq_some_iff.mp hc
    cases hcall
    have hholds : probe.holdsKey = true := hmove _ hfound
    refine List.mem_append_left _ ?_
    grind [EndpointMove.answered]
  | sweep now =>
    cases hc
    trivial
  | send i => cases hc
  | sweepSend => cases hc
  | subscribe => cases hc
  | goOn now => cases hc
  | authenticated => cases hc
  | heartbeat => cases hc

/-- Only the bridge and an authentication change the registry. -/
theorem registry_step (w : Discovery) {move : DiscoveryMove} (hbridge : ∀ now, move ≠ .goOn now)
    (hauth : ∀ x token y, move ≠ .authenticated x token y) :
    (w.step move).registry = w.registry := by
  have hpublish : ∀ (w : Discovery) ev, (w.publish ev).registry = w.registry := by
    intro w ev
    obtain ⟨-, hsame⟩ | ⟨-, hsame⟩ | ⟨-, -, hsame⟩ := w.publish_cases ev <;> rw [hsame]
  cases move with
  | call c =>
    simp only [Discovery.step]
    split
    · rfl
    · split <;> rfl
  | send i =>
    grind [Discovery.step]
  | sweepSend =>
    grind [Discovery.step]
  | subscribe =>
    simp only [Discovery.step]
    split <;> rfl
  | goOn now => exact absurd rfl (hbridge now)
  | authenticated x token y => exact absurd rfl (hauth x token y)

theorem entry_of_authenticate {reg : ReceiverRegistry} {receiverId token : String}
    {michiId : Option String} {e e' : ReceiverRegistryEntry} (he : e ∈ reg.receivers)
    (he' : (reg.modify receiverId (Discovery.authenticate token michiId)).entry e.receiverId =
      some e') :
    e' = e ∨ (reg.getMut receiverId = some e ∧
      e' = Discovery.authenticate token michiId e) := by
  have hentry := ReceiverRegistry.entry_of_mem he
  cases hget : reg.getMut receiverId with
  | none =>
    grind [modify_of_none]
  | some found =>
    have hfound := ReceiverRegistry.mem_of_getMut hget
    rw [modify_of_getMut hget, ReceiverRegistry.entry_update hfound] at he'
    split at he'
    · next hid =>
      obtain rfl := ReceiverRegistry.eq_of_receiverId he hfound hid
      cases he'
      exact .inr ⟨rfl, rfl⟩
    · exact .inl (Option.some.inj (he'.symm.trans hentry))

theorem tokensHome_authenticated {receiverId token member : String} {baseUrl : Url}
    {michiId : Option String} (hhome : TokensHome w.holders w.discovery.registry)
    (hmove : Genuine deriveMichiId w (.authenticated receiverId token member baseUrl michiId)) :
    TokensHome ((member, baseUrl) :: w.holders)
      (w.discovery.registry.modify receiverId (Discovery.authenticate token michiId)) := by
  intro e' he' htoken'
  obtain ⟨e, he, rfl⟩ | ⟨e, hget, rfl⟩ : (∃ e ∈ w.discovery.registry.receivers, e' = e) ∨
      ∃ e, w.discovery.registry.getMut receiverId = some e ∧
        e' = Discovery.authenticate token michiId e := by
    obtain hold | ⟨e, hget, rfl⟩ := ReceiverRegistry.mem_modify he'
    · exact .inl ⟨e', hold, rfl⟩
    · exact .inr ⟨e, hget, rfl⟩
  · exact List.mem_cons_of_mem _ (hhome _ he htoken')
  · obtain ⟨hmember, hid, haddress⟩ := hmove e hget
    grind [Discovery.knownAs_authenticate, Discovery.authenticate]

/-- A move is one of these two, or leaves the registry. -/
theorem registry_cases (deriveMichiId : String → Except String String) (w : Endpoints)
    (mv : EndpointMove) :
    (∃ now, mv = .goOn now) ∨
    (∃ receiverId token member baseUrl michiId,
      mv = .authenticated receiverId token member baseUrl michiId) ∨
    (endpointStep deriveMichiId w mv).discovery.registry = w.discovery.registry := by
  have hcall : ∀ c, (w.discovery.step (.call c)).registry = w.discovery.registry :=
    fun c => registry_step _ (fun _ => nofun) (fun _ _ _ => nofun)
  cases mv with
  | announce x deviceId name service roles source home fingerprint now =>
    grind [endpointStep, EndpointMove.discovery, handleAnnounce]
  | sighting x probes now =>
    refine .inr (.inr ?_)
    simp only [endpointStep, EndpointMove.discovery]
    cases handleResolvedService deriveMichiId x probes with
    | none => rfl
    | some found => exact hcall _
  | sweep now => exact .inr (.inr (hcall _))
  | send i => exact .inr (.inr (registry_step _ (fun _ => nofun) (fun _ _ _ => nofun)))
  | sweepSend => exact .inr (.inr (registry_step _ (fun _ => nofun) (fun _ _ _ => nofun)))
  | subscribe => exact .inr (.inr (registry_step _ (fun _ => nofun) (fun _ _ _ => nofun)))
  | goOn now => exact .inl ⟨now, rfl⟩
  | authenticated receiverId token member baseUrl michiId => exact .inr (.inl ⟨_, _, _, _, _, rfl⟩)
  | heartbeat receiverId => exact .inr (.inr rfl)

/-- Each genuine move keeps the invariant. -/
theorem endpoint_inv_step (h : EndpointInv w) (hmove : Genuine deriveMichiId w mv) :
    EndpointInv (endpointStep deriveMichiId w mv) := by
  have hsub := holders_step deriveMichiId w mv
  have hstore := h.store.mono hsub
  have hpending := fun ev hev => (h.pending ev hev).mono hsub
  have htokens := h.tokens.mono hsub
  have hbacked : StoreBacked (endpointStep deriveMichiId w mv).holders
        (endpointStep deriveMichiId w mv).discovery.scent ∧
      ∀ ev ∈ (endpointStep deriveMichiId w mv).discovery.pending,
        EventBacked (endpointStep deriveMichiId w mv).holders ev := by
    grind [opBacked_of_genuine, endpointStep, backed_step]
  refine ⟨hbacked.1, hbacked.2, ?_⟩
  obtain ⟨now, rfl⟩ | ⟨receiverId, token, member, baseUrl, michiId, rfl⟩ | hsame :=
    registry_cases deriveMichiId w mv
  · obtain hsame | ⟨ev, hnext, hhandled⟩ := w.discovery.registry_bridge now
    · exact fun e he => htokens e (hsame ▸ he)
    · have hheld := hpending ev (Discovery.mem_pending_of_next hnext)
      exact tokensHome_handled hhandled (hmove ev hnext) hheld htokens
  · exact tokensHome_authenticated h.tokens hmove
  · exact hsame ▸ htokens

/-- Under the invariant a genuine move keeps the endpoints. -/
theorem endpointsKept_of_genuine (h : EndpointInv w) (hmove : Genuine deriveMichiId w mv) :
    EndpointsKept deriveMichiId w mv := by
  have hsub := holders_step deriveMichiId w mv
  refine ⟨?_, ?_, ?_⟩
  · intro e he htoken e' he' hmoved
    obtain ⟨now, rfl⟩ | ⟨receiverId, token, member, baseUrl, michiId, rfl⟩ | hsame :=
      registry_cases deriveMichiId w mv
    · obtain hsame | ⟨ev, hnext, hhandled⟩ := w.discovery.registry_bridge now
      · have hentry := (congrArg (ReceiverRegistry.entry · e.receiverId) hsame).symm.trans he'
        grind [ReceiverRegistry.entry_of_mem]
      · have hheld := (h.pending ev (Discovery.mem_pending_of_next hnext)).mono hsub
        exact (handled_token hhandled (hmove ev hnext) hheld he htoken he').2 hmoved
    · obtain rfl | ⟨-, rfl⟩ := entry_of_authenticate he he'
      · exact absurd rfl hmoved
      · exact absurd rfl hmoved
    · grind [ReceiverRegistry.entry_of_mem]
  · cases mv with
    | goOn now => ?_
    | _ => trivial
    intro ev hnext e he y hy hother e' he'
    obtain hsame | ⟨ev', hnext', hhandled⟩ := w.discovery.registry_bridge now
    · have hentry := (congrArg (ReceiverRegistry.entry · e.receiverId) hsame).symm.trans he'
      grind [ReceiverRegistry.entry_of_mem]
    · obtain rfl := Option.some.inj (hnext'.symm.trans hnext)
      obtain rfl | ⟨hwho, -⟩ := handled_entry hhandled (hmove ev' hnext) he he'
      · exact ⟨rfl, rfl⟩
      · -- an entry that has another michi id is not known as the subject
        obtain hknown | ⟨hnone, -⟩ := hwho
        · rw [knownAs, hy, Option.getD_some] at hknown
          exact absurd hknown hother
        · rw [hnone] at hy
          cases hy
  · cases mv with
    | heartbeat receiverId => ?_
    | _ => trivial
    intro e he htoken
    refine h.tokens e ?_ htoken
    obtain hkey | ⟨-, hmichi⟩ := Option.or_eq_some_iff.mp he
    · exact List.mem_of_find?_eq_some hkey
    · exact List.mem_of_find?_eq_some hmichi

theorem endpoint_inv_start (registry : ReceiverRegistry) : EndpointInv (.start registry) where
  store x r hr := by
    rw [show (Endpoints.start registry).discovery.scent.get x = none from ScentStore.get_new x] at hr
    cases hr
  pending ev hev := nomatch hev
  tokens e he htoken :=
    List.mem_map.mpr ⟨e, List.mem_filter.mpr ⟨he, Option.isSome_iff_ne_none.mpr htoken⟩, rfl⟩

end Run

/-- Endpoint integrity: as long as the moves are genuine, whatever else is announced and sighted and in
whatever order it is handled, the address of an entry with a token becomes only one where the holder of
its key has answered, an event leaves the entries known under another michi id, and no token goes
elsewhere. -/
theorem endpoints_kept (deriveMichiId : String → Except String String) (registry : ReceiverRegistry)
    (moves : List EndpointMove)
    (hmoves : Trace.Obeys (endpointStep deriveMichiId) (Genuine deriveMichiId) (.start registry)
      moves) :
    Trace.Obeys (endpointStep deriveMichiId) (EndpointsKept deriveMichiId) (.start registry)
      moves :=
  Trace.obeys_of_invariant (fun _ _ h hmove => endpoint_inv_step h hmove)
    (fun _ _ h hmove => endpointsKept_of_genuine h hmove) (endpoint_inv_start registry) hmoves


/-! ### A receiver that moves, and two that are taken -/

def peerOf (publicKey : String) : Except String String :=
  if publicKey = "key of kitchen" then .ok "kitchen"
  else if publicKey = "key of mallory" then .ok "mallory"
  else .error "invalid public key"

def served (michiId publicKey serverId : String) : Except String ServerInfoBody :=
  .ok ⟨some michiId, some publicKey, some "michi-stream-hifi", some "v1-lite",
    some ["audio_receiver"], some serverId, none⟩

def pairedKitchen : ReceiverRegistry where
  receivers := [{
    receiverId := "stream-01", michiId := some "kitchen", baseUrl := "http://10.0.0.20:80/"
    paired := true, token := some "bearer" }]

def sightedRun (michiId : String) (probe : Probe) : List EndpointMove :=
  [.subscribe, .goOn 0,
    .announce "kitchen" "stream-01" "Kitchen" "michi-stream-hifi" ["audio_receiver"] none none none 1,
    .send 0, .goOn 1, .sighting (some michiId) [probe] 2, .send 0, .goOn 2, .heartbeat "stream-01"]

def movedHouse : List EndpointMove :=
  sightedRun "kitchen"
    ⟨"http://10.0.0.30:80/", "10.0.0.30:80", served "kitchen" "key of kitchen" "stream-01", true⟩

def replayedKey : List EndpointMove :=
  sightedRun "kitchen"
    ⟨"http://10.0.0.66:80/", "10.0.0.66:80", served "kitchen" "key of kitchen" "stream-01", false⟩

def borrowedDeviceId : List EndpointMove :=
  sightedRun "mallory"
    ⟨"http://10.0.0.66:80/", "10.0.0.66:80", served "mallory" "key of mallory" "stream-01", true⟩

/-- The kitchen is seen at another address, with its own key. -/
theorem endpoints_kept_moved_house :
    Trace.Obeys (endpointStep peerOf) (EndpointsKept peerOf) (.start pairedKitchen) movedHouse :=
  endpoints_kept peerOf pairedKitchen movedHouse (by decide +kernel)

/-- In both runs the token ends up at the other address; in the second the entry has also taken the
other michi id. -/
theorem endpoints_taken :
    (¬ Trace.Obeys (endpointStep peerOf) (EndpointsKept peerOf) (.start pairedKitchen)
        replayedKey ∧
      ((Trace.run (endpointStep peerOf) (.start pairedKitchen) replayedKey).discovery.registry.get
          "kitchen").map (fun e => (e.token, e.baseUrl)) =
        some (some "bearer", "http://10.0.0.66:80/")) ∧
    (¬ Trace.Obeys (endpointStep peerOf) (EndpointsKept peerOf) (.start pairedKitchen)
        borrowedDeviceId ∧
      ((Trace.run (endpointStep peerOf) (.start pairedKitchen)
          borrowedDeviceId).discovery.registry.get "stream-01").map
          (fun e => (e.michiId, e.token, e.baseUrl)) =
        some (some "mallory", some "bearer", "http://10.0.0.66:80/")) := by
  decide +kernel

end MichiServer.Receivers
