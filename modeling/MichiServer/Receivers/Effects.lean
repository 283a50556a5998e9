import MichiServer.Receivers.Bridge

/-!
# What an event says of its record

An operation that changes what the registry shows of a record sends an event about it, and the event
says what the record then is: its presence, and its address unless that is as it was. The operations
are those of the server, on stream receivers; a base URL update is of a record that is online and has
an event of its own or changes nothing that is shown.
-/

namespace MichiServer.Receivers

open Connect

def shownPresence (r : ScentRecord) : ReceiverPresence :=
  if r.online then targetPresence r.presenceSource r.verified else .offline

/-- The record is of a stream receiver, and shows its source while it is online. -/
def Sound (r : ScentRecord) : Prop :=
  isStreamService r.service = true ∧ hasAudioRole r.roles = true ∧
    (r.online = true → r.verified = true ∨ r.presenceSource = .mdnsProvisional)

def StoreSound (s : ScentStore) : Prop := ∀ x r, s.get x = some r → r.michiId = x ∧ Sound r

def OfStream : ScentOp → Prop
  | .observeSignedWithHome _ _ _ service roles _ _ _ =>
    isStreamService service = true ∧ hasAudioRole roles = true
  | .observeMdnsCandidate info _ _ =>
    isStreamService info.service = true ∧ hasAudioRole info.roles = true
  | _ => True

instance : DecidablePred OfStream := fun op => by
  cases op <;> simp only [OfStream] <;> infer_instance

/-- A base URL update finds its record online, and changes the address or leaves the source. -/
def Noticed (s : ScentStore) (now : Instant) : ScentOp → Prop
  | .updateBaseUrl michiId newUrl _ => ∀ r ∈ s.get michiId, r.online = true ∧
      (r.baseUrl ≠ some newUrl ∨ r.isSignedFresh now = true ∨
        r.presenceSource = .mdnsProvisional)
  | _ => True

instance (s : ScentStore) (now : Instant) : DecidablePred (Noticed s now) := fun op => by
  cases op <;> simp only [Noticed] <;> infer_instance

/-- The operation changes the record of a peer: a sweep, if it finds it expired. -/
def touches (s : ScentStore) (now : Instant) (x : String) : ScentOp → Bool
  | .checkExpirations => (s.get x).any fun r => (ScentStore.expire x r now).2.isSome
  | op => op.writes x

/-- What an operation does about a peer: nothing that is shown, or it leaves a record and sends one
event that says so. -/
inductive Effect (x : String) (old new : Option ScentRecord) (events : List ScentEvent) : Prop where
  | silent (hevents : ∀ ev ∈ events, ev.subject ≠ x)
      (hshown : new.map (fun r => (shownPresence r, r.baseUrl)) =
        old.map fun r => (shownPresence r, r.baseUrl))
  | told (r : ScentRecord) (hnew : new = some r) (ev : ScentEvent) (hev : ev ∈ events)
      (hsubject : ev.subject = x) (honly : ∀ ev' ∈ events, ev'.subject = x → ev' = ev)
      (hbase : ∀ o, old = some o → o.baseUrl ≠ none → r.baseUrl ≠ none)
      (hbrings : newBaseUrl ev ≠ none → r.baseUrl ≠ none)
      (hpresence : r.baseUrl ≠ none → newPresence ev = some (shownPresence r))
      (haddress : r.baseUrl ≠ none → newBaseUrl ev = r.baseUrl ∨
        (newBaseUrl ev = none ∧ old.bind ScentRecord.baseUrl = r.baseUrl))

section Records

variable {s : ScentStore} {x : String} {r : ScentRecord} {ev : ScentEvent}

theorem shown_of_sound (h : Sound r) (honline : r.online = true) : Shown r :=
  ⟨h.2.2 honline, h.1, h.2.1⟩

theorem newPresence_record (hev : ev = .discovered r ∨ ev = .updated r) (h : Sound r)
    (honline : r.online = true) (hbase : r.baseUrl ≠ none) :
    newPresence ev = some (shownPresence r) := by
  grind [shown_of_sound, newPresence, shownPresence]

theorem newBaseUrl_record (hev : ev = .discovered r ∨ ev = .updated r) (h : Sound r)
    (honline : r.online = true) : newBaseUrl ev = r.baseUrl := by
  grind [shown_of_sound, newBaseUrl]

theorem effect_record {old : Option ScentRecord} (hev : ev = .discovered r ∨ ev = .updated r)
    (hid : r.michiId = x) (h : Sound r) (honline : r.online = true)
    (hbase : ∀ o, old = some o → o.baseUrl ≠ none → r.baseUrl ≠ none) :
    Effect x old (some r) [ev] := by
  have haddress := newBaseUrl_record hev h honline
  refine .told r rfl ev (List.mem_singleton_self ev) ?_ (fun _ h _ => List.mem_singleton.mp h)
    hbase (haddress ▸ id) (newPresence_record hev h honline) fun _ => .inl haddress
  obtain rfl | rfl := hev
  · exact hid
  · exact hid

theorem effect_endpoint {old : Option ScentRecord} {was : Option Url} {u : Url}
    (honline : r.online = true) (hbase : r.baseUrl = some u) :
    Effect x old (some r) [.endpointChanged x was u r.presenceSource r.verified] := by
  refine .told r rfl _ (List.mem_singleton_self _) rfl (fun _ h _ => List.mem_singleton.mp h) ?_ ?_ ?_
    fun _ => .inl hbase.symm
  · exact fun _ _ _ => by simp [hbase]
  · exact fun _ => by simp [hbase]
  · intro _
    rw [shownPresence, honline, if_pos rfl]
    rfl

theorem effect_other {y : String} {s' : ScentStore} {events : List ScentEvent} (hne : x ≠ y)
    (hget : s'.get x = s.get x) (hevents : ∀ ev ∈ events, ev.subject = y) :
    Effect x (s.get x) (s'.get x) events :=
  .silent (fun ev hev h => hne (h.symm.trans (hevents ev hev))) (by rw [hget])

theorem storeSound_set (h : StoreSound s) (hid : r.michiId = x) (hr : Sound r) :
    StoreSound (s.set x r) := by
  intro y r' hget
  by_cases hxy : y = x
  · subst hxy
    cases (s.get_set_self y r).symm.trans hget
    exact ⟨hid, hr⟩
  · rw [s.get_set_ne hxy] at hget
    exact h y r' hget

end Records

/-! ## One operation -/

structure Sends (s : ScentStore) (op : ScentOp) (now : Instant) : Prop where
  sound : StoreSound (op.apply now s)
  effect : ∀ x, Effect x (s.get x) ((op.apply now s).get x) (op.events now s)
  touched : ∀ ev ∈ op.events now s, touches s now ev.subject op = true
  apart : ((op.events now s).map ScentEvent.subject).Nodup

section Ops

variable {s : ScentStore} {op : ScentOp} {now : Instant}

theorem sends_of_set (h : StoreSound s) {y : String} (r : ScentRecord) (ev : ScentEvent)
    (happly : op.apply now s = s.set y r) (hevents : op.events now s = [ev]) (hid : r.michiId = y)
    (hr : Sound r) (hsubject : ev.subject = y) (htouches : touches s now y op = true)
    (heffect : Effect y (s.get y) (some r) [ev]) : Sends s op now where
  sound := happly ▸ storeSound_set h hid hr
  effect x := by
    rw [happly, hevents]
    by_cases hxy : x = y
    · subst hxy
      rw [s.get_set_self]
      exact heffect
    · exact effect_other hxy (s.get_set_ne hxy r) fun _ hev => by
        rw [List.mem_singleton.mp hev, hsubject]
  touched ev' hev' := by
    grind
  apart := by
    rw [hevents]
    exact List.nodup_singleton _

theorem sends_nothing (h : StoreSound (op.apply now s)) (hevents : op.events now s = [])
    (hshown : ∀ x, ((op.apply now s).get x).map (fun r => (shownPresence r, r.baseUrl)) =
      (s.get x).map fun r => (shownPresence r, r.baseUrl)) : Sends s op now where
  sound := h
  effect x := .silent (fun ev hev => by rw [hevents] at hev; cases hev) (hshown x)
  touched ev hev := by rw [hevents] at hev; cases hev
  apart := by
    rw [hevents]
    exact List.nodup_nil

/-- A signed announcement sends what it changes. -/
theorem sends_observeSigned (h : StoreSound s) (y deviceId name service : String)
    (roles : List String) (source : Option SocketAddr) (home fingerprint : Option String)
    (hservice : isStreamService service = true) (hroles : hasAudioRole roles = true) :
    Sends s (.observeSignedWithHome y deviceId name service roles source home fingerprint) now := by
  have htouches : touches s now y
      (.observeSignedWithHome y deviceId name service roles source home fingerprint) = true :=
    decide_eq_true rfl
  cases hold : s.get y with
  | some old =>
    let r : ScentRecord := { old with
      lastSignedSeen := some now
      presenceSource := .whiskerSigned
      online := true
      verified := true
      deviceId, name, service, roles
      michiHomeId := home
      membershipFingerprint := fingerprint
      endpoints := ScentStore.withSource old.endpoints source }
    have hid : r.michiId = y := (h y old hold).1
    have hr : Sound r := ⟨hservice, hroles, fun _ => .inl rfl⟩
    have hbase : ∀ o, s.get y = some o → o.baseUrl ≠ none → r.baseUrl ≠ none := by
      intro o ho
      cases hold.symm.trans ho
      exact id
    cases honline : old.online with
    | true =>
      refine sends_of_set h r (.updated r) ?_ ?_ hid hr hid htouches
        (effect_record (.inr rfl) hid hr rfl hbase)
      · simp only [ScentOp.apply, ScentStore.observeSignedWithHome, hold, r]
      · simp only [ScentOp.events, ScentStore.observeSignedWithHome, hold, honline, if_true, r]
    | false =>
      refine sends_of_set h r (.discovered r) ?_ ?_ hid hr hid htouches
        (effect_record (.inl rfl) hid hr rfl hbase)
      · simp only [ScentOp.apply, ScentStore.observeSignedWithHome, hold, r]
      · grind [ScentOp.events, ScentStore.observeSignedWithHome]
  | none =>
    let r : ScentRecord := {
      michiId := y, deviceId, name, service, roles
      verified := true
      presenceSource := .whiskerSigned
      endpoints := ScentStore.withSource [] source
      baseUrl := none
      lastSignedSeen := some now
      lastMdnsSeen := none
      serverInfoVerifiedAt := none
      online := true
      michiHomeId := home
      membershipFingerprint := fingerprint }
    have hr : Sound r := ⟨hservice, hroles, fun _ => .inl rfl⟩
    refine sends_of_set h r (.discovered r) ?_ ?_ rfl hr rfl htouches
      (effect_record (.inl rfl) rfl hr rfl fun o ho => ?_)
    · simp only [ScentOp.apply, ScentStore.observeSignedWithHome, hold, r]
    · simp only [ScentOp.events, ScentStore.observeSignedWithHome, hold, r]
    · rw [hold] at ho
      cases ho

theorem sound_sighted {old : ScentRecord} {info : VerifiedServerInfo} {baseUrl : Url}
    {source : Option SocketAddr} (h : Sound old) (hservice : isStreamService info.service = true)
    (hroles : hasAudioRole info.roles = true) :
    Sound (ScentStore.sighted old info baseUrl source now) := by
  unfold ScentStore.sighted
  dsimp only
  split
  · exact ⟨h.1, h.2.1, fun _ => .inl rfl⟩
  · exact ⟨hservice, hroles, fun _ => .inr rfl⟩

/-- A sighting sends what it changes. -/
theorem sends_observe_mdns (h : StoreSound s) (info : VerifiedServerInfo) (baseUrl : Url)
    (source : Option SocketAddr) (hservice : isStreamService info.service = true)
    (hroles : hasAudioRole info.roles = true) :
    Sends s (.observeMdnsCandidate info baseUrl source) now := by
  have htouches : touches s now info.michiId (.observeMdnsCandidate info baseUrl source) = true :=
    decide_eq_true rfl
  cases hold : s.get info.michiId with
  | some old =>
    let r := ScentStore.sighted old info baseUrl source now
    obtain ⟨holdId, hsound⟩ := h _ old hold
    obtain ⟨hsame, hurl⟩ := ScentStore.sighted_base old info baseUrl source now
    have hid : r.michiId = info.michiId := hsame.trans holdId
    have hr : Sound r := sound_sighted hsound hservice hroles
    have honline : r.online = true := ScentStore.sighted_online ..
    have hbase : ∀ o, s.get info.michiId = some o → o.baseUrl ≠ none → r.baseUrl ≠ none :=
      fun _ _ _ hnone => by cases hurl.symm.trans hnone
    have happly : (ScentOp.observeMdnsCandidate info baseUrl source).apply now s =
        s.set info.michiId r := by
      simp only [ScentOp.apply, ScentStore.observeMdnsCandidate, hold, r]
    by_cases hback : old.online = true
    · by_cases hmoved : old.baseUrl = some baseUrl
      · refine sends_of_set h r (.updated r) happly ?_ hid hr hid htouches
          (effect_record (.inr rfl) hid hr honline hbase)
        simp [ScentOp.events, ScentStore.observeMdnsCandidate, hold, hback, hmoved, r]
      · refine sends_of_set h r (.endpointChanged info.michiId old.baseUrl baseUrl
          r.presenceSource r.verified) happly ?_ hid hr rfl htouches (effect_endpoint honline hurl)
        simp [ScentOp.events, ScentStore.observeMdnsCandidate, hold, hback, hmoved, r]
    · refine sends_of_set h r (.discovered r) happly ?_ hid hr hid htouches
        (effect_record (.inl rfl) hid hr honline hbase)
      simp [ScentOp.events, ScentStore.observeMdnsCandidate, hold, hback, r]
  | none =>
    let r : ScentRecord := {
      michiId := info.michiId
      deviceId := info.deviceId
      name := info.name
      service := info.service
      roles := info.roles
      verified := false
      presenceSource := .mdnsProvisional
      endpoints := ScentStore.withSource [] source
      baseUrl := some baseUrl
      lastSignedSeen := none
      lastMdnsSeen := some now
      serverInfoVerifiedAt := some now
      online := true
      michiHomeId := none
      membershipFingerprint := none }
    have hr : Sound r := ⟨hservice, hroles, fun _ => .inr rfl⟩
    refine sends_of_set h r (.discovered r) ?_ ?_ rfl hr rfl htouches
      (effect_record (.inl rfl) rfl hr rfl fun _ _ _ => by simp [r])
    · simp only [ScentOp.apply, ScentStore.observeMdnsCandidate, hold, r]
    · simp only [ScentOp.events, ScentStore.observeMdnsCandidate, hold, r]

theorem rebased_source (old : ScentRecord) (newUrl : Url) (source : Option SocketAddr)
    (now : Instant) :
    (ScentStore.rebased old newUrl source now).service = old.service ∧
    (ScentStore.rebased old newUrl source now).roles = old.roles ∧
    ((old.isSignedFresh now = true ∧
        (ScentStore.rebased old newUrl source now).presenceSource = old.presenceSource ∧
        (ScentStore.rebased old newUrl source now).verified = old.verified) ∨
      (old.isSignedFresh now = false ∧
        (ScentStore.rebased old newUrl source now).presenceSource = .mdnsProvisional)) := by
  unfold ScentStore.rebased
  dsimp only
  split
  · next hfresh => exact ⟨rfl, rfl, .inl ⟨hfresh, rfl, rfl⟩⟩
  · next hstale => exact ⟨rfl, rfl, .inr ⟨Bool.eq_false_iff.mpr hstale, rfl⟩⟩

/-- A new base URL that is noticed is sent. -/
theorem sends_updateBaseUrl (h : StoreSound s) (y : String) (newUrl : Url)
    (source : Option SocketAddr) (hnoticed : Noticed s now (.updateBaseUrl y newUrl source)) :
    Sends s (.updateBaseUrl y newUrl source) now := by
  cases hold : s.get y with
  | none =>
    have happly : (ScentOp.updateBaseUrl y newUrl source).apply now s = s := by
      simp only [ScentOp.apply, ScentStore.updateBaseUrl, hold]
    grind [sends_nothing, ScentOp.events, ScentStore.updateBaseUrl]
  | some old =>
    obtain ⟨hback, hwhich⟩ := hnoticed old hold
    obtain ⟨holdId, hsound⟩ := h y old hold
    let r := ScentStore.rebased old newUrl source now
    obtain ⟨hservice, hroles, hsource⟩ := rebased_source old newUrl source now
    obtain ⟨hsame, hurl⟩ := ScentStore.rebased_base old newUrl source now
    have hid : r.michiId = y := hsame.trans holdId
    have honline : r.online = true := (ScentStore.rebased_online ..).trans hback
    have hr : Sound r := by
      refine ⟨(congrArg _ hservice).trans hsound.1, (congrArg _ hroles).trans hsound.2.1, fun _ => ?_⟩
      obtain ⟨-, hkept, hverified⟩ | ⟨-, hprovisional⟩ := hsource
      · exact (hsound.2.2 hback).imp hverified.trans hkept.trans
      · exact .inr hprovisional
    have happly : (ScentOp.updateBaseUrl y newUrl source).apply now s = s.set y r := by
      simp only [ScentOp.apply, ScentStore.updateBaseUrl, hold, r]
    by_cases hmoved : old.baseUrl = some newUrl
    · refine sends_nothing (happly ▸ storeSound_set h hid hr) ?_ fun x => ?_
      · simp [ScentOp.events, ScentStore.updateBaseUrl, hold, hmoved]
      · rw [happly]
        by_cases hxy : x = y
        · subst hxy
          have hshown : shownPresence r = shownPresence old := by
            rw [shownPresence, shownPresence, honline, hback, if_pos rfl, if_pos rfl]
            obtain ⟨-, hkept, hverified⟩ | ⟨hstale, hprovisional⟩ := hsource
            · grind
            · -- the announcement is stale, so the source was provisional
              grind [targetPresence]
          rw [s.get_set_self, hold, Option.map_some, Option.map_some, hshown,
            show r.baseUrl = _ from hurl, hmoved]
        · rw [s.get_set_ne hxy]
    · refine sends_of_set h r (.endpointChanged y old.baseUrl newUrl r.presenceSource
        r.verified) happly ?_ hid hr rfl (decide_eq_true rfl) (effect_endpoint honline hurl)
      simp [ScentOp.events, ScentStore.updateBaseUrl, hold, hmoved, r]

theorem sends_mark (h : StoreSound s) (y : String) :
    Sends s (.markServerInfoVerified y) now := by
  cases hold : s.get y with
  | none =>
    have happly : (ScentOp.markServerInfoVerified y).apply now s = s := by
      simp only [ScentOp.apply, ScentStore.markServerInfoVerified, hold]
    exact sends_nothing (by rwa [happly]) rfl fun x => by rw [happly]
  | some old =>
    have happly : (ScentOp.markServerInfoVerified y).apply now s =
        s.set y { old with serverInfoVerifiedAt := some now } := by
      simp only [ScentOp.apply, ScentStore.markServerInfoVerified, hold]
    refine sends_nothing (happly ▸ storeSound_set h (h y old hold).1 (h y old hold).2) rfl
      fun x => ?_
    rw [happly]
    by_cases hxy : x = y
    · subst hxy
      rw [s.get_set_self, hold]
      rfl
    · rw [s.get_set_ne hxy]

end Ops

/-! ## The sweep -/

section Sweep

variable {s : ScentStore} {now : Instant} {x : String} {r : ScentRecord}

theorem expire_cases (x : String) (r : ScentRecord) (now : Instant) :
    ScentStore.expire x r now = (r, none) ∨
    (∃ r', ScentStore.expire x r now = (r', some (.updated r')) ∧ r'.online = true ∧
      r'.presenceSource = .mdnsProvisional ∧ r'.michiId = r.michiId ∧
      r'.baseUrl = r.baseUrl ∧ r'.service = r.service ∧ r'.roles = r.roles) ∨
    (∃ r', ScentStore.expire x r now = (r', some (.offline x)) ∧ r'.online = false ∧
      r'.michiId = r.michiId ∧ r'.baseUrl = r.baseUrl ∧ r'.service = r.service ∧
      r'.roles = r.roles) := by
  grind [ScentStore.expire]

theorem mem_sweep {ev : ScentEvent} :
    ev ∈ ScentOp.events .checkExpirations now s ↔
      ∃ y r, s.get y = some r ∧ (ScentStore.expire y r now).2 = some ev := by
  constructor
  · intro hev
    obtain ⟨⟨y, r⟩, hmem, hexpire⟩ := List.mem_filterMap.mp hev
    exact ⟨y, r, AList.mem_lookup_iff.mpr hmem, hexpire⟩
  · rintro ⟨y, r, hget, hexpire⟩
    exact List.mem_filterMap.mpr ⟨⟨y, r⟩, AList.mem_lookup_iff.mp hget, hexpire⟩

theorem subject_of_expire {ev : ScentEvent} (hid : r.michiId = x)
    (h : (ScentStore.expire x r now).2 = some ev) : ev.subject = x := by
  obtain hsame | ⟨r', hdown, -, -, hid', -⟩ | ⟨r', hoff, -⟩ := expire_cases x r now
  · rw [hsame] at h
    cases h
  · rw [hdown] at h
    cases h
    exact hid'.trans hid
  · rw [hoff] at h
    cases h
    rfl

/-- A sweep sends what it changes of each record. -/
theorem effect_sweep (h : StoreSound s) (x : String) :
    Effect x (s.get x) ((ScentOp.apply .checkExpirations now s).get x)
      (ScentOp.events .checkExpirations now s) := by
  have hget : (ScentOp.apply .checkExpirations now s).get x =
      (s.get x).map fun r => (ScentStore.expire x r now).1 := s.get_checkExpirations now x
  -- an event about the peer is the one that is sent for its record
  have habout : ∀ ev ∈ ScentOp.events .checkExpirations now s, ev.subject = x →
      ∃ r, s.get x = some r ∧ (ScentStore.expire x r now).2 = some ev := by
    intro ev hev hsubject
    obtain ⟨y, r, hy, hexpire⟩ := mem_sweep.mp hev
    obtain rfl := (subject_of_expire (h y r hy).1 hexpire).symm.trans hsubject
    exact ⟨r, hy, hexpire⟩
  rw [hget]
  cases hold : s.get x with
  | none =>
    refine .silent (fun ev hev hsubject => ?_) rfl
    grind
  | some r =>
    obtain ⟨hid, hservice, hroles, hsource⟩ := h x r hold
    have honly : ∀ {ev}, (ScentStore.expire x r now).2 = some ev →
        ∀ ev' ∈ ScentOp.events .checkExpirations now s, ev'.subject = x → ev' = ev := by
      grind
    obtain hsame | ⟨r', hdown, honline, hprovisional, hid', hbase', hservice', hroles'⟩ |
      ⟨r', hoff, honline, hid', hbase', hservice', hroles'⟩ := expire_cases x r now
    · refine .silent (fun ev hev hsubject => ?_) (by rw [Option.map_some, hsame])
      grind
    · have hev : (ScentStore.expire x r now).2 = some (.updated r') := by rw [hdown]
      have hsound : Sound r' := ⟨hservice' ▸ hservice, hroles' ▸ hroles, fun _ => .inr hprovisional⟩
      have haddress : newBaseUrl (.updated r') = r'.baseUrl :=
        newBaseUrl_record (.inr rfl) hsound honline
      refine .told r' (by rw [Option.map_some, hdown]) _ (mem_sweep.mpr ⟨x, r, hold, hev⟩)
        (hid'.trans hid) (honly hev) ?_ (haddress ▸ id)
        (newPresence_record (.inr rfl) hsound honline) fun _ => .inl haddress
      intro o ho
      cases ho
      exact hbase' ▸ id
    · have hev : (ScentStore.expire x r now).2 = some (.offline x) := by rw [hoff]
      refine .told r' (by rw [Option.map_some, hoff]) _ (mem_sweep.mpr ⟨x, r, hold, hev⟩) rfl
        (honly hev) ?_ (fun hno => absurd rfl hno) (fun _ => ?_) fun _ => .inr ⟨rfl, hbase'.symm⟩
      · grind
      · rw [shownPresence, honline]
        rfl

theorem sound_sweep (h : StoreSound s) : StoreSound (ScentOp.apply .checkExpirations now s) := by
  intro x r' hget
  obtain ⟨r, hold, rfl⟩ := Option.map_eq_some_iff.mp ((s.get_checkExpirations now x).symm.trans hget)
  obtain ⟨hid, hservice, hroles, hsource⟩ := h x r hold
  obtain hsame | ⟨r', hdown, honline, hprovisional, hid', -, hservice', hroles'⟩ |
    ⟨r', hoff, honline, hid', -, hservice', hroles'⟩ := expire_cases x r now
  · rw [hsame]
    exact ⟨hid, hservice, hroles, hsource⟩
  · rw [hdown]
    exact ⟨hid'.trans hid, hservice' ▸ hservice, hroles' ▸ hroles, fun _ => .inr hprovisional⟩
  · rw [hoff]
    refine ⟨hid'.trans hid, hservice' ▸ hservice, hroles' ▸ hroles, fun hon => ?_⟩
    rw [show r'.online = true from hon] at honline
    cases honline

theorem sublist_filterMap {α β γ : Type} {f : α → Option β} {g : β → γ} {k : α → γ} {l : List α}
    (h : ∀ a ∈ l, ∀ b, f a = some b → g b = k a) : ((l.filterMap f).map g).Sublist (l.map k) := by
  induction l with
  | nil => exact .slnil
  | cons a l ih =>
    grind

theorem sends_sweep (h : StoreSound s) : Sends s .checkExpirations now where
  sound := sound_sweep h
  effect := effect_sweep h
  touched ev hev := by
    obtain ⟨y, r, hy, hexpire⟩ := mem_sweep.mp hev
    obtain rfl := subject_of_expire (h y r hy).1 hexpire
    simp only [touches, hy, Option.any_some, hexpire, Option.isSome_some]
  apart := by
    refine List.Nodup.sublist (sublist_filterMap (k := Sigma.fst) ?_) s.records.nodupKeys
    rintro ⟨y, r⟩ hmem ev hexpire
    have hget : s.get y = some r := AList.mem_lookup_iff.mpr hmem
    exact subject_of_expire (h y r hget).1 hexpire

end Sweep

theorem sends_of_op {s : ScentStore} {op : ScentOp} {now : Instant} (h : StoreSound s)
    (hstream : OfStream op) (hnoticed : Noticed s now op) : Sends s op now := by
  cases op with
  | observeSignedWithHome y deviceId name service roles source home fingerprint =>
    exact sends_observeSigned h y deviceId name service roles source home fingerprint hstream.1
      hstream.2
  | observeMdnsCandidate info baseUrl source =>
    exact sends_observe_mdns h info baseUrl source hstream.1 hstream.2
  | updateBaseUrl y newUrl source => exact sends_updateBaseUrl h y newUrl source hnoticed
  | markServerInfoVerified y => exact sends_mark h y
  | checkExpirations => exact sends_sweep h
  | get _ => exact sends_nothing h rfl fun _ => rfl
  | list => exact sends_nothing h rfl fun _ => rfl
  | listActiveAt => exact sends_nothing h rfl fun _ => rfl
  | listSignedVerifiedAt => exact sends_nothing h rfl fun _ => rfl

end MichiServer.Receivers
