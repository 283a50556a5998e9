import MichiServer.Connect.ScentStore
import MichiServer.Logic.Trace

/-!
# Stored flags and derived presence

The level of presence is derived from two instants when it is asked for; the flags are what the last
write left. So the flags agree with the level at the instant of a write and can be late afterwards,
until the next sweep: a flag may still say that a peer is there, and in the runs below it never says
that a peer that is there is not. Readers who need the level of this instant have
`list_active_at` and `list_signed_verified_at`.

A base URL update refreshes the mDNS sighting of a record and does not put it online, and the
sweeper skips what is offline. So the runs are those where an update finds its record online.
-/

namespace MichiServer.Connect

open MichiServer.Logic

inductive ScentOp where
  | observeSignedWithHome (michiId deviceId name service : String) (roles : List String)
      (source : Option SocketAddr) (michiHomeId membershipFingerprint : Option String)
  | observeMdnsCandidate (info : VerifiedServerInfo) (baseUrl : Url) (source : Option SocketAddr)
  | updateBaseUrl (michiId : String) (newUrl : Url) (sourceEndpoint : Option SocketAddr)
  | markServerInfoVerified (michiId : String)
  | checkExpirations
  | get (michiId : String)
  | list
  | listActiveAt
  | listSignedVerifiedAt
deriving DecidableEq

namespace ScentOp

/-- The operation writes the presence of the record: a ping, a sighting or a base URL update of it,
or a sweep. -/
def writes (x : String) : ScentOp → Bool
  | observeSignedWithHome michiId .. => michiId = x
  | observeMdnsCandidate info .. => info.michiId = x
  | updateBaseUrl michiId .. => michiId = x
  | checkExpirations => true
  | _ => false

/-- The operation returns the record if it is there and of the level asked for. -/
def reads (x : String) : ScentOp → Bool
  | get michiId => michiId = x
  | list => true
  | listActiveAt => true
  | listSignedVerifiedAt => true
  | _ => false

def sights (x : String) : ScentOp → Bool
  | observeMdnsCandidate info .. => info.michiId = x
  | _ => false

def rebases (x : String) : ScentOp → Bool
  | updateBaseUrl michiId .. => michiId = x
  | _ => false

def apply (op : ScentOp) (now : Instant) (s : ScentStore) : ScentStore :=
  match op with
  | observeSignedWithHome michiId deviceId name service roles source home fingerprint =>
    (s.observeSignedWithHome michiId deviceId name service roles source now home
      fingerprint).1
  | observeMdnsCandidate info baseUrl source =>
    (s.observeMdnsCandidate info baseUrl source now).1
  | updateBaseUrl michiId newUrl source => (s.updateBaseUrl michiId newUrl source now).1
  | markServerInfoVerified michiId => s.markServerInfoVerified michiId now
  | checkExpirations => (s.checkExpirations now).1
  | _ => s

def answer (op : ScentOp) (now : Instant) (s : ScentStore) : List ScentRecord :=
  match op with
  | get michiId => (s.get michiId).toList
  | list => s.list
  | listActiveAt => s.listActiveAt now
  | listSignedVerifiedAt => s.listSignedVerifiedAt now
  | _ => []

end ScentOp

structure ScentCall where
  op : ScentOp
  now : Instant

structure Scented where
  store : ScentStore
  clock : Instant

def Scented.start (clock : Instant) : Scented := ⟨.new, clock⟩

def scentStep (s : Scented) (c : ScentCall) : Scented := ⟨c.op.apply c.now s.store, c.now⟩

def InOrder (s : Scented) (c : ScentCall) : Prop := s.clock ≤ c.now

instance (s : Scented) (c : ScentCall) : Decidable (InOrder s c) :=
  inferInstanceAs (Decidable (_ ≤ _))

/-! ## Flags and level -/

def OnlineAgrees (now : Instant) (r : ScentRecord) : Prop :=
  r.online = true ↔ r.effectivePresence now ≠ .offline

def VerifiedAgrees (now : Instant) (r : ScentRecord) : Prop :=
  r.verified = true → r.isSignedFresh now = true

def NotElevated (x : String) (s : Scented) (c : ScentCall) : Prop :=
  c.op.sights x = true → ∀ r, (scentStep s c).store.get x = some r → r.verified = true →
    ∃ old, s.store.get x = some old ∧ old.verified = true

def FlagsAgree (x : String) (s : Scented) (c : ScentCall) : Prop :=
  (c.op.writes x = true ∨ c.op.reads x = true → ∀ r, (scentStep s c).store.get x = some r →
    OnlineAgrees c.now r ∧ VerifiedAgrees c.now r) ∧ NotElevated x s c

def Awake (x : String) (s : Scented) (c : ScentCall) : Prop :=
  c.op.rebases x = true → ∀ r, s.store.get x = some r → r.online = true

instance (x : String) (s : Scented) (c : ScentCall) : Decidable (Awake x s c) :=
  inferInstanceAs (Decidable (_ → ∀ r, s.store.get x = some r → r.online = true))

/-- What a call does to the verified flag of a record, and what its readers get. -/
structure VerifiedKept (x : String) (s : Scented) (c : ScentCall) : Prop where
  /-- A write leaves it set only while an announcement is fresh. -/
  written : c.op.writes x = true → ∀ r, (scentStep s c).store.get x = some r →
    VerifiedAgrees c.now r
  /-- It is never missing from a record with a fresh announcement. -/
  never_early : ∀ r, (scentStep s c).store.get x = some r → r.isSignedFresh c.now = true →
    r.verified = true
  /-- A sighting does not set it. -/
  not_elevated : NotElevated x s c
  /-- A read changes nothing. -/
  unread : c.op.reads x = true → (scentStep s c).store = s.store
  /-- The listings by level go by the level of this instant. -/
  active : ∀ r, s.store.get x = some r → (r ∈ ScentOp.answer .listActiveAt c.now s.store ↔
    r.effectivePresence c.now ≠ .offline)
  signed : ∀ r, s.store.get x = some r → (r ∈ ScentOp.answer .listSignedVerifiedAt c.now s.store ↔
    r.effectivePresence c.now = .verifiedOnline)

structure OnlineKept (x : String) (s : Scented) (c : ScentCall) : Prop where
  /-- A write leaves it saying whether the peer is there. -/
  written : c.op.writes x = true → ∀ r, (scentStep s c).store.get x = some r →
    OnlineAgrees c.now r
  /-- It is never missing from the record of a peer that is there. -/
  never_early : ∀ r, (scentStep s c).store.get x = some r →
    r.effectivePresence c.now ≠ .offline → r.online = true

/-! ## Freshness -/

theorem isFresh_of_le {seen : Option Instant} {now later : Instant} (hle : now ≤ later)
    (h : isFresh seen later = true) : isFresh seen now = true := by
  cases seen with
  | none => cases h
  | some t =>
    grind [isFresh]

theorem isFresh_now (now : Instant) : isFresh (some now) now = true := by
  simp [isFresh, scentExpiryTimeout]

namespace ScentRecord

variable {r : ScentRecord} {now : Instant}

theorem effectivePresence_offline :
    r.effectivePresence now = .offline ↔
      r.isSignedFresh now = false ∧ r.isMdnsFresh now = false := by
  grind [effectivePresence]

theorem effectivePresence_of_signed
    (h : r.isSignedFresh now = true) : r.effectivePresence now ≠ .offline := by
  intro hoff
  rw [(effectivePresence_offline.mp hoff).1] at h
  cases h

theorem effectivePresence_of_mdns
    (h : r.lastMdnsSeen = some now) : r.effectivePresence now ≠ .offline := by
  intro hoff
  have hstale := (effectivePresence_offline.mp hoff).2
  rw [isMdnsFresh, h, isFresh_now] at hstale
  cases hstale

theorem effectivePresence_of_le {now later : Instant} (hle : now ≤ later)
    (h : r.effectivePresence later ≠ .offline) : r.effectivePresence now ≠ .offline := by
  intro hoff
  obtain ⟨hsigned, hmdns⟩ := effectivePresence_offline.mp hoff
  apply h
  apply effectivePresence_offline.mpr
  grind [isSignedFresh, isMdnsFresh, isFresh_of_le]

end ScentRecord

/-! ## What a call leaves under an id -/

inductive Written (x : String) (s : Scented) (c : ScentCall) : ScentRecord → Prop where
  | announced (r : ScentRecord) (hwrites : c.op.writes x = true) (hsights : c.op.sights x = false)
      (honline : r.online = true) (hverified : r.verified = true)
      (hseen : r.lastSignedSeen = some c.now) : Written x s c r
  | discovered (r : ScentRecord) (honline : r.online = true) (hverified : r.verified = false)
      (hsigned : r.lastSignedSeen = none) (hseen : r.lastMdnsSeen = some c.now) :
      Written x s c r
  | sighted (old : ScentRecord) (hold : s.store.get x = some old) (info : VerifiedServerInfo)
      (baseUrl : Url) (source : Option SocketAddr) :
      Written x s c (ScentStore.sighted old info baseUrl source c.now)
  | rebased (old : ScentRecord) (hold : s.store.get x = some old) (hrebases : c.op.rebases x = true)
      (hsights : c.op.sights x = false) (newUrl : Url) (source : Option SocketAddr) :
      Written x s c (ScentStore.rebased old newUrl source c.now)
  | expired (old : ScentRecord) (hold : s.store.get x = some old)
      (hsights : c.op.sights x = false) :
      Written x s c (ScentStore.expire x old c.now).1
  | kept (old : ScentRecord) (hold : s.store.get x = some old) (hwrites : c.op.writes x = false)
      (hsights : c.op.sights x = false) (verifiedAt : Option Instant) :
      Written x s c { old with serverInfoVerifiedAt := verifiedAt }

/-- Each record of the table is as it was, or as one of the writes leaves it. -/
theorem written_of_get {x : String} {s : Scented} {c : ScentCall} {r : ScentRecord}
    (h : (scentStep s c).store.get x = some r) : Written x s c r := by
  obtain ⟨op, now⟩ := c
  have hkept : ∀ op : ScentOp, op.writes x = false → op.sights x = false →
      s.store.get x = some r → Written x s ⟨op, now⟩ r :=
    fun op hwrites hsights hget => .kept r hget hwrites hsights r.serverInfoVerifiedAt
  cases op with
  | observeSignedWithHome y deviceId name service roles source home fingerprint =>
    by_cases hxy : x = y
    · subst hxy
      obtain ⟨r', hget, honline, hverified, hseen⟩ := s.store.get_observeSignedWithHome x
        deviceId name service roles source now home fingerprint
      cases hget.symm.trans h
      exact .announced r (decide_eq_true rfl) rfl honline hverified hseen
    · have hget := s.store.get_observeSignedWithHome_ne hxy deviceId name service roles source
        now home fingerprint
      exact hkept _ (decide_eq_false (Ne.symm hxy)) rfl (hget.symm.trans h)
  | observeMdnsCandidate info baseUrl source =>
    by_cases hxy : x = info.michiId
    · subst hxy
      obtain ⟨old, hold, hget⟩ | ⟨-, r', hget, honline, hverified, hsigned, hseen⟩ :=
        s.store.get_observeMdnsCandidate info baseUrl source now
      · cases hget.symm.trans h
        exact .sighted old hold info baseUrl source
      · cases hget.symm.trans h
        exact .discovered r honline hverified hsigned hseen
    · have hget := s.store.get_observeMdnsCandidate_ne hxy baseUrl source now
      exact hkept _ (decide_eq_false (Ne.symm hxy)) (decide_eq_false (Ne.symm hxy))
        (hget.symm.trans h)
  | updateBaseUrl y newUrl source =>
    by_cases hxy : x = y
    · subst hxy
      have hget := (s.store.get_updateBaseUrl x newUrl source now).symm.trans h
      obtain ⟨old, hold, rfl⟩ := Option.map_eq_some_iff.mp hget
      exact .rebased old hold (by simp [ScentOp.rebases]) rfl newUrl source
    · have hget := s.store.get_updateBaseUrl_ne hxy newUrl source now
      exact hkept _ (decide_eq_false (Ne.symm hxy)) rfl (hget.symm.trans h)
  | markServerInfoVerified y =>
    by_cases hxy : x = y
    · subst hxy
      have hget := (s.store.get_markServerInfoVerified x now).symm.trans h
      obtain ⟨old, hold, rfl⟩ := Option.map_eq_some_iff.mp hget
      exact .kept old hold rfl rfl (some now)
    · have hget := s.store.get_markServerInfoVerified_ne hxy now
      exact hkept _ rfl rfl (hget.symm.trans h)
  | checkExpirations =>
    have hget := (s.store.get_checkExpirations now x).symm.trans h
    obtain ⟨old, hold, rfl⟩ := Option.map_eq_some_iff.mp hget
    exact .expired old hold rfl
  | get _ => exact hkept _ rfl rfl h
  | list => exact hkept _ rfl rfl h
  | listActiveAt => exact hkept _ rfl rfl h
  | listSignedVerifiedAt => exact hkept _ rfl rfl h

/-! ## One sweep of one record -/

section Expire

open ScentStore

variable (x : String) (old : ScentRecord) (now : Instant)

theorem expire_seen : (expire x old now).1.lastSignedSeen = old.lastSignedSeen ∧
    (expire x old now).1.lastMdnsSeen = old.lastMdnsSeen := by
  grind [expire]

theorem expire_isSignedFresh (t : Instant) :
    (expire x old now).1.isSignedFresh t = old.isSignedFresh t := by
  simp only [ScentRecord.isSignedFresh, (expire_seen x old now).1]

theorem expire_effectivePresence (t : Instant) :
    (expire x old now).1.effectivePresence t = old.effectivePresence t := by
  have hmdns : (expire x old now).1.isMdnsFresh t = old.isMdnsFresh t := by
    simp only [ScentRecord.isMdnsFresh, (expire_seen x old now).2]
  unfold ScentRecord.effectivePresence
  rw [expire_isSignedFresh, hmdns]

theorem expire_online : (expire x old now).1.online =
    (old.online && decide (old.effectivePresence now ≠ .offline)) := by
  grind [expire]

theorem expire_verified (honline : old.online = true) : (expire x old now).1.verified =
    (old.verified && old.isSignedFresh now) := by
  grind [expire, ScentRecord.effectivePresence]

end Expire

/-! ## The invariants -/

/-- What holds of a record at the instant of the last call, in every run. -/
structure VerifiedInv (now : Instant) (r : ScentRecord) : Prop where
  fresh_verified : r.isSignedFresh now = true → r.verified = true
  verified_online : r.verified = true → r.online = true

def OnlineInv (now : Instant) (r : ScentRecord) : Prop :=
  r.effectivePresence now ≠ .offline → r.online = true

theorem VerifiedInv.later {now later : Instant} {r : ScentRecord} (h : VerifiedInv now r)
    (hle : now ≤ later) : VerifiedInv later r :=
  ⟨fun hfresh => h.fresh_verified (isFresh_of_le hle hfresh), h.verified_online⟩

theorem OnlineInv.later {now later : Instant} {r : ScentRecord} (h : OnlineInv now r)
    (hle : now ≤ later) : OnlineInv later r :=
  fun hthere => h (ScentRecord.effectivePresence_of_le hle hthere)

section Step

variable {x : String} {s : Scented} {c : ScentCall} {r : ScentRecord}

/-- A write keeps the verification in step with the time. -/
theorem Written.verified (h : Written x s c r) (horder : InOrder s c)
    (hinv : ∀ old, s.store.get x = some old → VerifiedInv s.clock old) :
    VerifiedInv c.now r ∧ (c.op.writes x = true → VerifiedAgrees c.now r) := by
  cases h with
  | announced _ _ _ honline hverified hseen =>
    refine ⟨⟨fun _ => hverified, fun _ => honline⟩, fun _ _ => ?_⟩
    rw [ScentRecord.isSignedFresh, hseen, isFresh_now]
  | discovered _ honline hverified hsigned _ =>
    refine ⟨⟨fun hfresh => ?_, fun _ => honline⟩, fun _ hv => ?_⟩
    · rw [ScentRecord.isSignedFresh, hsigned] at hfresh
      cases hfresh
    · rw [hverified] at hv
      cases hv
  | sighted old hold info baseUrl source =>
    have hfresh : ∀ t, (ScentStore.sighted old info baseUrl source c.now).isSignedFresh t =
        old.isSignedFresh t := by
      intro t
      simp only [ScentRecord.isSignedFresh, ScentStore.sighted_lastSignedSeen]
    have hverified := ScentStore.sighted_verified old info baseUrl source c.now
    refine ⟨⟨fun h => ?_, fun _ => ScentStore.sighted_online ..⟩, fun _ h => ?_⟩
    · rw [hverified, ← hfresh, h]
    · rw [hfresh, ← hverified, h]
  | rebased old hold _ _ newUrl source =>
    have hfresh : ∀ t, (ScentStore.rebased old newUrl source c.now).isSignedFresh t =
        old.isSignedFresh t := by
      intro t
      simp only [ScentRecord.isSignedFresh, ScentStore.rebased_lastSignedSeen]
    have hverified := ScentStore.rebased_verified old newUrl source c.now
    have hlater := (hinv old hold).later horder
    refine ⟨⟨fun h => ?_, fun h => ?_⟩, fun _ h => ?_⟩
    · rw [hfresh] at h
      rw [hverified, h, hlater.fresh_verified h, Bool.true_and]
    · rw [hverified, Bool.and_eq_true] at h
      rw [ScentStore.rebased_online]
      exact hlater.verified_online h.2
    · grind
  | expired old hold =>
    have hlater := (hinv old hold).later horder
    cases honline : old.online with
    | false =>
      -- the sweep skips it, and it is not verified
      have hskip : (ScentStore.expire x old c.now).1 = old := by simp [ScentStore.expire, honline]
      have hverified : old.verified ≠ true := by
        intro hv
        rw [hlater.verified_online hv] at honline
        cases honline
      rw [hskip]
      exact ⟨hlater, fun _ hv => absurd hv hverified⟩
    | true =>
      have hverified := expire_verified x old c.now honline
      refine ⟨⟨fun h => ?_, fun h => ?_⟩, fun _ h => ?_⟩
      · rw [expire_isSignedFresh] at h
        rw [hverified, h, hlater.fresh_verified h, Bool.and_true]
      · grind [expire_online, ScentRecord.effectivePresence_of_signed]
      · grind [expire_isSignedFresh]
  | kept old hold hwrites _ verifiedAt =>
    have hlater := (hinv old hold).later horder
    refine ⟨⟨hlater.fresh_verified, hlater.verified_online⟩, fun h => ?_⟩
    rw [hwrites] at h
    cases h

/-- A write keeps the online flag in step with the time. -/
theorem Written.online (h : Written x s c r) (horder : InOrder s c) (hawake : Awake x s c)
    (hinv : ∀ old, s.store.get x = some old → OnlineInv s.clock old) :
    OnlineInv c.now r ∧ (c.op.writes x = true → OnlineAgrees c.now r) := by
  cases h with
  | announced _ _ _ honline _ hseen =>
    refine ⟨fun _ => honline, fun _ => iff_of_true honline ?_⟩
    apply ScentRecord.effectivePresence_of_signed
    rw [ScentRecord.isSignedFresh, hseen, isFresh_now]
  | discovered _ honline _ _ hseen =>
    exact ⟨fun _ => honline,
      fun _ => iff_of_true honline (ScentRecord.effectivePresence_of_mdns hseen)⟩
  | sighted old hold info baseUrl source =>
    have honline := ScentStore.sighted_online old info baseUrl source c.now
    exact ⟨fun _ => honline, fun _ => iff_of_true honline
      (ScentRecord.effectivePresence_of_mdns (ScentStore.sighted_lastMdnsSeen ..))⟩
  | rebased old hold hrebases _ newUrl source =>
    have honline : (ScentStore.rebased old newUrl source c.now).online = true := by
      rw [ScentStore.rebased_online]
      exact hawake hrebases old hold
    exact ⟨fun _ => honline, fun _ => iff_of_true honline
      (ScentRecord.effectivePresence_of_mdns (ScentStore.rebased_lastMdnsSeen ..))⟩
  | expired old hold =>
    have hlater := (hinv old hold).later horder
    have hagrees : OnlineAgrees c.now (ScentStore.expire x old c.now).1 := by
      rw [OnlineAgrees, expire_online, expire_effectivePresence, Bool.and_eq_true,
        decide_eq_true_eq]
      exact ⟨fun h => h.2, fun h => ⟨hlater h, h⟩⟩
    exact ⟨hagrees.mpr, fun _ => hagrees⟩
  | kept old hold hwrites _ verifiedAt =>
    refine ⟨(hinv old hold).later horder, fun h => ?_⟩
    rw [hwrites] at h
    cases h

theorem Written.not_elevated (h : Written x s c r) (horder : InOrder s c)
    (hinv : ∀ old, s.store.get x = some old → VerifiedInv s.clock old)
    (hsighted : c.op.sights x = true) (hverified : r.verified = true) :
    ∃ old, s.store.get x = some old ∧ old.verified = true := by
  have hnot : c.op.sights x ≠ false := by rw [hsighted]; exact Bool.noConfusion
  cases h with
  | announced _ _ hsights => exact absurd hsights hnot
  | discovered _ _ hunverified =>
    rw [hunverified] at hverified
    cases hverified
  | sighted old hold info baseUrl source =>
    rw [ScentStore.sighted_verified] at hverified
    exact ⟨old, hold, ((hinv old hold).later horder).fresh_verified hverified⟩
  | rebased _ _ _ hsights => exact absurd hsights hnot
  | expired _ _ hsights => exact absurd hsights hnot
  | kept _ _ _ hsights => exact absurd hsights hnot

end Step

theorem reads_unchanged {x : String} {s : Scented} {c : ScentCall} (h : c.op.reads x = true) :
    (scentStep s c).store = s.store := by
  obtain ⟨op, now⟩ := c
  cases op with
  | observeSignedWithHome => cases h
  | observeMdnsCandidate => cases h
  | updateBaseUrl => cases h
  | markServerInfoVerified => cases h
  | checkExpirations => cases h
  | get _ => rfl
  | list => rfl
  | listActiveAt => rfl
  | listSignedVerifiedAt => rfl

/-! ## Runs -/

/-- In every run in which the clock does not go back, a write of a record leaves its verified flag
set only while an announcement is fresh, no sighting sets it, and reads change nothing and list by
the level of their instant. While no base URL update finds the record offline, a write leaves its
online flag saying whether the peer is there, and no call finds the peer of an offline record
there. -/
theorem presence_agreement (x : String) (clock : Instant) (calls : List ScentCall)
    (horder : Trace.Obeys scentStep InOrder (.start clock) calls) :
    Trace.Obeys scentStep (VerifiedKept x) (.start clock) calls ∧
    (Trace.Obeys scentStep (Awake x) (.start clock) calls →
      Trace.Obeys scentStep (OnlineKept x) (.start clock) calls) := by
  constructor
  · refine Trace.obeys_of_invariant
      (I := fun s => ∀ r, s.store.get x = some r → VerifiedInv s.clock r) ?_ ?_ ?_ horder
    · intro s c hinv hle r hget
      exact ((written_of_get hget).verified hle hinv).1
    · intro s c hinv hle
      constructor
      · intro hwrites r hget
        exact ((written_of_get hget).verified hle hinv).2 hwrites
      · intro r hget hfresh
        exact ((written_of_get hget).verified hle hinv).1.fresh_verified hfresh
      · intro hsights r hget hverified
        exact (written_of_get hget).not_elevated hle hinv hsights hverified
      · exact reads_unchanged
      · intro r hget
        have hmem : r ∈ s.store.list := ScentStore.mem_list.mpr ⟨x, hget⟩
        simp [ScentOp.answer, ScentStore.listActiveAt, hmem]
      · intro r hget
        have hmem : r ∈ s.store.list := ScentStore.mem_list.mpr ⟨x, hget⟩
        simp [ScentOp.answer, ScentStore.listSignedVerifiedAt, hmem]
    · intro r hget
      cases (ScentStore.get_new x).symm.trans hget
  · intro hawake
    refine Trace.obeys_of_invariant
      (I := fun s => ∀ r, s.store.get x = some r → OnlineInv s.clock r) ?_ ?_ ?_
      (horder.and hawake)
    · intro s c hinv hallowed r hget
      exact ((written_of_get hget).online hallowed.1 hallowed.2 hinv).1
    · intro s c hinv hallowed
      constructor
      · intro hwrites r hget
        exact ((written_of_get hget).online hallowed.1 hallowed.2 hinv).2 hwrites
      · intro r hget
        exact ((written_of_get hget).online hallowed.1 hallowed.2 hinv).1
    · intro r hget
      cases (ScentStore.get_new x).symm.trans hget

section Runs

def hello : ScentOp :=
  .observeSignedWithHome "peer" "dev" "Kitchen" "michi-stream-standard" [] none none none

def sighting : ScentOp :=
  .observeMdnsCandidate ⟨"peer", "dev", "Kitchen", "michi-stream-standard", []⟩
    "http://kitchen/" none

def second : Instant := 1000000000

def fading : List ScentCall :=
  [⟨hello, 0⟩, ⟨sighting, 10 * second⟩, ⟨.updateBaseUrl "peer" "http://hall/" none, 20 * second⟩,
    ⟨.checkExpirations, 95 * second⟩, ⟨.listActiveAt, 100 * second⟩,
    ⟨.checkExpirations, 200 * second⟩, ⟨.get "peer", 300 * second⟩]

/-- A peer that is announced once and fades away. -/
theorem presence_agreement_fading :
    Trace.Obeys scentStep (VerifiedKept "peer") (.start 0) fading ∧
    Trace.Obeys scentStep (OnlineKept "peer") (.start 0) fading :=
  have h := presence_agreement "peer" 0 fading (by decide)
  ⟨h.1, h.2 (by decide)⟩

def readLate : List ScentCall := [⟨hello, 0⟩, ⟨.get "peer", 91 * second⟩]

def rebasedOffline : List ScentCall :=
  [⟨sighting, 0⟩, ⟨.checkExpirations, 91 * second⟩,
    ⟨.updateBaseUrl "peer" "http://hall/" none, 92 * second⟩]

/-- The flags a read finds are late, and an update of a record that is offline leaves it offline
with a fresh sighting. -/
theorem flags_disagree :
    (Trace.Obeys scentStep InOrder (.start 0) readLate ∧
      ¬ Trace.Obeys scentStep (FlagsAgree "peer") (.start 0) readLate) ∧
    (Trace.Obeys scentStep InOrder (.start 0) rebasedOffline ∧
      ¬ Trace.Obeys scentStep (FlagsAgree "peer") (.start 0) rebasedOffline) := by
  refine ⟨⟨by decide, ?_⟩, ⟨by decide, ?_⟩⟩
  · rintro ⟨-, hread, -⟩
    have honline := (hread.1 (.inr rfl) _ rfl).1
    exact absurd (honline.mp rfl) (by decide)
  · rintro ⟨-, -, hrebased, -⟩
    have honline := (hrebased.1 (.inl rfl) _ rfl).1
    exact absurd (honline.mpr (by decide)) (by decide)

end Runs

end MichiServer.Connect
