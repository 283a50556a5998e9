import MichiServer.Link.TokenStore

/-!
# Refresh, revocation and expiry

In a run of safe steps a refresh token yields at most one new pair, no token of a device is accepted
once its revocation has returned, and no token is accepted past the expiry it was issued with. The first
two fail in runs that are not safe: two refreshes that validate before either revokes, and a refresh
that stores after the revocation. A restart leaves no token at all.
-/

namespace MichiServer.Link

open Interleave

variable {hashToken : String → String} {w w' : LinkWorld}

namespace LinkWorld

/-! ## The invariant -/

section

variable (w)

def RefreshIssued (tokenHash : String) : Prop :=
  ∃ entry, w.issued tokenHash = some entry ∧ entry.tokenType = .refresh

def Spent (tokenHash : String) : Prop := w.RefreshIssued tokenHash ∧ w.byHash tokenHash = none

def HasRow (tokenHash : String) : Prop := ∃ d ∈ w.linkDevices, d.tokenHash = tokenHash

structure Stored (tokenHash : String) (entry : TokenEntry) : Prop where
  unrevoked : entry.deviceId ∉ w.revoked
  refresh_issued : entry.tokenType = .refresh → w.RefreshIssued tokenHash
  expires : ∀ e, w.issued tokenHash = some e → entry.expiresAt ≤ e.expiresAt

structure Inv : Prop where
  row_device : ∀ tokenHash, w.HasRow tokenHash → ¬ w.RefreshIssued tokenHash
  stored : ∀ tokenHash entry, w.byHash tokenHash = some entry → w.Stored tokenHash entry
  refreshed_spent : ∀ tokenHash ∈ w.refreshed, w.Spent tokenHash

structure Later (w w' : LinkWorld) : Prop where
  has_row : ∀ tokenHash, w.HasRow tokenHash → w'.HasRow tokenHash
  refresh_issued : ∀ tokenHash, w.RefreshIssued tokenHash → w'.RefreshIssued tokenHash
  spent : ∀ tokenHash, w.Spent tokenHash → w'.Spent tokenHash

end

theorem Later.refl : Later w w := ⟨fun _ h => h, fun _ h => h, fun _ h => h⟩

variable {tokenHash : String} {deviceId : Uuid} {now : DateTime}

theorem not_refresh_issued (h : w.issued tokenHash = none) :
    ¬ w.RefreshIssued tokenHash := by
  intro ⟨entry, hentry, _⟩
  rw [h] at hentry
  cases hentry

/-! ### The removal of entries -/

theorem later_keep (kept : String → TokenEntry → Bool) : Later w (w.keep kept) where
  has_row _ h := h
  refresh_issued _ h := h
  spent tokenHash h := ⟨h.1, by simp only [keep, h.2, Option.filter_none]⟩

theorem Inv.keep (h : w.Inv) (kept : String → TokenEntry → Bool) : (w.keep kept).Inv where
  row_device := h.row_device
  stored tokenHash entry hentry := by
    have hstored := h.stored tokenHash entry (Option.filter_eq_some_iff.mp hentry).1
    exact ⟨hstored.unrevoked, hstored.refresh_issued, hstored.expires⟩
  refreshed_spent tokenHash ht := (later_keep kept).spent tokenHash (h.refreshed_spent tokenHash ht)

/-! ### The storing of a token -/

theorem later_store (hnot : ¬ w.RefreshIssued tokenHash)
    (tokenType : TokenType) (deviceId : Uuid) (now : DateTime) :
    Later w (w.store tokenHash tokenType deviceId now) where
  has_row _ h := h
  refresh_issued t h := by
    have hne : t ≠ tokenHash := fun heq => hnot (heq ▸ h)
    simp only [RefreshIssued, store, if_neg hne]
    exact h
  spent t h := by
    have hne : t ≠ tokenHash := fun heq => hnot (heq ▸ h.1)
    simp only [Spent, RefreshIssued, store, storeHash, if_neg hne]
    exact h

/-- A token for a device that is not revoked may be stored. -/
theorem Inv.store (h : w.Inv) {tokenType : TokenType}
    (hdevice : deviceId ∉ w.revoked) (hnot : ¬ w.RefreshIssued tokenHash)
    (hrow : tokenType = .refresh → ¬ w.HasRow tokenHash) :
    (w.store tokenHash tokenType deviceId now).Inv where
  row_device t ht := by
    intro ⟨entry, hentry, htype⟩
    simp only [LinkWorld.store] at hentry
    split at hentry
    next heq =>
      cases hentry
      exact hrow htype (heq ▸ ht)
    · exact h.row_device t ht ⟨entry, hentry, htype⟩
  stored t entry hentry := by
    simp only [LinkWorld.store, LinkWorld.storeHash] at hentry
    split at hentry
    next heq =>
      cases hentry
      refine ⟨hdevice, fun htype => ?_, fun e he => ?_⟩
      · exact ⟨_, if_pos heq, htype⟩
      · grind [LinkWorld.store]
    next hne =>
      have hstored := h.stored t entry hentry
      refine ⟨hstored.unrevoked, fun htype => ?_, fun e he => ?_⟩
      · exact (later_store hnot _ _ _).refresh_issued t (hstored.refresh_issued htype)
      · simp only [LinkWorld.store, if_neg hne] at he
        exact hstored.expires e he
  refreshed_spent t ht := (later_store hnot _ _ _).spent t (h.refreshed_spent t ht)

/-! ### The rows -/

theorem later_revokeLinkDevice (deviceId : Uuid) : Later w (w.revokeLinkDevice deviceId) where
  has_row t h := by
    obtain ⟨d, hd, ht⟩ := h
    refine ⟨_, List.mem_map_of_mem hd, ?_⟩
    split <;> exact ht
  refresh_issued _ h := h
  spent _ h := h

theorem Inv.revokeLinkDevice (h : w.Inv) (deviceId : Uuid) :
    (w.revokeLinkDevice deviceId).Inv where
  row_device t ht := by
    obtain ⟨d, hd, hhash⟩ := ht
    obtain ⟨c, hc, rfl⟩ := List.mem_map.mp hd
    refine h.row_device t ⟨c, hc, ?_⟩
    split at hhash <;> exact hhash
  stored t entry hentry := by
    have hstored := h.stored t entry hentry
    exact ⟨hstored.unrevoked, hstored.refresh_issued, hstored.expires⟩
  refreshed_spent := h.refreshed_spent

def withRow (w : LinkWorld) (d : LinkDevice) : LinkWorld :=
  { w with linkDevices := w.linkDevices ++ [d] }

theorem later_withRow (d : LinkDevice) : Later w (w.withRow d) where
  has_row t h := by
    obtain ⟨c, hc, ht⟩ := h
    exact ⟨c, List.mem_append_left _ hc, ht⟩
  refresh_issued _ h := h
  spent _ h := h

theorem Inv.withRow (h : w.Inv) {d : LinkDevice} (hissued : w.issued d.tokenHash = none) :
    (w.withRow d).Inv where
  row_device t ht := by
    obtain ⟨c, hc, rfl⟩ := ht
    rcases List.mem_append.mp hc with hc | hc
    · exact h.row_device _ ⟨c, hc, rfl⟩
    · rw [List.mem_singleton.mp hc]
      exact not_refresh_issued hissued
  stored t entry hentry := by
    have hstored := h.stored t entry hentry
    exact ⟨hstored.unrevoked, hstored.refresh_issued, hstored.expires⟩
  refreshed_spent := h.refreshed_spent

theorem exists_of_validate {expectedType : TokenType}
    (h : w.validate tokenHash expectedType now = .ok deviceId) :
    ∃ entry, w.byHash tokenHash = some entry ∧ entry.tokenType = expectedType ∧
      now < entry.expiresAt ∧ entry.deviceId = deviceId := by
  grind [validate]

theorem Inv.acceptable (h : w.Inv) {expectedType : TokenType}
    (hvalidate : w.validate tokenHash expectedType now = .ok deviceId) :
    LinkTask.Acceptable w tokenHash now deviceId := by
  obtain ⟨entry, hentry, _, hexpires, rfl⟩ := exists_of_validate hvalidate
  have hstored := h.stored tokenHash entry hentry
  exact ⟨hstored.unrevoked, fun e he => Int.lt_of_lt_of_le hexpires (hstored.expires e he)⟩

end LinkWorld

/-! ## The tasks -/

namespace LinkTask

open LinkWorld

def Good (hashToken : String → String) : LinkTask → LinkWorld → Prop
  | .refreshRevoke refreshToken _, w => w.RefreshIssued (hashToken refreshToken)
  | .refreshStoreDevice refreshToken _, w | .refreshStoreRefresh refreshToken _, w =>
    w.Spent (hashToken refreshToken) ∧ hashToken refreshToken ∉ w.refreshed
  | .pairStoreDevice _ tokenHash _, w => w.HasRow tokenHash
  | _, _ => True

/-- The refresh token that a refresh has revoked and not yet returned a pair for. -/
def spending (hashToken : String → String) : LinkTask → Option String
  | .refreshStoreDevice refreshToken _ | .refreshStoreRefresh refreshToken _ =>
    some (hashToken refreshToken)
  | _ => none

def Apart (hashToken : String → String) (t u : LinkTask) : Prop :=
  ∀ h ∈ t.spending hashToken, u.spending hashToken ≠ some h

theorem Good.later {t : LinkTask} (h : t.Good hashToken w) (hw : Later w w')
    (hrefreshed : ∀ s ∈ t.spending hashToken, s ∉ w.refreshed → s ∉ w'.refreshed) :
    t.Good hashToken w' := by
  cases t with
  | refreshRevoke => exact hw.refresh_issued _ h
  | refreshStoreDevice | refreshStoreRefresh =>
    exact ⟨hw.spent _ h.1, hrefreshed _ rfl h.2⟩
  | pairStoreDevice => exact hw.has_row _ h
  | validate | refresh | revokeDevice | revokeAllByDevice | pair | pairStoreRefresh
  | loadTokensFromDb => trivial

/-- What a safe step of a call does: it keeps the invariant and what is known of the others, something
is known of what it becomes, and it spends and returns no more than it should. -/
structure Steps (hashToken : String → String) (t : LinkTask) (w : LinkWorld)
    (r : List LinkTask × LinkWorld) : Prop where
  inv : r.2.Inv
  later : Later w r.2
  few : r.1.length ≤ 1
  good : ∀ t' ∈ r.1, t'.Good hashToken r.2
  spends : ∀ t' ∈ r.1, ∀ h ∈ t'.spending hashToken,
    t.spending hashToken = some h ∨ w.byHash h ≠ none
  returns : ∀ h ∈ r.2.refreshed, h ∈ w.refreshed ∨ t.spending hashToken = some h

variable {t : LinkTask}

theorem Steps.of_quiet {r : List LinkTask × LinkWorld} (hinv : r.2.Inv) (hlater : Later w r.2)
    (hfew : r.1.length ≤ 1) (hgood : ∀ t' ∈ r.1, t'.Good hashToken r.2)
    (hquiet : ∀ t' ∈ r.1, t'.spending hashToken = none) (hrefreshed : r.2.refreshed = w.refreshed) :
    Steps hashToken t w r where
  inv := hinv
  later := hlater
  few := hfew
  good := hgood
  spends t' ht' h hh := by
    rw [hquiet t' ht'] at hh
    cases hh
  returns h hh := .inl (hrefreshed ▸ hh)

theorem Steps.over (hinv : w'.Inv) (hlater : Later w w') (hrefreshed : w'.refreshed = w.refreshed) :
    Steps hashToken t w ([], w') :=
  .of_quiet hinv hlater (Nat.zero_le _) (fun _ h => nomatch h) (fun _ h => nomatch h) hrefreshed

theorem Steps.next {t' : LinkTask} (hinv : w'.Inv) (hlater : Later w w')
    (hgood : t'.Good hashToken w') (hquiet : t'.spending hashToken = none)
    (hrefreshed : w'.refreshed = w.refreshed) : Steps hashToken t w ([t'], w') :=
  .of_quiet hinv hlater (Nat.le_refl _) (fun _ h => List.mem_singleton.mp h ▸ hgood)
    (fun _ h => List.mem_singleton.mp h ▸ hquiet) hrefreshed

/-- A safe step keeps the invariant, and leaves the task good. -/
theorem steps_of_safe {env : LinkEnv} (h : w.Inv) (hgood : t.Good hashToken w)
    (hsafe : t.Safe hashToken env w) : Steps hashToken t w (t.step hashToken env w) := by
  have hrow : ∀ {tokenHash}, w.HasRow tokenHash → ¬ w.RefreshIssued tokenHash :=
    fun {tokenHash} => h.row_device tokenHash
  cases t with
  | validate => exact .over h .refl rfl
  | refresh refreshToken reqDeviceId =>
    simp only [step]
    split
    next deviceId hvalidate =>
      obtain ⟨entry, hentry, htype, _, _⟩ := exists_of_validate hvalidate
      have hissued := (h.stored _ entry hentry).refresh_issued htype
      split
      · exact .next h .refl hissued rfl rfl
      · exact .over h .refl rfl
    · exact .over h .refl rfl
  | refreshRevoke refreshToken deviceId =>
    have hspent : (w.keep fun h _ => h != hashToken refreshToken).Spent (hashToken refreshToken) := by
      refine ⟨hgood, ?_⟩
      simp [keep]
    -- the token was still in the store, so no pair was returned for it
    have hnew : hashToken refreshToken ∉ w.refreshed := fun hmem =>
      hsafe (h.refreshed_spent _ hmem).2
    refine ⟨h.keep _, later_keep _, Nat.le_refl _, fun t' ht' => ?_, fun t' ht' s hs => ?_, fun _ => .inl⟩
    · rw [List.mem_singleton.mp ht']
      exact ⟨hspent, hnew⟩
    · rw [List.mem_singleton.mp ht'] at hs
      cases hs
      exact .inr hsafe
  | refreshStoreDevice refreshToken deviceId =>
    obtain ⟨hdevice, hissued, _⟩ := hsafe
    have hlater := later_store (not_refresh_issued hissued) .device deviceId env.now
    refine ⟨h.store hdevice (not_refresh_issued hissued) fun htype => (nomatch htype), hlater,
      Nat.le_refl _, fun t' ht' => ?_, fun t' ht' s hs => ?_, fun _ => .inl⟩
    · rw [List.mem_singleton.mp ht']
      exact ⟨hlater.spent _ hgood.1, hgood.2⟩
    · rw [List.mem_singleton.mp ht'] at hs
      exact .inl hs
  | refreshStoreRefresh refreshToken deviceId =>
    obtain ⟨hdevice, hissued, hrows⟩ := hsafe
    have hlater := later_store (not_refresh_issued hissued) .refresh deviceId env.now
    have hinv : (w.store (hashToken env.token) .refresh deviceId env.now).Inv :=
      h.store hdevice (not_refresh_issued hissued) fun _ ⟨d, hd, hhash⟩ => hrows d hd hhash
    refine ⟨⟨hinv.row_device, fun s entry hentry => ?_, fun s hs => ?_⟩,
      ⟨hlater.has_row, hlater.refresh_issued, hlater.spent⟩, Nat.zero_le _,
      fun _ ht' => (nomatch ht'), fun _ ht' => (nomatch ht'), fun s hs => ?_⟩
    · have hstored := hinv.stored s entry hentry
      exact ⟨hstored.unrevoked, hstored.refresh_issued, hstored.expires⟩
    · rcases List.mem_cons.mp hs with rfl | hs
      · exact hlater.spent _ hgood.1
      · exact hinv.refreshed_spent s hs
    · rcases List.mem_cons.mp hs with rfl | hs
      · exact .inr rfl
      · exact .inl hs
  | revokeDevice deviceId =>
    simp only [step]
    split
    · exact .next (h.revokeLinkDevice _) (later_revokeLinkDevice _) trivial rfl rfl
    · exact .over h .refl rfl
  | revokeAllByDevice deviceId =>
    have hinv := h.keep fun _ entry => entry.deviceId != deviceId
    have hlater := later_keep (w := w) fun _ entry => entry.deviceId != deviceId
    refine .over ⟨hinv.row_device, fun s entry hentry => ?_, hinv.refreshed_spent⟩
      ⟨hlater.has_row, hlater.refresh_issued, hlater.spent⟩ rfl
    have hstored := hinv.stored s entry hentry
    have hother : entry.deviceId ≠ deviceId :=
      bne_iff_ne.mp (Option.filter_eq_some_iff.mp hentry).2
    refine ⟨fun hmem => ?_, hstored.refresh_issued, hstored.expires⟩
    exact (List.mem_cons.mp hmem).elim hother hstored.unrevoked
  | pair withRefresh =>
    simp only [step]
    split
    · exact .next (h.withRow hsafe) (later_withRow _)
        ⟨_, List.mem_append_right _ (List.mem_singleton_self _), rfl⟩ rfl rfl
    · exact .over h .refl rfl
  | pairStoreDevice deviceId tokenHash withRefresh =>
    have hinv : (w.store tokenHash .device deviceId env.now).Inv :=
      h.store hsafe (hrow hgood) fun htype => nomatch htype
    have hlater := later_store (hrow hgood) .device deviceId env.now
    cases withRefresh with
    | true => exact .next hinv hlater trivial rfl rfl
    | false => exact .over hinv hlater rfl
  | pairStoreRefresh deviceId =>
    obtain ⟨hdevice, hissued, hrows⟩ := hsafe
    exact .over (h.store hdevice (not_refresh_issued hissued) fun _ ⟨d, hd, hhash⟩ => hrows d hd hhash)
      (later_store (not_refresh_issued hissued) _ _ _) rfl
  | loadTokensFromDb => exact .over h .refl rfl

theorem keeps_of_good {env : LinkEnv} (h : w.Inv) (hgood : t.Good hashToken w) :
    t.Keeps hashToken env w := by
  have hvalidate : ∀ token expectedType,
      ∀ deviceId ∈ (w.validate (hashToken token) expectedType env.now).toOption,
        Acceptable w (hashToken token) env.now deviceId := by
    intro token expectedType deviceId hok
    cases hresult : w.validate (hashToken token) expectedType env.now with
    | error => rw [hresult] at hok; cases hok
    | ok id =>
      rw [hresult] at hok
      cases hok
      exact h.acceptable hresult
  cases t with
  | validate token expectedType => exact hvalidate token expectedType
  | refresh refreshToken reqDeviceId => exact hvalidate refreshToken .refresh
  | refreshStoreRefresh => exact hgood.2
  | refreshRevoke | refreshStoreDevice | revokeDevice | revokeAllByDevice | pair
  | pairStoreDevice | pairStoreRefresh | loadTokensFromDb => trivial

end LinkTask

/-! ## Every run -/

/-- The tokens are in order, something is known of each call, and no two spend one refresh token. -/
def linkInvariant (hashToken : String → String) : Invariant LinkTask LinkWorld where
  Inv := LinkWorld.Inv
  Good t w := t.Good hashToken w
  Apart := LinkTask.Apart hashToken
  apart_symm _ _ h s hs heq := h s heq hs

theorem tick_kept (tick : LinkTick) (h : w.Inv) :
    (w.tick tick).Inv ∧ LinkWorld.Later w (w.tick tick) ∧ (w.tick tick).refreshed = w.refreshed := by
  cases tick with
  | cleanup | restart => exact ⟨h.keep _, LinkWorld.later_keep _, rfl⟩

/-- Each safe move keeps the invariant. -/
theorem link_preserved (hashToken : String → String) :
    (linkInvariant hashToken).Preserved (linkMachine hashToken) (SafeMove hashToken) where
  enter call w _ := by
    cases call <;> exact ⟨trivial, fun _ _ h => nomatch h⟩
  self p i env t ht hsafe hinv hgood := by
    have hsteps := LinkTask.steps_of_safe hinv hgood (hsafe t ht)
    refine ⟨hsteps.inv, hsteps.good, ?_⟩
    have hfew : ((linkMachine hashToken).step t env p.world).1.length ≤ 1 := hsteps.few
    match hr : ((linkMachine hashToken).step t env p.world).1, hfew with
    | [], _ => exact .nil
    | [_], _ => exact List.pairwise_singleton _ _
  other p i env t u ht _ hsafe hinv hgood hu hapart := by
    have hsteps := LinkTask.steps_of_safe hinv hgood (hsafe t ht)
    refine ⟨LinkTask.Good.later hu hsteps.later fun s hs hnot hmem => ?_, fun t' ht' s hs heq => ?_⟩
    · rcases hsteps.returns s hmem with hold | hspends
      · exact hnot hold
      · exact hapart s hspends hs
    · rcases hsteps.spends t' ht' s hs with hspends | hstored
      · exact hapart s hspends heq
      · -- the refresh token that another call has spent is not in the store
        cases u with
        | refreshStoreDevice | refreshStoreRefresh => cases heq; exact hstored hu.1.2
        | _ => cases heq
  tick tick w hinv := by
    obtain ⟨hinv', hlater, hrefreshed⟩ := tick_kept tick hinv
    refine ⟨hinv', fun u hu => LinkTask.Good.later hu hlater fun s _ hnot => ?_⟩
    exact fun hmem => hnot (hrefreshed ▸ hmem)

theorem noDeviceYet_holds : (linkInvariant hashToken).Holds noDeviceYet := by
  refine ⟨⟨?_, ?_, ?_⟩, ?_, .nil⟩ <;> simp [noDeviceYet, LinkWorld.HasRow]

/-- **Single use, finality, expiry.** In every run of safe steps each step keeps its promise. -/
theorem link_tokens_keep_promises (hashToken : String → String) (moves : List LinkMove)
    (hmoves : noDeviceYet.Obeys (linkMachine hashToken) (SafeMove hashToken) moves) :
    noDeviceYet.Obeys (linkMachine hashToken) (KeepsPromise hashToken) moves := by
  refine (link_preserved hashToken).obeys (fun p move hp _ => ?_) noDeviceYet_holds hmoves
  cases move with
  | act i env => exact fun t ht => LinkTask.keeps_of_good hp.1 (hp.2.1 t (List.mem_of_getElem? ht))
  | arrive | drop | tick => trivial

def revokedDevice : List LinkMove :=
  [.arrive (.pair true), .act 0 { deviceId := 1, token := "device" }, .act 0 {},
    .act 0 { token := "refresh" }, .arrive (.validate "device" .device), .act 0 {},
    .arrive (.linkTokenRefresh "refresh" (some 1)), .act 0 {}, .act 0 {},
    .act 0 { token := "device 2" }, .act 0 { token := "refresh 2" },
    .arrive (.linkDevicesRevoke 1), .act 0 {}, .act 0 {},
    .arrive (.validate "device 2" .device), .act 0 {}, .tick .restart,
    .arrive .loadTokensFromDb, .act 0 {}, .arrive (.validate "device" .device), .act 0 {}]

/-- A device pairs, refreshes its tokens and is revoked; its tokens are refused, also after a restart. -/
theorem revoked_device_refused :
    noDeviceYet.Obeys (linkMachine id) (SafeMove id) revokedDevice ∧
      noDeviceYet.Obeys (linkMachine id) (KeepsPromise id) revokedDevice :=
  have hsafe : noDeviceYet.Obeys (linkMachine id) (SafeMove id) revokedDevice := by
    decide +kernel
  ⟨hsafe, link_tokens_keep_promises id revokedDevice hsafe⟩

def paired : List LinkMove :=
  [.arrive (.pair true), .act 0 { deviceId := 1, token := "device" }, .act 0 {},
    .act 0 { token := "refresh" }]

def refreshedTwice : List LinkMove :=
  paired ++ [.arrive (.linkTokenRefresh "refresh" none), .act 0 {},
    .arrive (.linkTokenRefresh "refresh" none), .act 1 {},
    .act 0 {}, .act 0 { token := "device 2" }, .act 0 { token := "refresh 2" },
    .act 0 {}, .act 0 { token := "device 3" }, .act 0 { token := "refresh 3" }]

def refreshedAfterRevocation : List LinkMove :=
  paired ++ [.arrive (.linkTokenRefresh "refresh" none), .act 0 {},
    .arrive (.linkDevicesRevoke 1), .act 1 {}, .act 1 {},
    .act 0 {}, .act 0 { token := "device 2" }, .act 0 { token := "refresh 2" },
    .arrive (.validate "device 2" .device), .act 0 {}]

/-- **The two ways.** One refresh token yields two pairs, and a token of a revoked device is accepted. -/
theorem link_promises_broken :
    ¬ noDeviceYet.Obeys (linkMachine id) (KeepsPromise id) refreshedTwice ∧
      ¬ noDeviceYet.Obeys (linkMachine id) (KeepsPromise id) refreshedAfterRevocation := by
  decide +kernel

end MichiServer.Link
