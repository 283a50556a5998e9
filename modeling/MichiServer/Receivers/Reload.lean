import MichiServer.Receivers.Trust

/-!
# Revocations live and after a restart

`revoke_device` marks the entries of a device by receiver id or by michi id. After a restart
`load_persisted_revocations` marks an entry by its michi id, and by its receiver id only if it has no
michi id. Both are followed here from the call to the end, with no other call in the way, and the two
sets of marked entries are compared.
-/

namespace MichiServer.Receivers.Trust

open MichiServer.Interleave

/-! ## The calls, alone -/

def revokeDevice (deviceMichiId reason : String) (env : Env) (w : TrustManager) :
    Except String HomeDeviceRevocationDto × TrustManager :=
  match w.home with
  | none => (.error "HomeRootAuthority not configured", w)
  | some auth =>
    let revocation := auth.issueRevocation auth.homeId deviceMichiId env.nowRfc3339 reason
    match w.persist env (revocationRow auth deviceMichiId reason env) with
    | .error e => (.error e, w)
    | .ok w =>
      let w := w.pushRevocation revocation
      (.ok revocation.val,
        (w.receiverIdsToStop deviceMichiId).foldl (TrustManager.stopSession env)
          (w.markDevice deviceMichiId))

def loadPersistedRevocations (crates : Crates) (env : Env) (w : TrustManager) :
    Except String ℕ × TrustManager :=
  match w.db, w.home with
  | some rows, some home =>
    match env.database with
    | .error e =>
      (.error ("Failed to read home_revocations from DB: " ++ e),
        { w with trustState := .recoveryRequired })
    | .ok () =>
      match verifyPersisted crates home (listHomeRevocationsDb rows home.homeId)
          w.revocations 0 with
      | (.error e, revs) =>
        (.error e, { w with revocations := revs, trustState := .recoveryRequired })
      | (.ok count, revs) => (.ok count, { w with revocations := revs }.reconcile)
  | _, _ => (.ok 0, w)

variable {crates : Crates} {w : TrustManager} {env : Env} {home : HomeRootAuthority}

theorem stopSessions_alone {deviceMichiId : String} (revocation : RevocationOf deviceMichiId)
    (receiverIds : List String) :
    Pool.Alone (trustManager crates) env
      (.revokeDevice deviceMichiId (.stopSessions revocation receiverIds)) w
      (.returned (.revoked (.ok revocation.val)))
      (receiverIds.foldl (TrustManager.stopSession env) w) := by
  induction receiverIds generalizing w with
  | nil => exact .step rfl .refl
  | cons rid rest ih => exact .step rfl ih

theorem persist_locked {pRev : PersistedHomeRevocation} {w' : TrustManager}
    (h : w.persist env pRev = .ok w') : w'.revocationsLocked = w.revocationsLocked := by
  grind [TrustManager.persist]

theorem revokeDevice_persisted {auth : HomeRootAuthority} {deviceMichiId reason : String}
    {w' : TrustManager} (hhome : w.home = some auth)
    (hpersist : w.persist env (revocationRow auth deviceMichiId reason env) = .ok w') :
    let revocation := auth.issueRevocation auth.homeId deviceMichiId env.nowRfc3339 reason
    let pushed := w'.pushRevocation revocation
    revokeDevice deviceMichiId reason env w = (.ok revocation.val,
      (pushed.receiverIdsToStop deviceMichiId).foldl (TrustManager.stopSession env)
        (pushed.markDevice deviceMichiId)) := by
  simp only [revokeDevice, hhome, hpersist]

theorem revokeDevice_failed {auth : HomeRootAuthority} {deviceMichiId reason e : String}
    (hhome : w.home = some auth)
    (hpersist : w.persist env (revocationRow auth deviceMichiId reason env) = .error e) :
    revokeDevice deviceMichiId reason env w = (.error e, w) := by
  simp only [revokeDevice, hhome, hpersist]

/-- Taken alone, a revocation of the machine answers as the function does and leaves what it leaves. -/
theorem revoke_device_alone (deviceMichiId reason : String) (h : w.revocationsLocked = false) :
    Pool.Alone (trustManager crates) env (.revokeDevice deviceMichiId (.issue reason)) w
      (.returned (.revoked (revokeDevice deviceMichiId reason env w).1))
      (revokeDevice deviceMichiId reason env w).2 := by
  cases hhome : w.home with
  | none =>
    simp only [revokeDevice, hhome]
    refine .step ?_ .refl
    simp only [trustManager, revokeStep, hhome]
  | some auth =>
    have hissue : (trustManager crates).step (.revokeDevice deviceMichiId (.issue reason)) env w =
        ([.revokeDevice deviceMichiId (.persist
          (auth.issueRevocation auth.homeId deviceMichiId env.nowRfc3339 reason)
          (revocationRow auth deviceMichiId reason env))], w) := by
      simp only [trustManager, revokeStep, hhome]
    cases hpersist : w.persist env (revocationRow auth deviceMichiId reason env) with
    | error e =>
      rw [revokeDevice_failed hhome hpersist]
      refine .step hissue (.step ?_ .refl)
      simp only [trustManager, revokeStep, hpersist]
    | ok w' =>
      have hunlocked : w'.revocationsLocked = false := (persist_locked hpersist).trans h
      have hpush : ∀ revocation : RevocationOf deviceMichiId,
          (trustManager crates).step (.revokeDevice deviceMichiId (.push revocation)) env w' =
            ([.revokeDevice deviceMichiId (.mark revocation)], w'.pushRevocation revocation) := by
        intro revocation
        simp [trustManager, revokeStep, hunlocked]
      rw [revokeDevice_persisted hhome hpersist]
      refine .step hissue (.step ?_ (.step (hpush _) (.step rfl (stopSessions_alone _ _))))
      simp only [trustManager, revokeStep, hpersist]

/-- A device is revoked while a home is there and the table is empty. -/
theorem revoke_device_alone_sample : ∃ w', Pool.Alone (trustManager sampleCrates) {}
    (.revokeDevice "dev" (.issue "stolen"))
    { registry := sampleRegistry, home := some sampleHome, db := some [] }
    (.returned (.revoked (.ok (sampleHome.issueRevocation "home" "dev" "" "stolen").val))) w' :=
  ⟨_, revoke_device_alone "dev" "stolen" rfl⟩

section

variable {rows : List PersistedHomeRevocation} {revs : List HomeDeviceRevocationDto}
  (hdb : w.db = some rows) (hhome : w.home = some home) (hdatabase : env.database = .ok ())
include hdb hhome hdatabase

theorem loadPersistedRevocations_ok {count : ℕ}
    (hverify : verifyPersisted crates home (listHomeRevocationsDb rows home.homeId)
      w.revocations 0 = (.ok count, revs)) :
    loadPersistedRevocations crates env w = (.ok count, { w with revocations := revs }.reconcile) := by
  simp only [loadPersistedRevocations, hdb, hhome, hdatabase, hverify]

theorem loadPersistedRevocations_refused {e : String}
    (hverify : verifyPersisted crates home (listHomeRevocationsDb rows home.homeId)
      w.revocations 0 = (.error e, revs)) :
    loadPersistedRevocations crates env w =
      (.error e, { w with revocations := revs, trustState := .recoveryRequired }) := by
  simp only [loadPersistedRevocations, hdb, hhome, hdatabase, hverify]

end

/-- Taken alone, a load of the machine answers as the function does and leaves what it leaves. -/
theorem load_persisted_revocations_alone (h : w.revocationsLocked = false) :
    Pool.Alone (trustManager crates) env (.loadPersistedRevocations .list) w
      (.returned (.loaded (loadPersistedRevocations crates env w).1))
      (loadPersistedRevocations crates env w).2 := by
  cases hdb : w.db with
  | none =>
    simp only [loadPersistedRevocations, hdb]
    refine .step ?_ .refl
    simp only [trustManager, loadStep, hdb]
  | some rows =>
    cases hhome : w.home with
    | none =>
      simp only [loadPersistedRevocations, hdb, hhome]
      refine .step ?_ .refl
      simp only [trustManager, loadStep, hdb, hhome]
    | some home =>
      cases hdatabase : env.database with
      | error e =>
        simp only [loadPersistedRevocations, hdb, hhome, hdatabase]
        refine .step ?_ .refl
        simp only [trustManager, loadStep, hdb, hhome, hdatabase]
      | ok u =>
        have hlist : (trustManager crates).step (.loadPersistedRevocations .list) env w =
            ([.loadPersistedRevocations
              (.verify home (listHomeRevocationsDb rows home.homeId))], w) := by
          simp only [trustManager, loadStep, hdb, hhome, hdatabase]
        rcases hverify : verifyPersisted crates home (listHomeRevocationsDb rows home.homeId)
          w.revocations 0 with ⟨e | count, revs⟩
        · rw [loadPersistedRevocations_refused hdb hhome hdatabase hverify]
          refine .step hlist (.step ?_ .refl)
          simp [trustManager, loadStep, h, hverify]
        · rw [loadPersistedRevocations_ok hdb hhome hdatabase hverify]
          have hstep : (trustManager crates).step (.loadPersistedRevocations
              (.verify home (listHomeRevocationsDb rows home.homeId))) env w =
                ([.loadPersistedRevocations (.reconcile count)],
                  { w with revocations := revs, revocationsLocked := true }) := by
            simp [trustManager, loadStep, h, hverify]
          exact .step hlist (.step hstep (.step rfl .refl))

/-- The one row of the table verifies, and is loaded. -/
theorem load_persisted_revocations_alone_sample :
    let w : TrustManager := { registry := sampleRegistry, home := some sampleHome
                              db := some [revocationRow sampleHome "dev" "stolen" {}] }
    let (loaded, w') := loadPersistedRevocations sampleCrates {} w
    loaded.toOption = some 1 ∧ Pool.Alone (trustManager sampleCrates) {}
      (.loadPersistedRevocations .list) w (.returned (.loaded loaded)) w' :=
  ⟨by decide +kernel, load_persisted_revocations_alone rfl⟩

/-! ## What is compared -/

structure RevokeCall where
  deviceMichiId : String
  reason : String
  env : Env

def revokeAll (calls : List RevokeCall) (w : TrustManager) : TrustManager :=
  calls.foldl (fun w c => (revokeDevice c.deviceMichiId c.reason c.env w).2) w

def revokedDevices (calls : List RevokeCall) : List String :=
  (calls.filter fun c => c.env.database.isOk).map RevokeCall.deviceMichiId

/-- The manager after a restart: the home and the database, and the registry's entries loaded again. -/
def restart (registry : ReceiverRegistry) (w : TrustManager) : TrustManager where
  registry := registry
  home := w.home
  db := w.db

def revokedReceivers (reg : ReceiverRegistry) : List String :=
  (reg.receivers.filter ReceiverRegistryEntry.revoked).map ReceiverRegistryEntry.receiverId

def Verifies (crates : Crates) (home : HomeRootAuthority) : Prop :=
  ∀ deviceMichiId revokedAt reason, crates.verifyRevocation
    { version := 1
      homeId := home.homeId
      revokedDeviceMichiId := deviceMichiId
      revokedAt := revokedAt
      reason := reason
      signature := (home.issueRevocation home.homeId deviceMichiId revokedAt reason).val.signature }
    home.publicKeyBase64url home.homeId = .ok ()

/-! ## The rows -/

structure Issued (home : HomeRootAuthority) (p : PersistedHomeRevocation) : Prop where
  homeId : p.homeId = home.homeId
  version : p.version = 1
  signature : p.signature = (home.issueRevocation home.homeId p.revokedDeviceMichiId p.revokedAt
    p.reason).val.signature

/-- The rows that revocations of the devices leave, under the ids given out. -/
structure Persisted (home : HomeRootAuthority) (devices ids : List String)
    (rows : List PersistedHomeRevocation) : Prop where
  issued : ∀ p ∈ rows, Issued home p
  ids : ∀ p ∈ rows, p.id ∈ ids
  nodup : (rows.map PersistedHomeRevocation.id).Nodup
  devices : ∀ d, (∃ p ∈ rows, p.revokedDeviceMichiId = d) ↔ d ∈ devices

theorem issued_revocationRow (home : HomeRootAuthority) (deviceMichiId reason : String) (env : Env) :
    Issued home (revocationRow home deviceMichiId reason env) :=
  ⟨rfl, rfl, rfl⟩

variable {devices ids : List String} {rows : List PersistedHomeRevocation}

theorem update_row (pRev existing p : PersistedHomeRevocation) :
    let updated := if p.id = existing.id then
        { p with
          revokedAt := pRev.revokedAt
          reason := pRev.reason
          version := pRev.version
          signature := pRev.signature }
      else p
    updated.id = p.id ∧ updated.revokedDeviceMichiId = p.revokedDeviceMichiId := by
  grind

/-- A revocation is persisted beside those that are. -/
theorem Persisted.transaction (h : Persisted home devices ids rows) {pRev : PersistedHomeRevocation}
    (hissued : Issued home pRev) (hnew : pRev.id ∉ ids) :
    ∃ rows', persistHomeRevocationTransaction rows pRev = .ok rows' ∧
      Persisted home (pRev.revokedDeviceMichiId :: devices) (pRev.id :: ids) rows' := by
  unfold persistHomeRevocationTransaction
  split
  · rename_i existing hfound
    have hmem : existing ∈ rows := List.mem_of_find?_eq_some hfound
    have hfits : existing.homeId = pRev.homeId ∧
        existing.revokedDeviceMichiId = pRev.revokedDeviceMichiId := by
      simpa using List.find?_some hfound
    have hknown : pRev.revokedDeviceMichiId ∈ devices :=
      (h.devices _).mp ⟨existing, hmem, hfits.2⟩
    have hdevices : ∀ d, d ∈ devices ↔ d ∈ pRev.revokedDeviceMichiId :: devices := by
      grind
    have hversion : existing.version = 1 := (h.issued existing hmem).version
    rw [if_neg (by rw [hissued.version, hversion]; omega)]
    split
    · exact ⟨rows, rfl, h.issued, fun p hp => List.mem_cons_of_mem _ (h.ids p hp), h.nodup,
        fun d => (h.devices d).trans (hdevices d)⟩
    · refine ⟨_, rfl, ?_, ?_, ?_, fun d => ?_⟩
      · intro p hp
        obtain ⟨q, hq, rfl⟩ := List.mem_map.mp hp
        by_cases hid : q.id = existing.id
        · obtain rfl := List.inj_on_of_nodup_map h.nodup hq hmem hid
          rw [if_pos rfl]
          refine ⟨(h.issued q hq).homeId, hissued.version, ?_⟩
          rw [hissued.signature, hfits.2]
        · rw [if_neg hid]
          exact h.issued q hq
      · intro p hp
        obtain ⟨q, hq, rfl⟩ := List.mem_map.mp hp
        rw [(update_row pRev existing q).1]
        exact List.mem_cons_of_mem _ (h.ids q hq)
      · rw [List.map_map]
        refine (List.map_congr_left fun q _ => ?_).symm ▸ h.nodup
        exact (update_row pRev existing q).1
      · rw [← hdevices d, ← h.devices d]
        simp [update_row]
  · rename_i hnone
    have hfree : ¬ rows.any fun p => p.id = pRev.id := by
      intro hany
      obtain ⟨p, hp, hid⟩ := List.any_eq_true.mp hany
      exact hnew ((of_decide_eq_true hid : p.id = pRev.id) ▸ h.ids p hp)
    rw [if_neg hfree]
    refine ⟨_, rfl, ?_, ?_, ?_, fun d => ?_⟩
    · intro p hp
      rcases List.mem_append.mp hp with hold | hlast
      · exact h.issued p hold
      · rw [List.mem_singleton.mp hlast]
        exact hissued
    · intro p hp
      rcases List.mem_append.mp hp with hold | hlast
      · exact List.mem_cons_of_mem _ (h.ids p hold)
      · grind
    · rw [List.map_append, List.nodup_append]
      refine ⟨h.nodup, by simp, ?_⟩
      grind
    · rw [List.mem_cons, ← h.devices d]
      constructor
      · grind
      · grind

/-! ## The entries -/

def trustView (e : ReceiverRegistryEntry) : String × Option String × Bool :=
  (e.receiverId, e.michiId, e.revoked)

/-- One of the devices is the entry's, by its receiver id or by its michi id. -/
def isAnyDevice (devices : List String) (e : ReceiverRegistryEntry) : Bool :=
  devices.any fun d => isDevice d e

/-- The registry's entries in view, each revoked also when it is chosen. -/
def views (registry : ReceiverRegistry) (chosen : ReceiverRegistryEntry → Bool) :
    List (String × Option String × Bool) :=
  registry.receivers.map fun e => (e.receiverId, e.michiId, e.revoked || chosen e)

variable {registry reg : ReceiverRegistry} {chosen p : ReceiverRegistryEntry → Bool}
  {f : ReceiverRegistryEntry → ReceiverRegistryEntry}

theorem mem_revokedReceivers (reg : ReceiverRegistry) {receiverId : String}
    (h : reg.receivers.map trustView = views registry chosen) :
    receiverId ∈ revokedReceivers reg ↔
      ∃ e ∈ registry.receivers, e.receiverId = receiverId ∧ (e.revoked || chosen e) = true := by
  have hview : receiverId ∈ revokedReceivers reg ↔
      ∃ m, (receiverId, m, true) ∈ reg.receivers.map trustView := by
    simp only [revokedReceivers, trustView, List.mem_map, List.mem_filter, Prod.mk.injEq]
    grind
  rw [hview, h]
  simp [views]

theorem map_view_updateAll
    (h : reg.receivers.map trustView = views registry chosen)
    (hp : ∀ e e' : ReceiverRegistryEntry, e.receiverId = e'.receiverId → e.michiId = e'.michiId →
      p e = p e')
    (hf : ∀ e, (f e).michiId = e.michiId ∧ (f e).revoked = true) :
    (reg.updateAll p f).receivers.map trustView =
      views registry fun e => p e || chosen e := by
  -- both lists are one map of the view of the registry: revoke where the ids are chosen
  let g := fun v : String × Option String × Bool =>
    (v.1, v.2.1, v.2.2 || p { receiverId := v.1, michiId := v.2.1 })
  have hleft : (reg.updateAll p f).receivers.map trustView = (reg.receivers.map trustView).map g := by
    simp only [ReceiverRegistry.updateAll, ReceiverRegistry.map, List.map_map]
    refine List.map_congr_left fun e _ => ?_
    grind [trustView]
  rw [hleft, h, views, views, List.map_map]
  refine List.map_congr_left fun e _ => ?_
  grind

theorem map_view_stopSession (env : Env) (w : TrustManager) (receiverId : String) :
    (w.stopSession env receiverId).registry.receivers.map trustView =
      w.registry.receivers.map trustView := by
  unfold TrustManager.stopSession ReceiverRegistry.modify
  split
  · simp only
    split
    · simp only [ReceiverRegistry.updateAll, ReceiverRegistry.map, List.map_map]
      refine List.map_congr_left fun e _ => ?_
      simp only [Function.comp_apply, trustView]
      split <;> rfl
    · rfl
  · rfl

theorem stopSession_eq (env : Env) (w : TrustManager) (receiverId : String) :
    ∃ reg, w.stopSession env receiverId = { w with registry := reg } := by
  unfold TrustManager.stopSession
  split
  · exact ⟨_, rfl⟩
  · exact ⟨w.registry, rfl⟩

theorem stopSessions_eq (env : Env) (w : TrustManager) (receiverIds : List String) :
    ∃ reg, receiverIds.foldl (TrustManager.stopSession env) w = { w with registry := reg } ∧
      reg.receivers.map trustView = w.registry.receivers.map trustView := by
  induction receiverIds generalizing w with
  | nil => exact ⟨w.registry, rfl, rfl⟩
  | cons rid rest ih =>
    obtain ⟨reg₁, hstop⟩ := stopSession_eq env w rid
    have hview := map_view_stopSession env w rid
    obtain ⟨reg, hrest, hreg⟩ := ih (w.stopSession env rid)
    grind

/-! ## Live -/

/-- Where the manager is after revoking the devices, under the ids given out. -/
structure Live (home : HomeRootAuthority) (registry : ReceiverRegistry) (devices ids : List String)
    (w : TrustManager) : Prop where
  at_home : w.home = some home
  rows : ∃ rows, w.db = some rows ∧ Persisted home devices ids rows
  entries : w.registry.receivers.map trustView = views registry (isAnyDevice devices)

theorem Live.stopSessions (h : Live home registry devices ids w) (receiverIds : List String) :
    Live home registry devices ids (receiverIds.foldl (TrustManager.stopSession env) w) := by
  obtain ⟨reg, hstopped, hreg⟩ := stopSessions_eq env w receiverIds
  rw [hstopped]
  exact ⟨h.at_home, h.rows, hreg.trans h.entries⟩

def RevokeCall.revokes (c : RevokeCall) : List String :=
  if c.env.database.isOk then [c.deviceMichiId] else []

/-- A live revocation adds its devices, and its row. -/
theorem Live.revokeDevice (h : Live home registry devices ids w) (c : RevokeCall)
    (hnew : c.env.newId ∉ ids) :
    Live home registry (c.revokes ++ devices) (c.env.newId :: ids)
      (revokeDevice c.deviceMichiId c.reason c.env w).2 := by
  obtain ⟨rows, hdb, hrows⟩ := h.rows
  cases hdatabase : c.env.database with
  | error e =>
    have hpersist : w.persist c.env (revocationRow home c.deviceMichiId c.reason c.env) =
        .error ("Failed to persist revocation to database: " ++ e) := by
      simp only [TrustManager.persist, hdb, hdatabase, Except.bind]
    have hdevices : c.revokes = [] := by simp [RevokeCall.revokes, hdatabase, Except.isOk, Except.toBool]
    rw [revokeDevice_failed h.at_home hpersist, hdevices]
    exact ⟨h.at_home, ⟨rows, hdb, hrows.issued, fun p hp => List.mem_cons_of_mem _ (hrows.ids p hp),
      hrows.nodup, hrows.devices⟩, h.entries⟩
  | ok u =>
    obtain ⟨rows', htransaction, hrows'⟩ :=
      hrows.transaction (issued_revocationRow home c.deviceMichiId c.reason c.env) hnew
    have hpersist : w.persist c.env (revocationRow home c.deviceMichiId c.reason c.env) =
        .ok { w with db := some rows' } := by
      simp only [TrustManager.persist, hdb, hdatabase, Except.bind, htransaction]
    have hdevices : c.revokes = [c.deviceMichiId] := by
      simp [RevokeCall.revokes, hdatabase, Except.isOk, Except.toBool]
    rw [revokeDevice_persisted h.at_home hpersist, hdevices]
    refine Live.stopSessions (w := TrustManager.markDevice _ (TrustManager.pushRevocation _
      { w with db := some rows' })) ⟨h.at_home, ⟨rows', rfl, hrows'⟩, ?_⟩ _
    refine map_view_updateAll h.entries ?_ fun e => ⟨rfl, rfl⟩
    intro e e' hid hmichi
    simp only [isDevice, hid, hmichi]

/-- So do all of them. -/
theorem Live.revokeAll (h : Live home registry devices ids w) (calls : List RevokeCall)
    (hids : (calls.map fun c => c.env.newId).Nodup)
    (hnew : ∀ c ∈ calls, c.env.newId ∉ ids) :
    ∃ devices' ids', Live home registry devices' ids' (revokeAll calls w) ∧
      ∀ d, d ∈ devices' ↔ d ∈ devices ∨ d ∈ revokedDevices calls := by
  induction calls generalizing w devices ids with
  | nil => exact ⟨devices, ids, h, by simp [revokedDevices]⟩
  | cons c rest ih =>
    rw [List.map_cons, List.nodup_cons] at hids
    have hfirst := h.revokeDevice c (hnew c (List.mem_cons_self ..))
    have hrest : ∀ c' ∈ rest, c'.env.newId ∉ c.env.newId :: ids := by
      grind
    obtain ⟨devices', ids', hlive, hdevices⟩ := ih hfirst hids.2 hrest
    refine ⟨devices', ids', hlive, fun d => ?_⟩
    rw [hdevices d]
    cases hok : c.env.database.isOk with
    | true =>
      grind [RevokeCall.revokes, revokedDevices]
    | false =>
      simp only [RevokeCall.revokes, revokedDevices, List.filter_cons, hok, Bool.false_eq_true,
        if_false, List.nil_append]

/-! ## After the restart -/

theorem toDto_verified (hverifies : Verifies crates home) {p : PersistedHomeRevocation}
    (hp : Issued home p) :
    crates.verifyRevocation p.toDto home.publicKeyBase64url home.homeId = .ok () := by
  have h := hverifies p.revokedDeviceMichiId p.revokedAt p.reason
  rw [← hp.signature, ← hp.homeId] at h
  have hversion : ((1 : ℤ) % 2 ^ 32).toNat = 1 := by decide
  rw [← hp.homeId, PersistedHomeRevocation.toDto, hp.version, hversion]
  exact h

/-- Rows that verify are all accepted. -/
theorem verifyPersisted_accepted (crates : Crates) {persisted : List PersistedHomeRevocation}
    (h : ∀ p ∈ persisted,
      crates.verifyRevocation p.toDto home.publicKeyBase64url home.homeId = .ok ())
    (revs : List HomeDeviceRevocationDto) (count : ℕ) :
    ∃ count' revs', verifyPersisted crates home persisted revs count = (.ok count', revs') ∧
      ∀ d, d ∈ revs'.map HomeDeviceRevocationDto.revokedDeviceMichiId ↔
        d ∈ revs.map HomeDeviceRevocationDto.revokedDeviceMichiId ∨
          ∃ p ∈ persisted, p.revokedDeviceMichiId = d := by
  induction persisted generalizing revs count with
  | nil => exact ⟨count, revs, rfl, by simp⟩
  | cons p rest ih =>
    have hp := h p (List.mem_cons_self ..)
    have hrest := fun q hq => h q (List.mem_cons_of_mem _ hq)
    by_cases hknown : revs.any fun r => r.revokedDeviceMichiId = p.revokedDeviceMichiId
    · obtain ⟨count', revs', hresult, hdevices⟩ := ih hrest revs count
      have hmem : p.revokedDeviceMichiId ∈
          revs.map HomeDeviceRevocationDto.revokedDeviceMichiId := by
        simpa using hknown
      grind [verifyPersisted]
    · obtain ⟨count', revs', hresult, hdevices⟩ := ih hrest (revs ++ [p.toDto]) (count + 1)
      refine ⟨count', revs', ?_, fun d => ?_⟩
      · grind [verifyPersisted]
      · have hlast : p.toDto.revokedDeviceMichiId = p.revokedDeviceMichiId := rfl
        grind

/-- After a reload a receiver is revoked where a rule of some row matches it. -/
theorem reload_views (crates : Crates) (hverifies : Verifies crates home) (hlive : Live home registry devices ids w)
    (hdatabase : env.database = .ok ()) (reg : ReceiverRegistry) :
    (loadPersistedRevocations crates env (restart reg w)).2.registry.receivers.map trustView =
      views reg fun e => decide (e.michiId.getD e.receiverId ∈ devices) := by
  obtain ⟨rows, hdb, hrows⟩ := hlive.rows
  have hlisted : ∀ p, p ∈ listHomeRevocationsDb rows home.homeId ↔ p ∈ rows := by
    intro p
    simp only [listHomeRevocationsDb, List.mem_mergeSort, List.mem_filter, decide_eq_true_eq]
    exact ⟨fun h => h.1, fun h => ⟨h, (hrows.issued p h).homeId⟩⟩
  obtain ⟨count, revs, hverify, hdevices⟩ := verifyPersisted_accepted crates
    (fun p hp => toDto_verified hverifies (hrows.issued p ((hlisted p).mp hp))) [] 0
  have hdevices' : ∀ d, d ∈ revs.map HomeDeviceRevocationDto.revokedDeviceMichiId ↔ d ∈ devices := by
    intro d
    rw [hdevices d, ← hrows.devices d]
    simp only [List.map_nil, List.not_mem_nil, false_or, hlisted]
  rw [loadPersistedRevocations_ok (w := restart reg w) hdb hlive.at_home hdatabase hverify]
  have hchosen : ∀ e : ReceiverRegistryEntry,
      reconciled { restart reg w with revocations := revs } e =
        decide (e.michiId.getD e.receiverId ∈ devices) := by
    intro e
    simp only [reconciled, TrustManager.revoked, hdevices']
  have hself : reg.receivers.map trustView = views reg fun _ => false := by
    simp only [views, Bool.or_false]
    rfl
  have hmarked := map_view_updateAll (f := ReceiverRegistryEntry.revoke)
    (p := reconciled { restart reg w with revocations := revs }) hself
    (by intro e e' hid hmichi; simp only [hchosen, hid, hmichi]) fun e => ⟨rfl, rfl⟩
  simp only [hchosen, Bool.or_false] at hmarked
  exact hmarked

theorem isAnyDevice_iff {e : ReceiverRegistryEntry} :
    isAnyDevice devices e = true ↔ e.receiverId ∈ devices ∨ ∃ m ∈ e.michiId, m ∈ devices := by
  simp only [isAnyDevice, List.any_eq_true, isDevice, decide_eq_true_eq, Option.mem_def]
  constructor
  · grind
  · grind

theorem chosen_iff {e : ReceiverRegistryEntry} :
    (isAnyDevice devices e = true ↔ e.michiId.getD e.receiverId ∈ devices) ↔
      (e.receiverId ∈ devices → ∀ m ∈ e.michiId, m ∈ devices) := by
  rw [isAnyDevice_iff]
  cases hm : e.michiId with
  | none => simp
  | some m =>
    simp

/-- **Live and reloaded revocations agree exactly when no receiver id stands alone.** For every registry,
and all calls of `revoke_device` from an empty database, the receivers that are revoked after the calls
are those that are revoked when the entries are loaded again with the persisted revocations, if and only
if every entry that is not revoked already and has a revoked device's id for its receiver id has a
revoked device's id for its michi id too, or none. -/
theorem live_and_reload_agree_iff (crates : Crates) (home : HomeRootAuthority)
    (hverifies : Verifies crates home) (registry : ReceiverRegistry) (calls : List RevokeCall)
    (hids : (calls.map fun c => c.env.newId).Nodup) (env : Env) (hdatabase : env.database = .ok ()) :
    let live := revokeAll calls { registry := registry, home := some home, db := some [] }
    let reloaded := (loadPersistedRevocations crates env (restart registry live)).2
    (∀ receiverId, receiverId ∈ revokedReceivers live.registry ↔
        receiverId ∈ revokedReceivers reloaded.registry) ↔
      ∀ e ∈ registry.receivers, e.revoked = false → e.receiverId ∈ revokedDevices calls →
        ∀ m ∈ e.michiId, m ∈ revokedDevices calls := by
  intro live reloaded
  have hstart : Live home registry [] [] { registry := registry, home := some home, db := some [] } := by
    refine ⟨rfl, ⟨[], rfl, ?_⟩, ?_⟩
    · exact ⟨by simp, by simp, by simp, by simp⟩
    · simp only [views, isAnyDevice, List.any_nil, Bool.or_false]
      rfl
  obtain ⟨devices, ids, hlive, hdevices⟩ := hstart.revokeAll calls hids (by simp)
  simp only [List.not_mem_nil, false_or] at hdevices
  have hreloaded := reload_views crates hverifies hlive hdatabase registry
  simp only [mem_revokedReceivers live.registry hlive.entries,
    mem_revokedReceivers reloaded.registry hreloaded, Bool.or_eq_true, decide_eq_true_eq,
    ← hdevices]
  constructor
  · intro hagree e he hnot
    refine chosen_iff.mp ⟨fun hany => ?_, fun hmid => ?_⟩
    · obtain ⟨e', he', hid, hchosen⟩ := (hagree e.receiverId).mp ⟨e, he, rfl, .inr hany⟩
      obtain rfl := ReceiverRegistry.eq_of_receiverId he' he hid
      exact hchosen.resolve_left (by simp [hnot])
    · obtain ⟨e', he', hid, hchosen⟩ := (hagree e.receiverId).mpr ⟨e, he, rfl, .inr hmid⟩
      obtain rfl := ReceiverRegistry.eq_of_receiverId he' he hid
      exact hchosen.resolve_left (by simp [hnot])
  · intro hcondition receiverId
    refine exists_congr fun e => and_congr_right fun he => and_congr_right fun _ => ?_
    cases hrevoked : e.revoked with
    | true => simp
    | false =>
      have hsame := chosen_iff.mpr (hcondition e he hrevoked)
      simp [hsame]

theorem verifies_sampleHome : Verifies sampleCrates sampleHome := by
  intro deviceMichiId revokedAt reason
  simp [sampleCrates, sampleHome]

/-- One revocation, and a restart that loads it. -/
theorem live_and_reload_agree_iff_sample :
    let live := revokeAll [⟨"dev", "stolen", {}⟩]
      { registry := sampleRegistry, home := some sampleHome, db := some [] }
    let reloaded := (loadPersistedRevocations sampleCrates {} (restart sampleRegistry live)).2
    ∀ receiverId, receiverId ∈ revokedReceivers live.registry ↔
      receiverId ∈ revokedReceivers reloaded.registry :=
  (live_and_reload_agree_iff sampleCrates sampleHome verifies_sampleHome sampleRegistry
    [⟨"dev", "stolen", {}⟩] (by decide) {} rfl).mpr (by decide)

/-- **A receiver id is forgotten.** A receiver with a michi id is revoked by its receiver id, and is not
revoked any more after a restart. -/
theorem revoked_receiver_comes_back :
    let live := revokeAll [⟨"living-room", "stolen", {}⟩]
      { registry := sampleRegistry, home := some sampleHome, db := some [] }
    let reloaded := (loadPersistedRevocations sampleCrates {} (restart sampleRegistry live)).2
    "living-room" ∈ revokedReceivers live.registry ∧
      "living-room" ∉ revokedReceivers reloaded.registry := by
  decide +kernel

end MichiServer.Receivers.Trust
