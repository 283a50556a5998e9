import MichiServer.Receivers.Trust

/-!
# Revocation is final

A device in the revocation set has no entry in the registry that is not marked, as long as nobody
writes one. `revoke_device` and `load_persisted_revocations` first extend the set and then mark the
entries, so between the two the entries of the device wait for a task that is about to mark them. What
can bring a revoked device back are the writes that do not look at the set again: the one that ends an
authentication, the one that ends a pairing, and the two by which discovery gives an entry its michi
id. The run theorem says that there is nothing else.
-/

namespace MichiServer.Receivers.Trust

open MichiServer.Interleave

/-! ## What is asked -/

def Task.marks (m : String) : Task → Prop
  | .revokeDevice deviceMichiId (.mark _) => deviceMichiId = m
  | .loadPersistedRevocations (.reconcile _) => True
  | _ => False

instance (m : String) : (t : Task) → Decidable (t.marks m)
  | .revokeDevice deviceMichiId (.mark _) => inferInstanceAs (Decidable (deviceMichiId = m))
  | .loadPersistedRevocations (.reconcile _) => inferInstanceAs (Decidable True)
  | .revokeDevice _ (.issue _) | .revokeDevice _ (.persist _ _) | .revokeDevice _ (.push _)
  | .revokeDevice _ (.stopSessions _ _) | .loadPersistedRevocations .list
  | .loadPersistedRevocations (.verify _ _) | .authenticateReceiver _ _
  | .confirmPairing _ _ | .handleEvent _ | .returned _ => inferInstanceAs (Decidable False)

/-- An entry whose michi id is in the revocation set is marked, or a task is about to mark it. -/
def RevokedAreMarked (p : TrustPool) : Prop :=
  ∀ e ∈ p.world.registry.receivers, ∀ m ∈ e.michiId, m ∈ p.world.revoked →
    e.Marked ∨ ∃ t ∈ p.tasks, t.marks m

def accepted (crates : Crates) (home : HomeRootAuthority) (p : PersistedHomeRevocation) : Bool :=
  match crates.verifyRevocation p.toDto home.publicKeyBase64url home.homeId with
  | .ok () => true
  | .error _ => false

/-- The task's next step brings no revoked device back.

An authentication, a pairing or a projection gives no entry a revoked michi id; discovery links a
revoked michi id to a marked entry at most; and a load that refuses a row has not, in the rows before
it, the device of an entry that is neither marked nor in the set. -/
def Task.Respects (crates : Crates) (w : TrustManager) : Task → Prop
  | .authenticateReceiver receiverId (.writeEntry _ info) =>
    ∀ e ∈ w.registry.getMut receiverId, ∀ m ∈ info.michiId.or e.michiId, m ∉ w.revoked
  | .confirmPairing _ (.addEntry entry) => ∀ m ∈ entry.michiId, m ∉ w.revoked
  | .handleEvent (.discovered record) =>
    isReceiver record → record.baseUrl.isSome → w.registry.getMut record.michiId = none →
      record.michiId ∈ w.revoked → ∃ e ∈ legacyEntry w.registry record, e.Marked
  | .loadPersistedRevocations (.verify home persisted) =>
    (∃ p ∈ persisted, ¬ accepted crates home p) →
      ∀ p ∈ persisted.takeWhile (accepted crates home), ∀ e ∈ w.registry.receivers,
        e.michiId = some p.revokedDeviceMichiId →
          e.Marked ∨ p.revokedDeviceMichiId ∈ w.revoked
  | _ => True

/-- No step brings a revoked device back, and no call is dropped between adding a device to the set and
marking an entry of it. -/
def Careful (crates : Crates) (p : TrustPool) : TrustMove → Prop
  | .act i _ => ∀ t ∈ p.tasks[i]?, t.Respects crates p.world
  | .drop i => ∀ t ∈ p.tasks[i]?, ∀ e ∈ p.world.registry.receivers, ∀ m ∈ e.michiId,
      m ∈ p.world.revoked → t.marks m → e.Marked
  | _ => True

/-! ## What a step leaves -/

variable {crates : Crates} {w : TrustManager} {t : Task} {r : List Task × TrustManager} {env : Env}

/-- An entry with a revoked michi id after a task's step: it is marked, the task goes on to mark it, or
it is from before the step, no less marked than it was, and the task was not about to mark it. -/
def Accounted (w : TrustManager) (t : Task) (r : List Task × TrustManager) : Prop :=
  ∀ e' ∈ r.2.registry.receivers, ∀ m ∈ e'.michiId, m ∈ r.2.revoked →
    e'.Marked ∨ (∃ t' ∈ r.1, t'.marks m) ∨
      ¬ t.marks m ∧ m ∈ w.revoked ∧
        ∃ e ∈ w.registry.receivers, e.michiId = some m ∧ (e.Marked → e'.Marked)

theorem accounted_of_kept (ht : ∀ m, ¬ t.marks m) (hrevoked : r.2.revoked = w.revoked)
    (hkept : ∀ e' ∈ r.2.registry.receivers, ∃ e ∈ w.registry.receivers,
      e.michiId = e'.michiId ∧ (e.Marked → e'.Marked)) : Accounted w t r := by
  intro e' he' m hm hin
  obtain ⟨e, he, hmichi, hmarked⟩ := hkept e' he'
  rw [hrevoked] at hin
  exact .inr (.inr ⟨ht m, hin, e, he, hmichi.trans hm, hmarked⟩)

theorem accounted_of_same (ht : ∀ m, ¬ t.marks m) (hrevoked : r.2.revoked = w.revoked)
    (hregistry : r.2.registry = w.registry) : Accounted w t r := by
  grind [accounted_of_kept]

theorem accounted_of_modify {receiverId : String} {f : ReceiverRegistryEntry → ReceiverRegistryEntry}
    (ht : ∀ m, ¬ t.marks m) (hrevoked : r.2.revoked = w.revoked)
    (hregistry : r.2.registry = w.registry.modify receiverId f)
    (hf : ∀ e, (f e).michiId = e.michiId ∧ (e.Marked → (f e).Marked)) : Accounted w t r := by
  refine accounted_of_kept ht hrevoked fun e' he' => ?_
  rw [hregistry] at he'
  rcases ReceiverRegistry.mem_modify he' with hold | ⟨e, hfound, rfl⟩
  · exact ⟨e', hold, rfl, fun h => h⟩
  · exact ⟨e, ReceiverRegistry.mem_of_getMut hfound, (hf e).1.symm, (hf e).2⟩

theorem mem_revoked {m : String} :
    m ∈ w.revoked ↔ ∃ r ∈ w.revocations, r.revokedDeviceMichiId = m := by
  simp [TrustManager.revoked]

theorem persist_eq {pRev : PersistedHomeRevocation} {w' : TrustManager}
    (h : w.persist env pRev = .ok w') : ∃ db, w' = { w with db := db } := by
  unfold TrustManager.persist at h
  split at h
  · exact ⟨w.db, (Except.ok.inj h).symm⟩
  · grind

/-- Each step of a revocation accounts for what it marks. -/
theorem revokeStep_accounted (deviceMichiId : String) (stage : RevokeStage deviceMichiId) :
    Accounted w (.revokeDevice deviceMichiId stage) (revokeStep deviceMichiId env w stage) := by
  cases stage with
  | issue reason =>
    simp only [revokeStep]
    split
    · exact accounted_of_same (fun _ => id) rfl rfl
    · exact accounted_of_same (fun _ => id) rfl rfl
  | persist revocation pRev =>
    simp only [revokeStep]
    split
    · exact accounted_of_same (fun _ => id) rfl rfl
    · rename_i w' hpersist
      obtain ⟨db, rfl⟩ := persist_eq hpersist
      exact accounted_of_same (fun _ => id) rfl rfl
  | push revocation =>
    simp only [revokeStep]
    split
    · exact accounted_of_same (fun _ => id) rfl rfl
    · intro e' he' m hm hin
      obtain ⟨r, hr, hdevice⟩ := mem_revoked.mp hin
      rcases List.mem_append.mp hr with hold | hnew
      · have hrevoked : m ∈ w.revoked := mem_revoked.mpr ⟨r, List.mem_of_mem_filter hold, hdevice⟩
        exact .inr (.inr ⟨id, hrevoked, e', he', hm, id⟩)
      · have hmark : deviceMichiId = m := by
          rw [← revocation.property, ← hdevice, List.mem_singleton.mp hnew]
        exact .inr (.inl ⟨_, List.mem_singleton_self _, hmark⟩)
  | mark revocation =>
    intro e' he' m hm hin
    obtain ⟨e, he, ⟨-, rfl⟩ | ⟨hother, rfl⟩⟩ := ReceiverRegistry.mem_updateAll he'
    · exact .inl (by simp [ReceiverRegistryEntry.Marked, ReceiverRegistryEntry.revoke])
    · have hne : ¬ deviceMichiId = m := by
        rintro rfl
        simp [isDevice, Option.mem_def.mp hm] at hother
      exact .inr (.inr ⟨hne, hin, e', he, hm, id⟩)
  | stopSessions revocation receiverIds =>
    cases receiverIds with
    | nil => exact accounted_of_same (fun _ => id) rfl rfl
    | cons rid rest =>
      simp only [revokeStep, TrustManager.stopSession]
      split
      · exact accounted_of_modify (fun _ => id) rfl rfl fun e => ⟨rfl, id⟩
      · exact accounted_of_same (fun _ => id) rfl rfl

/-- What is accepted was there, or is a row before the first that fails. -/
theorem verifyPersisted_spec (crates : Crates) (home : HomeRootAuthority) (persisted : List PersistedHomeRevocation)
    (revs : List HomeDeviceRevocationDto) (count : ℕ) :
    (∀ r ∈ (verifyPersisted crates home persisted revs count).2, r ∈ revs ∨
      ∃ p ∈ persisted.takeWhile (accepted crates home), r = p.toDto) ∧
    ∀ e, (verifyPersisted crates home persisted revs count).1 = .error e →
      ∃ p ∈ persisted, ¬ accepted crates home p := by
  induction persisted generalizing revs count with
  | nil =>
    simp only [verifyPersisted]
    exact ⟨fun r hr => .inl hr, by simp⟩
  | cons p rest ih =>
    cases hverify : crates.verifyRevocation p.toDto home.publicKeyBase64url home.homeId with
    | error e =>
      have hrefused : ¬ accepted crates home p := by simp [accepted, hverify]
      grind [verifyPersisted]
    | ok u =>
      have haccepted : accepted crates home p := by simp [accepted, hverify]
      simp only [verifyPersisted, hverify, List.takeWhile_cons, haccepted, if_true]
      split
      · grind
      · grind

/-- Each step of a load accounts for what it marks. -/
theorem loadStep_accounted (stage : LoadStage)
    (h : (Task.loadPersistedRevocations stage).Respects crates w) :
    Accounted w (.loadPersistedRevocations stage) (loadStep crates env w stage) := by
  cases stage with
  | list =>
    simp only [loadStep]
    split
    · split
      · exact accounted_of_same (fun _ => id) rfl rfl
      · exact accounted_of_same (fun _ => id) rfl rfl
    · exact accounted_of_same (fun _ => id) rfl rfl
  | verify home persisted =>
    obtain ⟨hadded, herror⟩ :=
      verifyPersisted_spec crates home persisted w.revocations 0
    simp only [loadStep]
    split
    · exact accounted_of_same (fun _ => id) rfl rfl
    · split
      · rename_i e revs hresult
        rw [hresult] at hadded herror
        intro e' he' m hm hin
        obtain ⟨r, hr, hdevice⟩ := mem_revoked.mp hin
        rcases hadded r hr with hold | ⟨p, hp, rfl⟩
        · exact .inr (.inr ⟨id, mem_revoked.mpr ⟨r, hold, hdevice⟩, e', he', hm, id⟩)
        · -- a row before the refused one: its device has no unmarked entry that is not already revoked
          have hmichi : e'.michiId = some p.revokedDeviceMichiId := by
            rw [Option.mem_def.mp hm, ← hdevice]
            rfl
          rcases h (herror e rfl) p hp e' he' hmichi with hmarked | hrevoked
          · exact .inl hmarked
          · have hm' : m = p.revokedDeviceMichiId := hdevice.symm
            exact .inr (.inr ⟨id, hm' ▸ hrevoked, e', he', hm, id⟩)
      · intro e' he' m hm hin
        exact .inr (.inl ⟨_, List.mem_singleton_self _, trivial⟩)
  | reconcile count =>
    intro e' he' m hm hin
    obtain ⟨e, he, ⟨-, rfl⟩ | ⟨hother, rfl⟩⟩ := ReceiverRegistry.mem_updateAll he'
    · exact .inl (by simp [ReceiverRegistryEntry.Marked, ReceiverRegistryEntry.revoke])
    · have hnot : m ∉ w.revoked := by simpa [reconciled, Option.mem_def.mp hm] using hother
      exact absurd hin hnot

/-- So does each step of an authentication. -/
theorem authStep_accounted (receiverId : String) (stage : AuthStage)
    (h : (Task.authenticateReceiver receiverId stage).Respects crates w) :
    Accounted w (.authenticateReceiver receiverId stage) (authStep receiverId env w stage) := by
  cases stage with
  | enter | trust | authenticate homeCtx | getInfo sessionToken =>
    simp only [authStep]
    split
    · exact accounted_of_same (fun _ => id) rfl rfl
    · exact accounted_of_same (fun _ => id) rfl rfl
  | readEntry =>
    simp only [authStep]
    split
    · exact accounted_of_same (fun _ => id) rfl rfl
    · split
      · exact accounted_of_same (fun _ => id) rfl rfl
      · exact accounted_of_same (fun _ => id) rfl rfl
  | context clientId =>
    simp only [authStep]
    split
    · exact accounted_of_same (fun _ => id) rfl rfl
    · split
      · exact accounted_of_same (fun _ => id) rfl rfl
      · split
        · exact accounted_of_same (fun _ => id) rfl rfl
        · exact accounted_of_same (fun _ => id) rfl rfl
  | markRevoked targetMid =>
    exact accounted_of_modify (fun _ => id) rfl rfl fun e => ⟨rfl, fun _ => e.marked_revoke⟩
  | writeEntry sessionToken info =>
    intro e' he' m hm hin
    rcases ReceiverRegistry.mem_modify he' with hold | ⟨e, hfound, rfl⟩
    · exact .inr (.inr ⟨id, hin, e', hold, hm, id⟩)
    · exact absurd hin (h e hfound m hm)
  | leave res => exact accounted_of_same (fun _ => id) rfl rfl

/-- So does each step of a pairing. -/
theorem pairStep_accounted (pairingId : String) (stage : PairStage)
    (h : (Task.confirmPairing pairingId stage).Respects crates w) :
    Accounted w (.confirmPairing pairingId stage) (pairStep crates pairingId env w stage) := by
  cases stage with
  | readPending =>
    simp only [pairStep]
    split
    · exact accounted_of_same (fun _ => id) rfl rfl
    · split
      · exact accounted_of_same (fun _ => id) rfl rfl
      · exact accounted_of_same (fun _ => id) rfl rfl
  | pairConfirm pending =>
    simp only [pairStep]
    split
    · exact accounted_of_same (fun _ => id) rfl rfl
    · split
      · exact accounted_of_same (fun _ => id) rfl rfl
      · exact accounted_of_same (fun _ => id) rfl rfl
  | removePending res => exact accounted_of_same (fun _ => id) rfl rfl
  | preInfo pending | recover pending e | recoverReported pending err
  | freshInfo pending token =>
    simp only [pairStep]
    split
    · exact accounted_of_same (fun _ => id) rfl rfl
    · exact accounted_of_same (fun _ => id) rfl rfl
  | addEntry entry =>
    intro e' he' m hm hin
    rcases ReceiverRegistry.mem_add he' with hold | rfl
    · exact .inr (.inr ⟨id, hin, e', hold, hm, id⟩)
    · exact absurd hin (h m hm)

theorem mem_legacyEntry {reg : ReceiverRegistry} {record : ScentRecord} {e : ReceiverRegistryEntry}
    (h : legacyEntry reg record = some e) : e ∈ reg.receivers :=
  List.mem_of_find?_eq_some h

/-- An event makes no entry of a revoked device that is not marked. -/
theorem handleEvent_accounted {event : ScentEvent}
    (h : (Task.handleEvent event).Respects crates w) {e' : ReceiverRegistryEntry}
    (he' : e' ∈ (handleEvent w.registry event).2.receivers) {m : String} (hm : m ∈ e'.michiId)
    (hin : m ∈ w.revoked) :
    e'.Marked ∨ ∃ e ∈ w.registry.receivers, e.michiId = some m ∧ (e.Marked → e'.Marked) := by
  have hmodify : ∀ {id : String} {f : ReceiverRegistryEntry → ReceiverRegistryEntry},
      e' ∈ (w.registry.modify id f).receivers →
        (∀ e, (f e).michiId = e.michiId ∧ (e.Marked → (f e).Marked)) →
          ∃ e ∈ w.registry.receivers, e.michiId = some m ∧ (e.Marked → e'.Marked) := by
    intro id f hmem hf
    rcases ReceiverRegistry.mem_modify hmem with hold | ⟨e, hfound, rfl⟩
    · exact ⟨e', hold, hm, fun h => h⟩
    · exact ⟨e, ReceiverRegistry.mem_of_getMut hfound, (hf e).1.symm.trans hm, (hf e).2⟩
  cases event with
  | endpointChanged michiId new presenceSource verified =>
    simp only [handleEvent] at he'
    split at he'
    · exact .inr (hmodify he' fun e => ⟨rfl, id⟩)
    · exact .inr ⟨e', he', hm, id⟩
  | offline michiId => exact .inr (hmodify he' fun e => ⟨rfl, id⟩)
  | discovered record =>
    simp only [handleEvent, reconcileRecord] at he'
    split at he'
    · rename_i baseUrl hreceiver hbase
      have hknown := h hreceiver (by simp [hbase])
      split at he'
      · exact .inr (hmodify he' fun e => ⟨rfl, id⟩)
      · rename_i hnone
        split at he'
        · rename_i legacy hlegacy
          obtain ⟨e, he, ⟨hid, rfl⟩ | ⟨-, rfl⟩⟩ := ReceiverRegistry.mem_updateAll he'
          · -- the linked entry: it has the record's michi id now, and is marked if that is revoked
            obtain rfl : record.michiId = m := Option.some.inj hm
            obtain ⟨e₀, he₀, hmarked⟩ := hknown hnone hin
            obtain rfl : legacy = e₀ := Option.some.inj (hlegacy.symm.trans he₀)
            have hsame : e = legacy :=
              ReceiverRegistry.eq_of_receiverId he (mem_legacyEntry hlegacy) (by simpa using hid)
            exact .inl (hsame ▸ hmarked)
          · exact .inr ⟨e', he, hm, id⟩
        · rename_i hlegacy
          rcases ReceiverRegistry.mem_add he' with hold | rfl
          · exact .inr ⟨e', hold, hm, id⟩
          · obtain rfl : record.michiId = m := Option.some.inj hm
            grind
    · exact .inr ⟨e', he', hm, id⟩

/-- **The step.** A respectful step accounts for every entry with a revoked michi id. -/
theorem step_accounted (h : t.Respects crates w) :
    Accounted w t ((trustManager crates).step t env w) := by
  cases t with
  | revokeDevice deviceMichiId stage => exact revokeStep_accounted deviceMichiId stage
  | loadPersistedRevocations stage => exact loadStep_accounted stage h
  | authenticateReceiver receiverId stage => exact authStep_accounted receiverId stage h
  | confirmPairing pairingId stage => exact pairStep_accounted pairingId stage h
  | handleEvent event =>
    intro e' he' m hm hin
    rcases handleEvent_accounted h he' hm hin with hmarked | ⟨e, he, hmichi, hkept⟩
    · exact .inl hmarked
    · exact .inr (.inr ⟨id, hin, e, he, hmichi, hkept⟩)
  | returned answer => exact accounted_of_same (fun _ => id) rfl rfl

/-! ## Runs -/

theorem act_revokedAreMarked {p : TrustPool} {i : ℕ} (hp : RevokedAreMarked p)
    (hcareful : Careful crates p (.act i env)) :
    RevokedAreMarked (p.step (trustManager crates) (.act i env)) := by
  cases ht : p.tasks[i]? with
  | none =>
    grind [trustManager, Pool.step]
  | some t =>
    have haccounted : Accounted p.world t ((trustManager crates).step t env p.world) :=
      step_accounted (hcareful t ht)
    intro e' he' m hm hin
    rw [Pool.step_world ht] at he' hin
    rcases haccounted e' he' m hm hin with hmarked | ⟨t', ht', hmarks⟩ | ⟨hnot, hold, e, he, hmichi, hkept⟩
    · exact .inl hmarked
    · exact .inr ⟨t', Pool.mem_step_of_next ht ht', hmarks⟩
    · rcases hp e he m hmichi hold with hmarked | ⟨u, hu, hmarks⟩
      · exact .inl (hkept hmarked)
      · grind [Pool.mem_step_of_mem]

/-- Each careful move leaves the revoked ones marked. -/
theorem step_revokedAreMarked (p : TrustPool) (move : TrustMove) (hp : RevokedAreMarked p)
    (hcareful : Careful crates p move) :
    RevokedAreMarked (p.step (trustManager crates) move) := by
  cases move with
  | act i env => exact act_revokedAreMarked hp hcareful
  | arrive c =>
    intro e he m hm hin
    rcases hp e he m hm hin with hmarked | ⟨t, ht, hmarks⟩
    · exact .inl hmarked
    · exact .inr ⟨t, List.mem_append_left _ ht, hmarks⟩
  | drop i =>
    intro e he m hm hin
    rcases hp e he m hm hin with hmarked | ⟨t, ht, hmarks⟩
    · exact .inl hmarked
    · rcases Pool.mem_drop i ht with hdropped | hstays
      · exact .inl (hcareful t hdropped e he m hm hin hmarks)
      · exact .inr ⟨t, hstays, hmarks⟩
  | tick b =>
    cases b with
    | startPairing now pending => exact hp
    | rehash registry =>
      simp only [Pool.step, trustManager]
      split
      · rename_i hperm
        intro e he m hm hin
        exact hp e (hperm.mem_iff.mp he) m hm hin
      · exact hp

/-- A manager before any call of it: no device is in the revocation set. -/
def TrustPool.fresh (home : Option HomeRootAuthority) (db : Option (List PersistedHomeRevocation))
    (trustState : TrustState) (registry : ReceiverRegistry) : TrustPool where
  tasks := []
  world := { registry := registry, trustState := trustState, home := home, db := db }

/-- **Revocation is final.** In every careful run, from any registry and any database, every entry whose
michi id is in the revocation set is marked, in every state in which no call is about to mark it. -/
theorem revocation_is_final (crates : Crates) (home : Option HomeRootAuthority)
    (db : Option (List PersistedHomeRevocation)) (trustState : TrustState)
    (registry : ReceiverRegistry) (moves : List TrustMove)
    (hmoves : (TrustPool.fresh home db trustState registry).Obeys (trustManager crates)
      (Careful crates) moves) :
    let p := (TrustPool.fresh home db trustState registry).run (trustManager crates) moves
    ∀ e ∈ p.world.registry.receivers, ∀ m ∈ e.michiId, m ∈ p.world.revoked →
      (∀ t ∈ p.tasks, ¬ t.marks m) → e.Marked := by
  intro p e he m hm hin hnone
  have hfresh : RevokedAreMarked (TrustPool.fresh home db trustState registry) := by
    intro e _ m _ hin
    simp [TrustPool.fresh, TrustManager.revoked] at hin
  have hp : RevokedAreMarked p := Logic.Trace.run_invariant step_revokedAreMarked hfresh hmoves
  rcases hp e he m hm hin with hmarked | ⟨t, ht, hmarks⟩
  · exact hmarked
  · exact absurd hmarks (hnone t ht)

/-! ## Sample runs -/

instance (t : Task) : Decidable (t.Respects crates w) := by
  unfold Task.Respects
  split <;> infer_instance

instance (p : TrustPool) (move : TrustMove) : Decidable (Careful crates p move) := by
  cases move <;> unfold Careful <;> infer_instance

abbrev samplePool : TrustPool := .fresh (some sampleHome) (some []) .ready sampleRegistry

def sampleRevocation (i : ℕ) : List TrustMove :=
  .arrive (.revokeDevice "dev" "stolen") :: List.replicate 6 (.act i {})

def sampleAuthentication : List TrustMove :=
  [.arrive (.authenticateReceiver "living-room"), .act 0 {}, .act 0 {}, .act 0 {}, .act 0 {},
    .act 0 { sessionToken := .ok "token" }, .act 0 { info := .ok { michiId := some "dev" } }]

set_option maxRecDepth 20000 in
/-- A device is revoked, and its receiver is marked. -/
theorem revocation_is_final_sample :
    let p := samplePool.run (trustManager sampleCrates) (sampleRevocation 0)
    ∃ e ∈ p.world.registry.receivers, e.michiId = some "dev" ∧ "dev" ∈ p.world.revoked ∧
      e.Marked := by
  intro p
  have hstate : ∃ e ∈ p.world.registry.receivers, e.michiId = some "dev" ∧
      "dev" ∈ p.world.revoked ∧ ∀ t ∈ p.tasks, ¬ t.marks "dev" := by decide
  obtain ⟨e, he, hm, hin, hnone⟩ := hstate
  exact ⟨e, he, hm, hin, revocation_is_final sampleCrates (some sampleHome) (some []) .ready
    sampleRegistry (sampleRevocation 0) (by decide) e he "dev" hm hin hnone⟩

set_option maxRecDepth 20000 in
/-- **Revocation is not final.** An authentication that passed its checks before the device was revoked
writes the entry after it: paired, authenticated and with a token, though no call is about to mark
it. -/
theorem authentication_outlives_revocation :
    let p := samplePool.run (trustManager sampleCrates)
      (sampleAuthentication ++ sampleRevocation 1 ++ [.act 0 {}, .act 0 {}])
    ∃ e ∈ p.world.registry.receivers, e.michiId = some "dev" ∧ "dev" ∈ p.world.revoked ∧
      (∀ t ∈ p.tasks, ¬ t.marks "dev") ∧
      e.paired = true ∧ e.authenticated = true ∧ e.token = some "token" ∧ ¬ e.Marked := by
  decide
end MichiServer.Receivers.Trust
