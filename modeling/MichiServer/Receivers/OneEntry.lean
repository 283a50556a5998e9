import MichiServer.Receivers.Revocation
import MichiServer.Receivers.Unpairing

/-!
# One entry for a device

The start, the discovery bridge, the authentications, the pairings and the deletion write the registry
in turn, each under its lock. An entry is put in under an id of the writer's choice: that of its row, the
michi id, the device id, or the address. The bridge looks first whether an entry has the michi id. The
others look at the key alone, if at all, so a receiver that was heard of under its michi id gets a
second entry under its device id.
-/

namespace MichiServer.Receivers.Bootstrap

open MichiServer.Interleave MichiServer.Receivers.Trust

/-! ## Writes -/

/-- What is done to the registry in one go. `authenticate_url` has read its receiver id before; an
`update` leaves the michi ids; a map may take another order at any time. -/
inductive RegistryWrite where
  | restore (rec : PersistedReceiver) (token : Option String)
  | recover (receiverId token baseUrl : String) (info : RemoteInfo)
  | handleEvent (event : Trust.ScentEvent)
  | authenticateUrl (receiverId baseUrl : String) (info : RemoteInfo)
  | authenticateReceiver (receiverId sessionToken : String) (info : ReceiverInfo)
  | confirmPairing (entry : ReceiverRegistryEntry)
  | deleteReceiver (id : String)
  | update (chosen : ReceiverRegistryEntry → Bool) (f : ReceiverRegistryEntry → ReceiverRegistryEntry)
      (kept : ∀ e, (f e).michiId = e.michiId)
  | rehash (registry : ReceiverRegistry)

def write (reg : ReceiverRegistry) : RegistryWrite → ReceiverRegistry
  | .restore rec token => reg.add (restoredEntry rec token)
  | .recover receiverId token baseUrl info => reg.add (recoveredEntry receiverId token baseUrl info)
  | .handleEvent event => (Trust.handleEvent reg event).2
  | .authenticateUrl receiverId baseUrl info =>
    if (reg.get receiverId).isNone then reg.add { receiverId, michiId := info.michiId, baseUrl }
    else reg
  | .authenticateReceiver receiverId sessionToken info =>
    reg.modify receiverId (authenticatedEntry sessionToken info)
  | .confirmPairing entry => reg.add entry
  | .deleteReceiver id => (reg.modify id unpair).remove id
  | .update chosen f _ => reg.updateAll chosen f
  | .rehash registry => if registry.receivers.Perm reg.receivers then registry else reg

def GoesBy (e : ReceiverRegistryEntry) (id : String) : Prop := e.receiverId = id ∨ e.michiId = some id

/-- No two entries have one michi id, and an entry is what its receiver id and its michi id find. -/
structure OneEach (reg : ReceiverRegistry) : Prop where
  michiId : ∀ a ∈ reg.receivers, ∀ b ∈ reg.receivers, ∀ m ∈ a.michiId, m ∈ b.michiId → a = b
  get : ∀ e ∈ reg.receivers, ∀ id, GoesBy e id → reg.get id = some e
  getMut : ∀ e ∈ reg.receivers, ∀ id, GoesBy e id → reg.getMut id = some e

def Free (reg : ReceiverRegistry) (receiverId : String) (michiId : Option String) : Prop :=
  ∀ e ∈ reg.receivers, e.receiverId ≠ receiverId →
    ¬ GoesBy e receiverId ∧ ∀ m ∈ michiId, ¬ GoesBy e m

/-- The ids that an entry is put in under, or that it is given, are free. -/
def Fits (reg : ReceiverRegistry) : RegistryWrite → Prop
  | .restore rec _ => Free reg rec.id rec.michiId
  | .recover receiverId _ _ info => Free reg receiverId info.michiId
  | .authenticateUrl receiverId _ info =>
    reg.get receiverId = none → Free reg receiverId info.michiId
  | .authenticateReceiver receiverId _ info =>
    ∀ e ∈ reg.getMut receiverId, Free reg e.receiverId (info.michiId.or e.michiId)
  | .confirmPairing entry => Free reg entry.receiverId entry.michiId
  | _ => True

/-! ## Ids of one entry -/

def Unshared (reg : ReceiverRegistry) : Prop :=
  ∀ a ∈ reg.receivers, ∀ b ∈ reg.receivers, ∀ id, GoesBy a id → GoesBy b id → a = b

variable {reg reg' : ReceiverRegistry} {e entry : ReceiverRegistryEntry} {id : String}
  {f : ReceiverRegistryEntry → ReceiverRegistryEntry}

theorem goesBy_of_get (h : reg.get id = some e) : e ∈ reg.receivers ∧ GoesBy e id := by
  refine ⟨ReceiverRegistry.mem_of_get h, ?_⟩
  obtain hkey | ⟨-, hfound⟩ := Option.or_eq_some_iff.mp h
  · exact .inl (ReceiverRegistry.entry_receiverId hkey)
  · have hid := List.find?_some hfound
    exact (of_decide_eq_true hid).symm

theorem goesBy_of_getMut (h : reg.getMut id = some e) : e ∈ reg.receivers ∧ GoesBy e id := by
  refine ⟨ReceiverRegistry.mem_of_getMut h, ?_⟩
  obtain hkey | ⟨-, hfound⟩ := Option.or_eq_some_iff.mp h
  · exact .inl (ReceiverRegistry.entry_receiverId hkey)
  · have hid := List.find?_some hfound
    exact .inr (of_decide_eq_true hid)

theorem not_goesBy_of_get (h : reg.get id = none) (he : e ∈ reg.receivers) : ¬ GoesBy e id := by
  have hnone := List.find?_eq_none.mp (Option.or_eq_none_iff.mp h).2 e he
  simpa [GoesBy, or_comm] using hnone

theorem not_goesBy_of_getMut (h : reg.getMut id = none) (he : e ∈ reg.receivers) : ¬ GoesBy e id :=
  not_goesBy_of_get (ReceiverRegistry.get_eq_none_of_getMut h) he

theorem oneEach_iff : OneEach reg ↔ Unshared reg := by
  constructor
  · intro h a ha b hb id haid hbid
    exact Option.some.inj ((h.get a ha id haid).symm.trans (h.get b hb id hbid))
  · intro h
    refine ⟨fun a ha b hb m hma hmb => h a ha b hb m (.inr hma) (.inr hmb), ?_, ?_⟩
    · intro e he id hid
      cases hget : reg.get id with
      | none => exact absurd hid (not_goesBy_of_get hget he)
      | some found =>
        obtain ⟨hfound, hfoundid⟩ := goesBy_of_get hget
        rw [h found hfound e he id hfoundid hid]
    · intro e he id hid
      cases hget : reg.getMut id with
      | none => exact absurd hid (not_goesBy_of_getMut hget he)
      | some found =>
        obtain ⟨hfound, hfoundid⟩ := goesBy_of_getMut hget
        rw [h found hfound e he id hfoundid hid]

theorem Unshared.subset (h : Unshared reg) (hsub : ∀ e ∈ reg'.receivers, e ∈ reg.receivers) :
    Unshared reg' :=
  fun a ha b hb => h a (hsub a ha) b (hsub b hb)

theorem mem_add_iff : e ∈ (reg.add entry).receivers ↔
    e ∈ reg.receivers ∧ e.receiverId ≠ entry.receiverId ∨ e = entry := by
  simp [ReceiverRegistry.add]

theorem Free.not_goesBy (h : Free reg entry.receiverId entry.michiId) (he : e ∈ reg.receivers)
    (hne : e.receiverId ≠ entry.receiverId) (hid : GoesBy entry id) : ¬ GoesBy e id := by
  rcases hid with rfl | hmichi
  · exact (h e he hne).1
  · exact (h e he hne).2 id hmichi

theorem unshared_add_iff (h : Unshared reg) :
    Unshared (reg.add entry) ↔ Free reg entry.receiverId entry.michiId := by
  constructor
  · intro hadd e he hne
    have hother : ∀ id, GoesBy entry id → ¬ GoesBy e id := fun id hid heid =>
      hne (congrArg _ (hadd e (mem_add_iff.mpr (.inl ⟨he, hne⟩)) entry (mem_add_iff.mpr (.inr rfl))
        id heid hid))
    exact ⟨hother _ (.inl rfl), fun m hm => hother m (.inr hm)⟩
  · intro hfree a ha b hb id haid hbid
    rcases mem_add_iff.mp ha with ⟨haold, hane⟩ | rfl <;>
      rcases mem_add_iff.mp hb with ⟨hbold, hbne⟩ | rfl
    · exact h a haold b hbold id haid hbid
    · exact absurd haid (hfree.not_goesBy haold hane hbid)
    · exact absurd hbid (hfree.not_goesBy hbold hbne haid)
    · rfl

theorem mem_write_iff (he : e ∈ reg.receivers) {x : ReceiverRegistryEntry} :
    x ∈ (reg.updateAll (fun a => a.receiverId = e.receiverId) f).receivers ↔
      x ∈ (reg.add { f e with receiverId := e.receiverId }).receivers := by
  rw [ReceiverRegistry.receivers_write, List.mem_map, mem_add_iff]
  constructor
  · rintro ⟨b, hb, rfl⟩
    by_cases hkey : b.receiverId = e.receiverId
    · rw [ReceiverRegistry.eq_of_receiverId hb he hkey, ReceiverRegistry.written_self]
      exact .inr rfl
    · rw [ReceiverRegistry.written_of_ne hkey]
      exact .inl ⟨hb, hkey⟩
  · grind [ReceiverRegistry.written_of_ne, ReceiverRegistry.written_self]

theorem unshared_write_iff (h : Unshared reg) (he : e ∈ reg.receivers) :
    Unshared (reg.updateAll (fun a => a.receiverId = e.receiverId) f) ↔
      Free reg e.receiverId (f e).michiId :=
  calc Unshared (reg.updateAll (fun a => a.receiverId = e.receiverId) f)
    _ ↔ Unshared (reg.add { f e with receiverId := e.receiverId }) :=
        ⟨fun h => h.subset fun _ => (mem_write_iff he).mpr,
          fun h => h.subset fun _ => (mem_write_iff he).mp⟩
    _ ↔ Free reg e.receiverId (f e).michiId := unshared_add_iff h

/-! ## One write -/

theorem unshared_update (h : Unshared reg) {p : ReceiverRegistryEntry → Bool}
    (hf : ∀ e, (f e).michiId = e.michiId) : Unshared (reg.updateAll p f) := by
  -- an entry after the update goes by the ids of the one it comes from
  have hold : ∀ a' ∈ (reg.updateAll p f).receivers, ∃ a ∈ reg.receivers,
      a'.receiverId = a.receiverId ∧ a'.michiId = a.michiId := by
    grind [ReceiverRegistry.mem_updateAll]
  intro a' ha' b' hb' id haid hbid
  obtain ⟨a, ha, hkeya, hmichia⟩ := hold a' ha'
  obtain ⟨b, hb, hkeyb, hmichib⟩ := hold b' hb'
  rw [GoesBy, hkeya, hmichia] at haid
  rw [GoesBy, hkeyb, hmichib] at hbid
  refine ReceiverRegistry.eq_of_receiverId ha' hb' ?_
  rw [hkeya, hkeyb, h a ha b hb id haid hbid]

theorem unshared_modify (h : Unshared reg) (id : String) (hf : ∀ e, (f e).michiId = e.michiId) :
    Unshared (reg.modify id f) := by
  rw [ReceiverRegistry.modify]
  split
  · exact unshared_update h hf
  · exact h

/-- A record that is reconciled makes no second entry. -/
theorem unshared_reconcileRecord (h : Unshared reg) (record : Trust.ScentRecord) :
    Unshared (Trust.reconcileRecord record reg).2 := by
  unfold Trust.reconcileRecord
  split
  next baseUrl _ _ =>
    simp only
    split
    · exact unshared_modify h _ fun _ => rfl
    next hget =>
      split
      next found hfound =>
        have hmem := mem_legacyEntry hfound
        refine (unshared_write_iff h hmem).mpr fun e he hne => ⟨fun hid => hne ?_, ?_⟩
        · rw [h e he found hmem _ hid (.inl rfl)]
        · rintro m ⟨⟩
          exact not_goesBy_of_getMut hget he
      · refine (unshared_add_iff h).mpr fun e he _ => ⟨not_goesBy_of_getMut hget he, ?_⟩
        rintro m ⟨⟩
        exact not_goesBy_of_getMut hget he
  · exact h

theorem unshared_handleEvent (h : Unshared reg) (event : Trust.ScentEvent) :
    Unshared (Trust.handleEvent reg event).2 := by
  cases event with
  | discovered record => exact unshared_reconcileRecord h record
  | endpointChanged michiId new presenceSource verified =>
    grind [Trust.handleEvent, unshared_modify]
  | offline michiId => exact unshared_modify h _ fun _ => rfl

/-- A write keeps one entry each exactly where it fits. -/
theorem unshared_write (h : Unshared reg) (w : RegistryWrite) :
    Unshared (write reg w) ↔ Fits reg w := by
  cases w with
  | restore rec token => exact unshared_add_iff h
  | recover receiverId token baseUrl info => exact unshared_add_iff h
  | confirmPairing entry => exact unshared_add_iff h
  | handleEvent event => exact iff_of_true (unshared_handleEvent h event) trivial
  | authenticateUrl receiverId baseUrl info =>
    simp only [write, Fits, Option.isNone_iff_eq_none]
    grind [unshared_add_iff]
  | authenticateReceiver receiverId sessionToken info =>
    simp only [write, Fits, ReceiverRegistry.modify]
    split
    next found hfound =>
      rw [hfound, unshared_write_iff h (ReceiverRegistry.mem_of_getMut hfound)]
      simp [authenticatedEntry]
    next hnone => simpa [hnone] using h
  | deleteReceiver id =>
    have hmodify : Unshared (reg.modify id unpair) := unshared_modify h id fun _ => rfl
    exact iff_of_true (hmodify.subset fun e he => List.mem_of_mem_filter he) trivial
  | update chosen f kept => exact iff_of_true (unshared_update h kept) trivial
  | rehash registry =>
    refine iff_of_true ?_ trivial
    rw [write]
    split
    next hperm => exact h.subset fun e he => hperm.mem_iff.mp he
    next => exact h

/-! ## Every run -/

/-- **One entry for a device.** From an empty registry, all along a run of writes, no two entries have one
michi id and the ids of an entry find it, if and only if every write of the run gives free ids. -/
theorem one_entry_each_iff (writes : List RegistryWrite) :
    (∀ before, before <+: writes → OneEach (Logic.Trace.run write {} before)) ↔
      Logic.Trace.Obeys write Fits {} writes := by
  simp only [oneEach_iff]
  exact Logic.Trace.invariant_along_iff (I := Unshared) (fun _ w h => unshared_write h w)
    (fun _ ha => absurd ha List.not_mem_nil) writes

/-- The receiver is heard of under its michi id, and called at its address, which then answers with its
device id as well. -/
theorem receiver_has_two_entries :
    ¬ ∀ writes : List RegistryWrite, OneEach (Logic.Trace.run write {} writes) := by
  intro h
  have hone := (h [
    .handleEvent (.discovered ⟨"dev", "speaker", "michi-stream-hifi", ["audio_receiver"], true,
      .whiskerSigned, some "http://10.0.0.7:4000/"⟩),
    .authenticateUrl "speaker" "http://10.0.0.7:4000" {
      michiId := some "dev", deviceId := some "speaker" }]).michiId
  have heq := hone { receiverId := "dev", michiId := some "dev", baseUrl := "http://10.0.0.7:4000/"
                     presence := .verifiedOnline } (by decide)
    { receiverId := "speaker", michiId := some "dev", baseUrl := "http://10.0.0.7:4000" } (by decide)
    "dev" rfl rfl
  exact absurd heq (by decide)

/-! ## The writes of the server -/

def Written (reg reg' : ReceiverRegistry) : Prop := ∃ writes, reg' = Logic.Trace.run write reg writes

theorem Written.refl (reg : ReceiverRegistry) : Written reg reg := ⟨[], rfl⟩

theorem Written.one (w : RegistryWrite) : Written reg (write reg w) := ⟨[w], rfl⟩

theorem Written.trans {reg'' : ReceiverRegistry} (h : Written reg reg') (h' : Written reg' reg'') :
    Written reg reg'' := by
  obtain ⟨writes, rfl⟩ := h
  obtain ⟨rest, rfl⟩ := h'
  exact ⟨writes ++ rest, (Logic.Trace.run_append _ _ _).symm⟩

theorem written_modify (id : String) (hf : ∀ e, (f e).michiId = e.michiId) :
    Written reg (reg.modify id f) := by
  rw [ReceiverRegistry.modify]
  split
  · exact .one (.update _ f hf)
  · exact .refl reg

section

variable {w : TrustManager} {env : Env}

theorem written_authStep (receiverId : String) (stage : AuthStage) :
    Written w.registry (authStep receiverId env w stage).2.registry := by
  cases stage with
  | markRevoked targetMid => exact written_modify receiverId fun _ => rfl
  | writeEntry sessionToken info => exact .one (.authenticateReceiver receiverId sessionToken info)
  | _ =>
    simp only [authStep]
    repeat' split
    all_goals exact .refl _

/-- A revocation changes the registry by writes. -/
theorem written_revokeStep (deviceMichiId : String) (stage : RevokeStage deviceMichiId) :
    Written w.registry (revokeStep deviceMichiId env w stage).2.registry := by
  cases stage with
  | issue reason =>
    rw [revokeStep]
    split <;> exact .refl _
  | persist revocation pRev =>
    rw [revokeStep]
    split
    · exact .refl _
    next hpersist =>
      obtain ⟨db, rfl⟩ := persist_eq hpersist
      exact .refl _
  | push revocation =>
    rw [revokeStep]
    split <;> exact .refl _
  | mark revocation =>
    refine .one (.update _ _ ?_)
    exact fun _ => rfl
  | stopSessions revocation receiverIds =>
    cases receiverIds with
    | nil => exact .refl _
    | cons rid rest =>
      rw [revokeStep, TrustManager.stopSession]
      split
      · exact written_modify rid fun _ => rfl
      · exact .refl _

/-- So does each step of a task. -/
theorem written_task (crates : Crates) (t : Trust.Task) :
    Written w.registry ((trustManager crates).step t env w).2.registry := by
  cases t with
  | revokeDevice deviceMichiId stage => exact written_revokeStep deviceMichiId stage
  | authenticateReceiver receiverId stage => exact written_authStep receiverId stage
  | handleEvent event => exact .one (.handleEvent event)
  | returned answer => exact .refl _
  | loadPersistedRevocations stage =>
    cases stage with
    | reconcile count => exact .one (.update _ ReceiverRegistryEntry.revoke fun _ => rfl)
    | _ =>
      simp only [trustManager, loadStep]
      repeat' split
      all_goals exact .refl _
  | confirmPairing pairingId stage =>
    cases stage with
    | addEntry entry => exact .one (.confirmPairing entry)
    | _ =>
      simp only [trustManager, pairStep]
      repeat' split
      all_goals exact .refl _

/-- So does each run. -/
theorem written_pool (crates : Crates) (p : TrustPool) (moves : List TrustMove) :
    Written p.world.registry (p.run (trustManager crates) moves).world.registry := by
  refine Logic.Trace.run_kept (I := fun q : TrustPool => Written p.world.registry q.world.registry)
    (fun q move h => h.trans ?_) (.refl _) moves
  cases move with
  | arrive c => exact .refl _
  | drop i => exact .refl _
  | act i env =>
    cases ht : q.tasks[i]? with
    | none =>
      rw [Pool.step, ht]
      exact .refl _
    | some t =>
      rw [Pool.step_world ht]
      exact written_task crates t
  | tick b =>
    cases b with
    | startPairing now pending => exact .refl _
    | rehash registry =>
      simp only [Pool.step, trustManager]
      split
      next hperm => exact ⟨[.rehash registry], by simp [Logic.Trace.run, write, hperm]⟩
      next => exact .refl _

end

section

variable (store : Option ReceiverCredentialStore) (s : BootState)

theorem written_authenticateUrl (baseUrl : String) (env : JournalEnv) (w : TrustManager) :
    Written w.registry (authenticateUrl baseUrl env w).2.registry := by
  unfold authenticateUrl
  split
  · exact .refl _
  next info _ =>
    have hentry : Written w.registry (withUrlEntry baseUrl info w).registry := by
      refine ⟨[.authenticateUrl (urlReceiverId baseUrl info w) baseUrl info], ?_⟩
      grind [withUrlEntry, Logic.Trace.run, write]
    refine hentry.trans ?_
    rcases authenticateReceiverInner_spec (urlReceiverId baseUrl info w) env.auth
      (withUrlEntry baseUrl info w) with ⟨token, info', h⟩ | ⟨e, h | h⟩ <;> rw [h]
    · exact .one (.authenticateReceiver _ token info')
    · exact .refl _
    · exact written_modify _ fun _ => rfl

theorem written_bootStep (step : BootStep) :
    Written s.manager.registry (bootStep store s step).manager.registry := by
  cases step with
  | restore rec credentialRead => exact .one (.restore rec _)
  | replay journal env =>
    rw [bootStep, replay]
    split
    · exact .refl _
    · split
      next s' hpersist =>
        rw [recordJournal, persistPairedReceiver_manager hpersist]
        exact .refl _
      next => exact .refl _
    next token info _ => exact .one (.recover journal.receiverId token journal.baseUrl info)
    · grind [written_authenticateUrl, recordJournal, persistAuthenticated_manager]
    next deviceId token sealed info _ => exact .one (.recover deviceId token journal.baseUrl info)
    · exact .refl _
    · exact .refl _

theorem written_deleteReceiver (id : String) (env : DeleteEnv) :
    (deleteReceiverHandler id env s).2.manager.registry =
      write s.manager.registry (.deleteReceiver id) := by
  simp only [deleteReceiverHandler, withRegistry]
  split <;> split <;> rfl

end

end MichiServer.Receivers.Bootstrap
