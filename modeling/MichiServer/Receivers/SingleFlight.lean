import MichiServer.Receivers.Trust

/-!
# One authentication at a time

`authenticate_receiver` is guarded by a set of the texts it was called with. The set holds the calls
that are in flight as long as none of them is dropped, and it keeps an entry's authentications apart as
long as they are all called by its receiver id: a call by the michi id of the entry passes the guard.
-/

namespace MichiServer.Receivers.Trust

open MichiServer.Interleave

def Task.inFlight : Task → Option String
  | .authenticateReceiver _ .enter => none
  | .authenticateReceiver receiverId _ => some receiverId
  | _ => none

def SameEntry (reg : ReceiverRegistry) (a b : String) : Prop :=
  ∃ e, reg.get a = some e ∧ reg.get b = some e

def alreadyInFlight (receiverId : String) : Answer :=
  .authenticated (.error (.protocol ("authentication already in-flight for " ++ receiverId)))

/-- No two authentications are in flight for one entry, and a call is refused as a duplicate only while
one is in flight under its text or for its entry. -/
structure SingleFlight (crates : Crates) (p : TrustPool) (move : TrustMove) : Prop where
  one : (p.step (trustManager crates) move).tasks.Pairwise fun t u =>
    ∀ a ∈ t.inFlight, ∀ b ∈ u.inFlight,
      ¬ SameEntry (p.step (trustManager crates) move).world.registry a b
  refused : ∀ i env receiverId, move = .act i env →
    p.tasks[i]? = some (.authenticateReceiver receiverId .enter) →
      (authStep receiverId env p.world .enter).1 = [.returned (alreadyInFlight receiverId)] →
        ∃ t ∈ p.tasks, ∃ b ∈ t.inFlight, b = receiverId ∨ SameEntry p.world.registry b receiverId

/-- An authentication is called by the receiver id of an entry, and is not dropped while in flight. -/
def Named (p : TrustPool) : TrustMove → Prop
  | .act i _ => ∀ receiverId, p.tasks[i]? = some (.authenticateReceiver receiverId .enter) →
      (p.world.registry.entry receiverId).isSome = true
  | .drop i => ∀ t ∈ p.tasks[i]?, t.inFlight = none
  | _ => True

/-! ## What a step leaves -/

/-- The guard is as it was, and the registry has the receiver ids it had. -/
structure Kept (w w' : TrustManager) : Prop where
  guard : w'.singleFlightAuth = w.singleFlightAuth
  keys : ∀ k, (w.registry.entry k).isSome = true → (w'.registry.entry k).isSome = true

variable {crates : Crates} {w w' : TrustManager} {t : Task} {env : Env} {receiverId : String}

theorem Kept.refl (w : TrustManager) : Kept w w := ⟨rfl, fun _ => id⟩

section

variable {reg : ReceiverRegistry} {f : ReceiverRegistryEntry → ReceiverRegistryEntry}

theorem isSome_updateAll {p : ReceiverRegistryEntry → Bool} (k : String)
    (h : (reg.entry k).isSome = true) : ((reg.updateAll p f).entry k).isSome = true := by
  rw [ReceiverRegistry.updateAll, ReceiverRegistry.entry_map, Option.isSome_map]
  exact h

theorem isSome_modify {id : String} (k : String) (h : (reg.entry k).isSome = true) :
    ((reg.modify id f).entry k).isSome = true := by
  rw [ReceiverRegistry.modify]
  split
  · exact isSome_updateAll k h
  · exact h

theorem isSome_add {entry : ReceiverRegistryEntry} (k : String) (h : (reg.entry k).isSome = true) :
    ((reg.add entry).entry k).isSome = true := by
  by_cases hk : k = entry.receiverId
  · rw [hk, ReceiverRegistry.entry_add_self]
    rfl
  · rwa [ReceiverRegistry.entry_add_of_ne hk]

end

/-- A step of a task that is not at the guard: what it goes on as is in flight as it was. -/
structure Passing (t : Task) (w : TrustManager) (r : List Task × TrustManager) : Prop where
  kept : Kept w r.2
  same : ∀ t' ∈ r.1, t'.inFlight = none ∨ t'.inFlight = t.inFlight
  goes : ∀ a ∈ t.inFlight, ∃ t' ∈ r.1, a ∈ t'.inFlight
  one : r.1.Pairwise fun t' u => t'.inFlight = none ∨ u.inFlight = none

theorem passing_one {t' : Task} (hkept : Kept w w') (h : t'.inFlight = t.inFlight) :
    Passing t w ([t'], w') :=
  ⟨hkept, fun u hu => .inr (by rw [List.mem_singleton.mp hu, h]),
    fun a ha => ⟨t', List.mem_singleton_self _, by rw [h]; exact ha⟩, List.pairwise_singleton _ _⟩

/-- A revocation leaves the marks of authentications alone. -/
theorem revokeStep_passing (deviceMichiId : String) (stage : RevokeStage deviceMichiId) :
    Passing (.revokeDevice deviceMichiId stage) w (revokeStep deviceMichiId env w stage) := by
  cases stage with
  | issue reason =>
    rw [revokeStep]
    split <;> exact passing_one (Kept.refl w) rfl
  | persist revocation pRev =>
    rw [revokeStep]
    split
    · exact passing_one (Kept.refl w) rfl
    next w' hpersist =>
      refine passing_one ?_ rfl
      rw [TrustManager.persist] at hpersist
      repeat' split at hpersist
      all_goals
        cases hpersist
        try exact ⟨rfl, fun _ => id⟩
  | push revocation =>
    rw [revokeStep]
    split
    · exact passing_one (Kept.refl w) rfl
    · exact passing_one ⟨rfl, fun _ => id⟩ rfl
  | mark revocation => exact passing_one ⟨rfl, isSome_updateAll⟩ rfl
  | stopSessions revocation receiverIds =>
    cases receiverIds with
    | nil => exact passing_one (Kept.refl w) rfl
    | cons rid rest =>
      refine passing_one ?_ rfl
      rw [TrustManager.stopSession]
      split
      · exact ⟨rfl, isSome_modify⟩
      · exact Kept.refl w

theorem loadStep_passing (stage : LoadStage) :
    Passing (.loadPersistedRevocations stage) w (loadStep crates env w stage) := by
  cases stage with
  | list =>
    rw [loadStep]
    repeat' split
    all_goals exact passing_one ⟨rfl, fun _ => id⟩ rfl
  | verify home persisted =>
    rw [loadStep]
    repeat' split
    all_goals exact passing_one ⟨rfl, fun _ => id⟩ rfl
  | reconcile count => exact passing_one ⟨rfl, isSome_updateAll⟩ rfl

theorem inFlight_refused {pairingId : String} {e : ReceiverProtocolError} :
    (refused pairingId e).inFlight = none := by
  rw [refused]
  repeat' split
  all_goals rfl

theorem inFlight_confirmed {pairingId : String} {pending : PendingReceiverPairing}
    {resp : PairConfirmResponse} {token : Option String} :
    (confirmed pairingId pending resp token).inFlight = none := by
  rw [confirmed]
  repeat' split
  all_goals rfl

theorem pairStep_passing (pairingId : String) (stage : PairStage) :
    Passing (.confirmPairing pairingId stage) w (pairStep crates pairingId env w stage) := by
  cases stage with
  | addEntry entry => exact passing_one ⟨rfl, isSome_add⟩ rfl
  | _ =>
    simp only [pairStep]
    repeat' split
    all_goals first
      | exact passing_one ⟨rfl, fun _ => id⟩ rfl
      | exact passing_one (Kept.refl w) inFlight_refused
      | exact passing_one (Kept.refl w) inFlight_confirmed

/-- An event leaves the marks of authentications alone. -/
theorem handleEvent_passing (event : ScentEvent) : Passing (.handleEvent event) w
    (.returned .handled :: (handleEvent w.registry event).1,
      { w with registry := (handleEvent w.registry event).2 }) := by
  have hkeys : ∀ k, (w.registry.entry k).isSome = true →
      ((handleEvent w.registry event).2.entry k).isSome = true := by
    cases event with
    | offline michiId => exact isSome_modify
    | endpointChanged michiId new presenceSource verified =>
      grind [handleEvent, isSome_modify]
    | discovered record =>
      simp only [handleEvent, reconcileRecord]
      repeat' split
      all_goals first
        | exact isSome_modify
        | exact isSome_updateAll
        | exact isSome_add
        | exact fun _ => id
  have hnone : ∀ t' ∈ (handleEvent w.registry event).1, t'.inFlight = none := by
    cases event <;> simp only [handleEvent, reconcileRecord]
    all_goals
      repeat' split
      all_goals simp [Task.inFlight]
  refine ⟨⟨rfl, hkeys⟩, fun t' ht' => ?_, nofun, ?_⟩
  · rcases List.mem_cons.mp ht' with rfl | ht'
    · exact .inl rfl
    · exact .inl (hnone t' ht')
  · exact List.pairwise_cons.mpr ⟨fun _ _ => .inl rfl,
      List.pairwise_of_forall_mem_list fun u hu _ _ => .inl (hnone u hu)⟩

theorem authStep_passing (env : Env) (stage : AuthStage) (henter : stage ≠ .enter)
    (hleave : ∀ res, stage ≠ .leave res) :
    Passing (.authenticateReceiver receiverId stage) w (authStep receiverId env w stage) := by
  cases stage with
  | enter => exact absurd rfl henter
  | leave res => exact absurd rfl (hleave res)
  | markRevoked targetMid => exact passing_one ⟨rfl, isSome_modify⟩ rfl
  | writeEntry sessionToken info => exact passing_one ⟨rfl, isSome_modify⟩ rfl
  | _ =>
    simp only [authStep]
    repeat' split
    all_goals exact passing_one (Kept.refl w) rfl

theorem step_kinds (t : Task) (env : Env) (w : TrustManager) :
    (∃ a, t = .authenticateReceiver a .enter) ∨ (∃ a res, t = .authenticateReceiver a (.leave res)) ∨
      Passing t w ((trustManager crates).step t env w) := by
  cases t with
  | revokeDevice deviceMichiId stage => exact .inr (.inr (revokeStep_passing deviceMichiId stage))
  | loadPersistedRevocations stage => exact .inr (.inr (loadStep_passing stage))
  | confirmPairing pairingId stage => exact .inr (.inr (pairStep_passing pairingId stage))
  | handleEvent event => exact .inr (.inr (handleEvent_passing event))
  | returned answer => exact .inr (.inr (passing_one (Kept.refl w) rfl))
  | authenticateReceiver a stage =>
    cases stage with
    | enter => exact .inl ⟨a, rfl⟩
    | leave res => exact .inr (.inl ⟨a, res, rfl⟩)
    | _ => exact .inr (.inr (authStep_passing env _ (by simp) (by simp)))

/-! ## Every run -/

/-- An authentication in flight is in the guard, and its text is the receiver id of an entry. -/
def Task.Guarded (t : Task) (w : TrustManager) : Prop :=
  ∀ a ∈ t.inFlight, a ∈ w.singleFlightAuth ∧ (w.registry.entry a).isSome = true

theorem guarded_of_none (h : t.inFlight = none) : t.Guarded w := by
  intro a ha
  simp [h] at ha

theorem Task.Guarded.kept (h : t.Guarded w) (hkept : Kept w w') {t' : Task}
    (ht' : t'.inFlight = none ∨ t'.inFlight = t.inFlight) : t'.Guarded w' := by
  rcases ht' with hnone | hsame
  · exact guarded_of_none hnone
  · intro a ha
    rw [hsame] at ha
    exact ⟨hkept.guard ▸ (h a ha).1, hkept.keys a (h a ha).2⟩

def flights : Invariant Task TrustManager where
  Inv _ := True
  Good := Task.Guarded
  Apart t u := ∀ a ∈ t.inFlight, a ∉ u.inFlight
  apart_symm _ _ h a ha hb := h a hb ha

/-- Each move keeps one mark for each authentication in flight. -/
theorem flights_preserved : flights.Preserved (trustManager crates) Named where
  enter c w _ := by
    cases c <;> exact ⟨guarded_of_none rfl, fun u a ha => nomatch ha⟩
  self p i env t ht hallowed _ hgood := by
    refine ⟨trivial, ?_⟩
    rcases step_kinds t env p.world with ⟨a, rfl⟩ | ⟨a, res, rfl⟩ | hpassing
    · simp only [trustManager, authStep]
      split
      · exact ⟨List.forall_mem_singleton.mpr (guarded_of_none rfl), List.pairwise_singleton _ _⟩
      · refine ⟨List.forall_mem_singleton.mpr fun b hb => ?_, List.pairwise_singleton _ _⟩
        obtain rfl : a = b := Option.some.inj hb
        exact ⟨List.mem_cons_self, hallowed a ht⟩
    · exact ⟨List.forall_mem_singleton.mpr (guarded_of_none rfl), List.pairwise_singleton _ _⟩
    · refine ⟨fun t' ht' => Task.Guarded.kept hgood hpassing.kept (hpassing.same t' ht'), ?_⟩
      refine hpassing.one.imp fun hone a ha hb => ?_
      rcases hone with hnone | hnone <;> simp [hnone] at ha hb
  other p i env t u ht hu hallowed _ _ hgood hapart := by
    rcases step_kinds t env p.world with ⟨a, rfl⟩ | ⟨a, res, rfl⟩ | hpassing
    · simp only [trustManager, authStep]
      split
      · exact ⟨hgood, fun t' ht' b hb => by simp [List.mem_singleton.mp ht', Task.inFlight] at hb⟩
      next hfree =>
        refine ⟨fun b hb => ⟨List.mem_cons_of_mem _ (hgood b hb).1, (hgood b hb).2⟩,
          fun t' ht' b hb hbu => ?_⟩
        rw [List.mem_singleton.mp ht'] at hb
        obtain rfl : a = b := Option.some.inj hb
        exact hfree (hgood a hbu).1
    · refine ⟨fun b hb => ⟨?_, (hgood b hb).2⟩, fun t' ht' b hb => ?_⟩
      · have hne : b ≠ a := by
          rintro rfl
          exact hapart b rfl hb
        exact List.mem_filter.mpr ⟨(hgood b hb).1, by simpa using hne⟩
      · simp [List.mem_singleton.mp ht', Task.inFlight] at hb
    · refine ⟨Task.Guarded.kept hgood hpassing.kept (.inr rfl), fun t' ht' b hb => ?_⟩
      rcases hpassing.same t' ht' with hnone | hsame
      · simp [hnone] at hb
      · exact hapart b (hsame ▸ hb)
  tick b w _ := by
    refine ⟨trivial, fun u hu a ha => ⟨?_, ?_⟩⟩
    · cases b with
      | startPairing now pending => exact (hu a ha).1
      | rehash registry =>
        simp only [trustManager]
        split <;> exact (hu a ha).1
    · cases b with
      | startPairing now pending => exact (hu a ha).2
      | rehash registry =>
        simp only [trustManager]
        split
        next hperm =>
          obtain ⟨e, he⟩ := Option.isSome_iff_exists.mp (hu a ha).2
          rw [← ReceiverRegistry.entry_receiverId he, ReceiverRegistry.entry_of_mem
            (hperm.mem_iff.mpr (List.mem_of_find?_eq_some he))]
          rfl
        next => exact (hu a ha).2

def Covered (p : TrustPool) : Prop :=
  ∀ a ∈ p.world.singleFlightAuth, ∃ t ∈ p.tasks, a ∈ t.inFlight

/-- Each mark stays that of an authentication in flight. -/
theorem covered_step {p : TrustPool} {move : TrustMove} (h : Covered p) (hallowed : Named p move) :
    Covered (p.step (trustManager crates) move) := by
  cases move with
  | arrive c =>
    intro a ha
    obtain ⟨t, ht, hflight⟩ := h a ha
    exact ⟨t, List.mem_append_left _ ht, hflight⟩
  | drop i =>
    intro a ha
    obtain ⟨t, ht, hflight⟩ := h a ha
    rcases Pool.mem_drop i ht with hgone | hstays
    · simp [hallowed t hgone] at hflight
    · exact ⟨t, hstays, hflight⟩
  | tick b =>
    have hguard : ((trustManager crates).tick b p.world).singleFlightAuth =
        p.world.singleFlightAuth := by
      grind [trustManager]
    intro a ha
    exact h a (hguard ▸ ha)
  | act i env =>
    cases ht : p.tasks[i]? with
    | none => simpa [Covered, Pool.step, ht] using h
    | some t =>
      intro a ha
      rw [Pool.step_world ht] at ha
      -- the call that holds the text stays, or is the one that takes the step
      have hstays (hold : a ∈ p.world.singleFlightAuth) (hown : a ∈ t.inFlight →
          ∃ t' ∈ ((trustManager crates).step t env p.world).1, a ∈ t'.inFlight) :
          ∃ t' ∈ (p.step (trustManager crates) (.act i env)).tasks, a ∈ t'.inFlight := by
        obtain ⟨u, hu, hflight⟩ := h a hold
        grind [Pool.mem_step_of_mem, Pool.mem_step_of_next]
      rcases step_kinds t env p.world with ⟨b, rfl⟩ | ⟨b, res, rfl⟩ | hpassing
      · simp only [trustManager, authStep] at ha
        split at ha
        · exact hstays ha fun hown => by cases hown
        next hfree =>
          rcases List.mem_cons.mp ha with rfl | hold
          · refine ⟨.authenticateReceiver a .trust, Pool.mem_step_of_next ht ?_, rfl⟩
            simp [trustManager, authStep, hfree]
          · exact hstays hold fun hown => by cases hown
      · obtain ⟨hold, hne⟩ := List.mem_filter.mp ha
        refine hstays hold fun hown => ?_
        obtain rfl : b = a := Option.some.inj hown
        simp at hne
      · exact hstays (hpassing.kept.guard ▸ ha) (hpassing.goes a)

theorem get_of_key {reg : ReceiverRegistry} {a : String} {e : ReceiverRegistryEntry}
    (hkey : (reg.entry a).isSome = true) (h : reg.get a = some e) : e.receiverId = a := by
  obtain ⟨e', he'⟩ := Option.isSome_iff_exists.mp hkey
  grind [ReceiverRegistry.get, ReceiverRegistry.entry_receiverId]

theorem single_flight_of_holds {p : TrustPool} {move : TrustMove} (h : flights.Holds p ∧ Covered p)
    (hallowed : Named p move) : SingleFlight crates p move where
  one := by
    obtain ⟨-, hgood, hapart⟩ := flights_preserved.step h.1 hallowed
    refine hapart.imp_of_mem fun {t u} ht hu hne a ha b hb hsame => ?_
    obtain ⟨e, hea, heb⟩ := hsame
    rw [← get_of_key (hgood t ht a ha).2 hea, get_of_key (hgood u hu b hb).2 heb] at ha
    exact hne b ha hb
  refused i env receiverId _ _ hrefused := by
    rw [authStep] at hrefused
    split at hrefused
    next hin =>
      obtain ⟨t, ht, hflight⟩ := h.2 receiverId hin
      exact ⟨t, ht, receiverId, hflight, .inl rfl⟩
    next => cases hrefused

/-- **One authentication at a time.** From a start with no call and an empty guard, in every run in which
authentications are called by the receiver ids of entries and none is dropped while in flight, no two
are in flight for one entry, and none is refused as a duplicate while there is no other. -/
theorem authentications_single (crates : Crates) {w : TrustManager} (hw : w.singleFlightAuth = [])
    {moves : List TrustMove} (hmoves : Pool.Obeys (trustManager crates) Named ⟨[], w⟩ moves) :
    Pool.Obeys (trustManager crates) (SingleFlight crates) ⟨[], w⟩ moves :=
  Logic.Trace.obeys_of_invariant
    (fun _ _ h hallowed => ⟨flights_preserved.step h.1 hallowed, covered_step h.2 hallowed⟩)
    (fun _ _ h hallowed => single_flight_of_holds h hallowed)
    ⟨⟨trivial, fun _ ht => absurd ht List.not_mem_nil, List.Pairwise.nil⟩,
      fun a ha => by rw [hw] at ha; cases ha⟩ hmoves

def sampleManager : TrustManager where
  home := some sampleHome
  registry := sampleRegistry

/-- Two calls for one receiver: the second is refused while the first is in flight. -/
theorem authentications_single_sample :
    Pool.Obeys (trustManager sampleCrates) (SingleFlight sampleCrates) ⟨[], sampleManager⟩
      [.arrive (.authenticateReceiver "living-room"), .arrive (.authenticateReceiver "living-room"),
        .act 0 {}, .act 1 {}] := by
  refine authentications_single sampleCrates rfl
    ⟨trivial, trivial, fun receiverId h => ?_, fun receiverId h => ?_, trivial⟩
  · cases h
    rfl
  · cases h
    rfl

/-- The receiver is authenticated twice at a time, under its two ids. -/
theorem authentications_twice : ¬ ∀ (crates : Crates) (w : TrustManager) (moves : List TrustMove),
    w.singleFlightAuth = [] →
      Pool.Obeys (trustManager crates) (SingleFlight crates) ⟨[], w⟩ moves := by
  intro h
  have hrun := h sampleCrates sampleManager [.arrive (.authenticateReceiver "living-room"),
    .arrive (.authenticateReceiver "dev"), .act 0 {}, .act 1 {}] rfl
  have hone := hrun.2.2.2.1.one
  rcases hone with _ | ⟨hfirst, -⟩
  exact hfirst _ (List.mem_singleton_self _) "living-room" rfl "dev" rfl ⟨_, rfl, rfl⟩

end MichiServer.Receivers.Trust
