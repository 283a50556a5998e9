import MichiServer.Upload.Effects

/-!
# What the steps owe

Every step keeps the invariant, when it is done with its precondition, and stays within what the other
calls count on. `upload_sound` puts the effects of the steps together for the runs of an upload.
-/

namespace MichiServer.Upload

open MichiServer.Files MichiServer.Interleave

/-! ## One step of a call -/

section Exec

variable {sha : Sha256} {info : UploadInfo} {serverPath : String} {P : Promises}
  {w : UploadWorld} {i j : TaskId} {a : UploadAct} {env : StepEnv}

/-- Each act that is prepared keeps the invariant. -/
theorem UploadInv.exec (h : UploadInv sha info serverPath P w)
    (hpre : UploadPre sha info serverPath P i a w)
    (hok : (P.quiet → QuietStep i a env w) ∧ (P.agreed → AgreedStep sha a env w)) :
    UploadInv sha info serverPath P (exec i a env w).2 := by
  cases a with
  | uploads epoch f => exact h.setUploads epoch (hpre _ fun m hm => h.cached_info epoch m hm)
  | selectUpload | selectChunkIndices | selectChunk | selectSyncedFile | metadata
  | openFile | read | clock => exact h
  | insertChunk r =>
    simp only [Upload.exec]
    split
    · exact h
    · exact h.insertChunk hpre.1 hpre.2.1 hpre.2.2
  | updateUpload u =>
    simp only [Upload.exec]
    split
    · exact h
    · exact h.update_row hpre
  | insertSyncedFile f =>
    simp only [Upload.exec]
    split
    · exact h
    · exact h.insertSyncedFile hpre
  | openPart =>
    simp only [Upload.exec]
    split
    · exact h
    · exact h.openPart
  | write x offset data =>
    obtain ⟨index, hindex, rfl, hdata, _⟩ := hpre
    have hquiet := fun hq => hok.1 hq
    have hagreed := fun ha => hok.2 ha
    simp only [QuietStep, AgreedStep, h.row_info, Upload.exec] at hquiet hagreed ⊢
    split
    · exact h
    next hfails =>
      rw [if_neg hfails] at hquiet
      exact h.write hindex hdata (fun hq hdone hfinal => hquiet hq (Or.inr ⟨hdone, hfinal⟩))
        hagreed
  | rename =>
    simp only [Upload.exec]
    split
    · exact h
    next heffect =>
      rw [not_or, Bool.not_eq_true] at heffect
      refine h.rename hpre (fun hq hnone => ?_) fun ha => hok.2 ha heffect.1 heffect.2
      have hany := hok.1 hq heffect.1 heffect.2
      rw [hnone] at hany
      cases hany
  | newUuid => exact h.of_eq w.heartbeats _
  | spawnHeartbeat token hb => exact h.of_eq _ w.uuids
  | joinHeartbeat token =>
    simp only [Upload.exec]
    split
    · exact h
    · exact h.of_eq _ w.uuids

/-- The steps that are calm for every call, the one that does them included. -/
def Harmless : UploadAct → Prop
  | .updateUpload (.acquire _ _ _ _) | .updateUpload (.takeOverEpoch _ _ _ _)
  | .updateUpload (.takeOverLease _ _ _ _ _ _) | .write _ _ _ | .rename => False
  | _ => True

theorem Calm.apply_update {u : UploadUpdate} (hpre : UpdatePre sha info serverPath P j w u)
    (hother : i ≠ j ∨ Harmless (.updateUpload u)) :
    Calm P i w { w with row := u.apply w.row } := by
  refine Calm.update_row fun t ht htoken => ?_
  rw [UploadUpdate.apply] at htoken
  split at htoken
  · cases u with
    | renew => exact absurd hpre id
    | markFailed | markCompleted => cases htoken
    | acquire t' | takeOverEpoch t' | takeOverLease t' =>
      obtain rfl := Option.some.inj htoken
      have hij : i = j := Option.some.inj (ht.symm.trans hpre)
      exact absurd hother (by simp [hij, Harmless])
  · exact htoken

/-- Each act leaves other tasks in calm. -/
theorem Calm.exec (h : UploadInv sha info serverPath P w)
    (hpre : UploadPre sha info serverPath P j a w)
    (hok : (P.quiet → QuietStep j a env w) ∧ (P.agreed → AgreedStep sha a env w))
    (hother : i ≠ j ∨ Harmless a) : Calm P i w (Upload.exec j a env w).2 := by
  cases a with
  | uploads epoch f => exact Calm.setUploads epoch _
  | selectUpload | selectChunkIndices | selectChunk | selectSyncedFile | metadata
  | openFile | read | clock => exact Calm.refl P i w
  | insertChunk r =>
    grind [Upload.exec, Calm.refl, Calm.insertChunk]
  | updateUpload u =>
    simp only [Upload.exec]
    split
    · exact Calm.refl P i w
    · exact Calm.apply_update hpre hother
  | insertSyncedFile f =>
    grind [Upload.exec, Calm.refl, Calm.insertSyncedFile]
  | openPart =>
    simp only [Upload.exec]
    split
    · exact Calm.refl P i w
    · exact Calm.openPart h.files_exist
  | write x offset data =>
    have hquiet := fun hq => hok.1 hq
    simp only [QuietStep, Upload.exec] at hquiet ⊢
    split
    · exact Calm.refl P i w
    next hfails =>
      rw [if_neg hfails] at hquiet
      refine Calm.write fun hq htoken hfile => hquiet hq (Or.inl ⟨?_, hfile⟩)
      by_contra hstatus
      exact htoken (h.no_token hstatus)
  | rename =>
    have hij : i ≠ j := hother.resolve_right id
    simp only [Upload.exec]
    split
    · exact Calm.refl P i w
    next heffect =>
      rw [not_or, Bool.not_eq_true] at heffect
      refine Calm.rename (fun hq t ht htoken => ?_) fun ha => hok.2 ha heffect.1 heffect.2
      have hany := hok.1 hq heffect.1 heffect.2
      grind
  | newUuid => exact Calm.drawUuid j
  | spawnHeartbeat token hb => exact Calm.setHeartbeat token hb
  | joinHeartbeat token =>
    grind [Upload.exec, Calm.refl, Calm.setHeartbeat, token]

/-- Each act leaves each kept chunk so. -/
theorem ChunkKept.exec {r : ChunkReceipt} (hkept : ChunkKept sha info r w)
    (h : UploadInv sha info serverPath P w) (ha : P.agreed)
    (hsize : r.size = info.expectedSize r.chunkIndex)
    (hpre : UploadPre sha info serverPath P j a w)
    (hok : (P.quiet → QuietStep j a env w) ∧ (P.agreed → AgreedStep sha a env w))
    (hagree : ∀ x offset data, a = .write x offset data →
      info.chunkOffset r.chunkIndex = offset → r.chunkHash = sha.hex data)
    (hcalm : Calm P i w (Upload.exec j a env w).2) :
    ChunkKept sha info r (Upload.exec j a env w).2 := by
  rcases hkept with ⟨x, hx, hrange, hhash⟩ | ⟨r', hr', hsame⟩
  · refine Or.inl ?_
    by_cases hwrite : ∃ y offset data, a = .write y offset data
    · obtain ⟨y, offset, data, rfl⟩ := hwrite
      obtain ⟨index, _, rfl, hdata, _⟩ := hpre
      simp only [Upload.exec]
      split
      · exact ⟨x, hx, hrange, hhash⟩
      · exact ChunkStored.write ⟨x, hx, hrange, hhash⟩ hsize hdata (fun y hy => h.staged_lt hy)
          (hagree _ _ _ rfl)
    · -- every other step leaves the content of the files that are there
      have hcontent : (Upload.exec j a env w).2.content x = w.content x := by
        cases a with
        | write y offset data => exact absurd ⟨y, offset, data, rfl⟩ hwrite
        | openPart =>
          simp only [Upload.exec]
          split
          · rfl
          · exact w.content_openPart (h.staged_lt hx)
        | insertChunk r₀ =>
          simp only [Upload.exec, UploadWorld.insertChunk]
          split_ifs <;> rfl
        | insertSyncedFile f =>
          simp only [Upload.exec, UploadWorld.insertSyncedFile]
          split_ifs <;> rfl
        | updateUpload u =>
          simp only [Upload.exec]
          split <;> rfl
        | rename =>
          simp only [Upload.exec]
          split <;> rfl
        | joinHeartbeat token =>
          simp only [Upload.exec]
          split <;> rfl
        | uploads | selectUpload | selectChunkIndices | selectChunk | selectSyncedFile
        | metadata | openFile | read | newUuid | clock | spawnHeartbeat => rfl
      exact ⟨x, hcalm.agreed ha x hx, by rwa [hcontent], by rwa [hcontent]⟩
  · exact Or.inr ⟨r', hcalm.receipts r' hr', hsame⟩

/-- A renewal of the lease keeps the invariant. -/
theorem UploadInv.renew (h : UploadInv sha info serverPath P w) (t : HeartbeatTick) :
    UploadInv sha info serverPath P (renewFinalizationLease t w) := by
  unfold renewFinalizationLease
  cases w.heartbeats t.token with
  | none => exact h
  | some hb =>
    dsimp only
    split
    · exact h
    · split
      · exact h.of_eq _ w.uuids
      · split
        · have hrow : UploadInv sha info serverPath P
              { w with row := (UploadUpdate.renew t.token hb.epoch
                  (t.env.now + hb.leaseDuration)).set w.row } :=
            ⟨h.1, h.2, h.3, h.4, h.5, h.6, h.7, h.8, h.9, h.10, h.11, h.12⟩
          refine hrow.setUploads _ fun m hm => ?_
          obtain ⟨m₀, hm₀, rfl⟩ := Option.map_eq_some_iff.mp hm
          exact h.cached_info _ m₀ hm₀
        · exact h.of_eq _ w.uuids

theorem Calm.renew (t : HeartbeatTick) : Calm P i w (renewFinalizationLease t w) := by
  unfold renewFinalizationLease
  split
  · exact Calm.refl P i w
  · split
    · exact Calm.refl P i w
    · split
      · exact Calm.setHeartbeat _ _
      · dsimp only
        split
        · exact Calm.of_eq rfl rfl rfl rfl rfl rfl rfl
        · exact Calm.setHeartbeat _ _

end Exec

/-! ## Runs -/

def QuietMove (s : System UploadAct.Resp (Except SyncError UploadOutcome) UploadWorld) :
    Move StepEnv HeartbeatTick → Prop
  | .act i env => ∀ a ∈ s.next i, QuietStep i a env s.world
  | .drop _ | .tick _ => True

/-- A call that is about to record a chunk at a place records the bytes that are written there. -/
def RecordsSame (sha : Sha256) (w : UploadWorld) (offset : ℕ) (data : List UInt8) :
    UploadAct → Prop
  | .insertChunk r => w.row.chunkOffset r.chunkIndex = offset → r.chunkHash = sha.hex data
  | _ => True

/-- A chunk is not written while another call is about to record a different chunk of its place. -/
def Uncontended (sha : Sha256)
    (s : System UploadAct.Resp (Except SyncError UploadOutcome) UploadWorld) (i : TaskId) :
    UploadAct → Prop
  | .write _ offset data => ∀ j < s.tasks.length, j ≠ i → ∀ b ∈ s.next j,
    RecordsSame sha s.world offset data b
  | _ => True

def AgreedMove (sha : Sha256)
    (s : System UploadAct.Resp (Except SyncError UploadOutcome) UploadWorld) :
    Move StepEnv HeartbeatTick → Prop
  | .act i env => ∀ a ∈ s.next i, AgreedStep sha a env s.world ∧ Uncontended sha s i a
  | .drop _ | .tick _ => True

def AllowedMove (sha : Sha256) (P : Promises)
    (s : System UploadAct.Resp (Except SyncError UploadOutcome) UploadWorld)
    (m : Move StepEnv HeartbeatTick) : Prop :=
  (P.quiet → QuietMove s m) ∧ (P.agreed → AgreedMove sha s m)

section Decidable

variable (sha : Sha256)
  (s : System UploadAct.Resp (Except SyncError UploadOutcome) UploadWorld)

instance (i : TaskId) (env : StepEnv) (w : UploadWorld) :
    (a : UploadAct) → Decidable (QuietStep i a env w)
  | .write _ _ _ | .rename => inferInstanceAs (Decidable (_ → _))
  | .uploads _ _ | .selectUpload | .selectChunkIndices | .selectChunk _ | .insertChunk _
  | .updateUpload _ | .insertSyncedFile _ | .selectSyncedFile _ _ | .openPart | .metadata _
  | .openFile _ | .read _ _ _ | .newUuid | .clock | .spawnHeartbeat _ _ | .joinHeartbeat _ =>
    inferInstanceAs (Decidable True)

instance (env : StepEnv) (w : UploadWorld) : (a : UploadAct) → Decidable (AgreedStep sha a env w)
  | .write _ _ _ => inferInstanceAs (Decidable (∀ r ∈ w.receipts, _ → _))
  | .rename => inferInstanceAs (Decidable (_ → _))
  | .uploads _ _ | .selectUpload | .selectChunkIndices | .selectChunk _ | .insertChunk _
  | .updateUpload _ | .insertSyncedFile _ | .selectSyncedFile _ _ | .openPart | .metadata _
  | .openFile _ | .read _ _ _ | .newUuid | .clock | .spawnHeartbeat _ _ | .joinHeartbeat _ =>
    inferInstanceAs (Decidable True)

instance (w : UploadWorld) (offset : ℕ) (data : List UInt8) :
    (a : UploadAct) → Decidable (RecordsSame sha w offset data a)
  | .insertChunk _ => inferInstanceAs (Decidable (_ → _))
  | .write _ _ _ | .rename | .uploads _ _ | .selectUpload | .selectChunkIndices
  | .selectChunk _ | .updateUpload _ | .insertSyncedFile _ | .selectSyncedFile _ _
  | .openPart | .metadata _ | .openFile _ | .read _ _ _ | .newUuid | .clock
  | .spawnHeartbeat _ _ | .joinHeartbeat _ => inferInstanceAs (Decidable True)

instance (i : TaskId) : (a : UploadAct) → Decidable (Uncontended sha s i a)
  | .write _ _ _ =>
    inferInstanceAs (Decidable (∀ j < s.tasks.length, _ → ∀ b ∈ s.next j, _))
  | .insertChunk _ | .rename | .uploads _ _ | .selectUpload | .selectChunkIndices
  | .selectChunk _ | .updateUpload _ | .insertSyncedFile _ | .selectSyncedFile _ _
  | .openPart | .metadata _ | .openFile _ | .read _ _ _ | .newUuid | .clock
  | .spawnHeartbeat _ _ | .joinHeartbeat _ => inferInstanceAs (Decidable True)

instance : (m : Move StepEnv HeartbeatTick) → Decidable (QuietMove s m)
  | .act i _ => inferInstanceAs (Decidable (∀ a ∈ s.next i, _))
  | .drop _ | .tick _ => inferInstanceAs (Decidable True)

instance : (m : Move StepEnv HeartbeatTick) → Decidable (AgreedMove sha s m)
  | .act i _ => inferInstanceAs (Decidable (∀ a ∈ s.next i, _))
  | .drop _ | .tick _ => inferInstanceAs (Decidable True)

end Decidable

/-- The discipline of uploads is sound for the allowed moves. -/
theorem upload_sound (sha : Sha256) (info : UploadInfo) (serverPath : String) (P : Promises) :
    Sound (uploadDiscipline sha info serverPath P) semantics (AllowedMove sha P) where
  ok s i a env hnext hm := ⟨fun hq => hm.1 hq a hnext, fun ha => (hm.2 ha a hnext).1⟩
  inv i a env w hinv hpre hok := UploadInv.exec hinv hpre hok
  rely s i j a b env hij hi hj hinv hprei hprej hm := by
    have hok : (P.quiet → QuietStep j b env s.world) ∧ (P.agreed → AgreedStep sha b env s.world) :=
      ⟨fun hq => hm.1 hq b hj, fun ha => (hm.2 ha b hj).1⟩
    have hcalm := Calm.exec (i := i) hinv hprej hok (Or.inl hij)
    refine ⟨hcalm, fun r hr ha hkept => ?_⟩
    subst hr
    refine hkept.exec hinv ha hprei.2.1 hprej hok (fun x offset data hb hplace => ?_) hcalm
    subst hb
    have hagree := (hm.2 ha _ hj).2 i (System.lt_of_next hi) hij _ hi
    rw [RecordsSame, hinv.row_info] at hagree
    exact hagree hplace
  tick_inv s t hinv _ := hinv.renew t
  tick_rely s t i a _ _ _ _ := by
    refine ⟨Calm.renew t, fun r _ ha hkept => ?_⟩
    have hcalm : Calm P i s.world (renewFinalizationLease t s.world) := Calm.renew t
    rcases hkept with ⟨x, hx, hstored⟩ | ⟨r', hr', hsame⟩
    · have hcontent : (renewFinalizationLease t s.world).content x = s.world.content x := by
        unfold renewFinalizationLease
        split
        · rfl
        · dsimp only
          split_ifs <;> rfl
      rw [← hcontent] at hstored
      exact Or.inl ⟨x, hcalm.agreed ha x hx, hstored⟩
    · exact Or.inr ⟨r', hcalm.receipts r' hr', hsame⟩

end MichiServer.Upload
