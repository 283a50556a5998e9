import MichiServer.Upload.FinalizeAlone

/-!
# Recovery after a crash

A crash ends the calls and loses what the process kept in memory; rows, receipts and files stay. The
process that starts next, with an epoch of its own, runs `recover_incomplete_uploads`: it finalizes
every upload its query names.

The query names the uploads in `finalizing`, and of those every one is brought to an end, whatever the
step the crash came at: nothing an owner does has to be done in one run. It does not name an upload in
`uploading`, also when the crash came after the last receipt and before the lease was acquired; and an
upload that was completed is left as it is.
-/

namespace MichiServer.Upload

open MichiServer.Files MichiServer.Interleave

/-! ## The scan -/

structure SyncRecoveryReport where
  candidates : ℕ := 0
  completed : ℕ := 0
  deferred : ℕ := 0
  terminalFailures : ℕ := 0
  transientFailures : ℕ := 0

def SyncRecoveryReport.count (report : SyncRecoveryReport) :
    Except SyncError Unit → SyncRecoveryReport
  | .ok () => { report with completed := report.completed + 1 }
  | .error (.finalizationLeaseActive _ _ _) => { report with deferred := report.deferred + 1 }
  | .error (.terminalUploadFailure _ _) | .error (.hashMismatch _ _) | .error (.fileNotFound _) =>
    { report with terminalFailures := report.terminalFailures + 1 }
  | .error _ => { report with transientFailures := report.transientFailures + 1 }

def isCandidate (row : UploadRow) : Bool :=
  row.status = .finalizing ∨
    row.status = .failed ∧ (row.failureClass = none ∨ row.failureClass = some .recoverable)

/-- An upload in the database, with the environments of its finalization, should it be recovered. -/
structure StoredUpload where
  fileId : Uuid
  world : UploadWorld
  envs : ℕ → AloneEnv

section Recover

variable (sha : Sha256) (mgr : SyncManager) (reads : ℕ)

def StoredUpload.finalize (u : StoredUpload) : Except SyncError Unit × UploadWorld :=
  (verifyAndFinalizeUpload sha mgr u.fileId reads).run.solo semantics.withTicks 0 u.envs u.world

def StoredUpload.recovered (u : StoredUpload) : UploadWorld :=
  if isCandidate u.world.row then (u.finalize sha mgr reads).2 else u.world

/-- `recover_incomplete_uploads`. The uploads share nothing, so each is finalized in its own world. -/
def recoverIncompleteUploads (uploads : List StoredUpload) :
    SyncRecoveryReport × List UploadWorld :=
  let candidateRows := uploads.filter fun u => isCandidate u.world.row
  (candidateRows.foldl (fun report u => report.count (u.finalize sha mgr reads).1)
    { candidates := candidateRows.length },
    uploads.map (StoredUpload.recovered sha mgr reads))

end Recover

def UploadWorld.crashed (w : UploadWorld) : UploadWorld :=
  { w with uploads := fun _ => none, heartbeats := fun _ => none }

/-! ## A candidate -/

section Candidate

variable {sha : Sha256} {info : UploadInfo} {mgr : SyncManager} {fileId : Uuid} {i : TaskId}
  {w : UploadWorld}

theorem gives_loadSessionFromDbInternal (hun : Unwatched w) :
    Gives mgr.processEpoch i (fun m w' => m.toUploadRow = w.row ∧ Later w w')
      loadSessionFromDbInternal w := by
  refine gives_selectUpload.then fun row w₁ h₁ => ?_
  obtain ⟨hlater₁, rfl⟩ := h₁
  refine gives_selectChunkIndices.then fun indices w₂ h₂ => ?_
  exact Gives.pure ⟨(hlater₁.still hun).1, hlater₁.trans h₂.1⟩

/-- The session that is loaded is the row. -/
theorem gives_load_session (hcache : w.uploads mgr.processEpoch = none) (hun : Unwatched w) :
    Gives mgr.processEpoch i (fun m w' => m.toUploadRow = w.row ∧ w'.row = w.row ∧
      w'.store = w.store ∧ Unwatched w') (getOrLoadSession mgr) w := by
  refine gives_updateUploads.then fun cached w₁ h₁ => ?_
  obtain ⟨w₀, hlater₀, rfl, rfl⟩ := h₁
  obtain ⟨hrow₀, huploads₀⟩ := hlater₀.still hun
  have hun₁ : Unwatched (w₀.setUploads mgr.processEpoch none) := hlater₀.unwatched hun
  rw [huploads₀, hcache]
  refine Gives.then (gives_loadSessionFromDbInternal hun₁) fun loaded w₂ h₂ => ?_
  obtain ⟨hloaded, hlater₂⟩ := h₂
  refine gives_updateUploads.then fun existing w₃ h₃ => ?_
  obtain ⟨w₂', hlater₃, rfl, rfl⟩ := h₃
  have hlater := hlater₂.trans hlater₃
  obtain ⟨hrow, huploads⟩ := hlater.still hun₁
  have hnone : w₂'.uploads mgr.processEpoch = none := by
    rw [huploads]
    exact if_pos rfl
  rw [hnone]
  exact Gives.pure ⟨hloaded.trans hrow₀, hrow.trans hrow₀, hlater.store.trans hlater₀.store,
    hlater.unwatched hun₁⟩

def Settled (sha : Sha256) (info : UploadInfo) (serverPath : String) (w : UploadWorld) : Prop :=
  w.row.status = .completed ∧ FileStored sha info serverPath w ∨ w.row.status = .failed

/-- The recovery takes the upload over and finalizes it. -/
theorem ends_recover {reads : ℕ} (hrow : w.row.status = .finalizing)
    (hinfo : w.row.toUploadInfo = info)
    (hother : w.row.finalizeOwnerEpoch ≠ some mgr.processEpoch)
    (hcache : w.uploads mgr.processEpoch = none) (hun : Unwatched w)
    (hreads : ∀ x, w.store.candidate = some x → (w.store.content x).length < reads) :
    Ends mgr.processEpoch i (fun _ w' => Settled sha info (finalFilePath mgr fileId) w')
      (verifyAndFinalizeUpload sha mgr fileId reads) w := by
  refine (gives_load_session hcache hun).then fun m w₁ h₁ => ?_
  obtain ⟨hm, hrow₁, hstore₁, hun₁⟩ := h₁
  have hstatus : m.status = .finalizing := by rw [hm, hrow]
  have hinfo' : m.toUploadInfo = info := by rw [hm, hinfo]
  simp only [hstatus, hinfo']
  refine (ends_takeOver_and_finalize (hrow₁ ▸ hrow) (hrow₁ ▸ hother) hun₁
    (hstore₁ ▸ hreads)).mono fun r w' houtcome => ?_
  rcases houtcome with ⟨x, hcomplete, _, hfinalized⟩ | ⟨_, _, hfailed⟩
  · left
    refine ⟨hfinalized.status, ⟨x, hfinalized.final, ?_⟩, hfinalized.registered⟩
    rw [hfinalized.content]
    exact hcomplete.verified
  · exact Or.inr hfailed.1

end Candidate

/-! ## Crashes -/

theorem row_run {Q : UploadRow → Prop} (hQ : ∀ u row, Q row → Q (UploadUpdate.apply u row))
    {s : UploadRun} (h : Q s.world.row) (moves : List (Move StepEnv HeartbeatTick)) :
    Q (s.run semantics moves).world.row := by
  induction moves generalizing s with
  | nil => exact h
  | cons m moves ih =>
    apply ih
    cases m with
    | drop i => exact h
    | tick t =>
      show Q (renewFinalizationLease t s.world).row
      grind [row_renew]
    | act i env =>
      cases hnext : s.next i with
      | none => rwa [System.step_act_of_none hnext]
      | some a =>
        rw [System.world_step_act hnext]
        show Q (exec i a env s.world).2.row
        grind [row_exec]

theorem UploadUpdate.apply_not_cancelled (u : UploadUpdate) (row : UploadRow)
    (h : row.status ≠ .cancelled) : (u.apply row).status ≠ .cancelled := by
  unfold UploadUpdate.apply
  split
  · cases u with
    | acquire | markFailed | markCompleted => simp [UploadUpdate.set]
    | takeOverEpoch | takeOverLease | renew => exact h
  · exact h

/-- A run of calls on one upload that a crash ends, and what is drawn for its recovery. -/
structure Crash where
  epoch : Epoch
  config : SyncRuntimeConfig
  fileId : Uuid
  info : UploadInfo
  calls : List UploadCall
  moves : List (Move StepEnv HeartbeatTick)
  envs : ℕ → AloneEnv

section Crashes

variable (sha : Sha256) (mgr : SyncManager) (reads : ℕ)

def Crash.world (c : Crash) : UploadWorld :=
  ((start sha { mgr with runtimeConfig := c.config, processEpoch := c.epoch } c.fileId c.info
    c.calls).run semantics c.moves).world

def Crash.stored (c : Crash) : StoredUpload where
  fileId := c.fileId
  world := (c.world sha mgr).crashed
  envs := c.envs

/-- Nothing fails while the upload is recovered, and the lease is kept. -/
def Crash.Undisturbed (c : Crash) : Prop :=
  (verifyAndFinalizeUpload sha mgr c.fileId reads).run.Undisturbed semantics.withTicks 0
    (AloneOk mgr.processEpoch) c.envs (c.world sha mgr).crashed

/-- After the crash, no upload with all its receipts is `uploading` yet, and none is completed without
its file. -/
def Crash.Recoverable (c : Crash) : Prop :=
  AllReceipted c.info (c.world sha mgr) → (c.world sha mgr).row.status ≠ .uploading ∧
    ((c.world sha mgr).row.status = .completed →
      FileStored sha c.info (finalFilePath mgr c.fileId) (c.world sha mgr))

variable {sha mgr reads} {c : Crash}

theorem Crash.inv (sha : Sha256) (mgr : SyncManager) (c : Crash) :
    UploadInv sha c.info (finalFilePath mgr c.fileId) ⟨False, False⟩ (c.world sha mgr) := by
  have hnothing := @System.obeys_of_forall _ _ _ _ _ _ semantics (AllowedMove sha ⟨False, False⟩)
    (fun _ _ => ⟨False.elim, False.elim⟩)
    (start sha { mgr with runtimeConfig := c.config, processEpoch := c.epoch } c.fileId c.info
      c.calls) c.moves
  exact (wellOutlined_run sha _ c.info _ hnothing).1

theorem Crash.not_cancelled (sha : Sha256) (mgr : SyncManager) (c : Crash) :
    (c.world sha mgr).row.status ≠ .cancelled :=
  row_run (Q := fun row => row.status ≠ .cancelled) (fun u row => u.apply_not_cancelled row)
    (by intro h; cases h) c.moves

/-- A crash while it was finalizing is settled. -/
theorem Crash.settled_of_finalizing (hrow : (c.world sha mgr).row.status = .finalizing)
    (hfresh : (c.world sha mgr).row.finalizeOwnerEpoch ≠ some mgr.processEpoch)
    (hreads : c.info.fileSize < reads) (hcalm : c.Undisturbed sha mgr reads) :
    Settled sha c.info (finalFilePath mgr c.fileId)
      ((c.stored sha mgr).finalize sha mgr reads).2 := by
  have hinv := c.inv sha mgr
  have hfits : ∀ x, (c.world sha mgr).crashed.store.candidate = some x →
      ((c.world sha mgr).crashed.store.content x).length < reads := by
    intro x hx
    have hlt : x < (c.world sha mgr).inodes.length := by
      simp only [UploadStore.candidate, Option.orElse_eq_orElse, Option.orElse_eq_or,
        Option.or_eq_some_iff] at hx
      rcases hx with hpart | ⟨_, hfinal⟩
      · exact hinv.files_exist .part x hpart
      · exact hinv.files_exist .final x hfinal
    have hle := hinv.sizes _ (UploadWorld.content_mem _ hlt)
    exact Nat.lt_of_le_of_lt hle hreads
  have hun : Unwatched (c.world sha mgr).crashed := fun _ _ h => by cases h
  have hwatched : Watched (c.world sha mgr).crashed := fun _ _ h => by cases h
  exact ((ends_recover (w := (c.world sha mgr).crashed) hrow hinv.row_info hfresh rfl hun hfits).solo
    hwatched hcalm).1

/-- Any crash is settled exactly where all was received. -/
theorem Crash.settled_iff
    (hfresh : (c.world sha mgr).row.finalizeOwnerEpoch ≠ some mgr.processEpoch)
    (hreads : c.info.fileSize < reads)
    (hcalm : isCandidate (c.world sha mgr).row → c.Undisturbed sha mgr reads) :
    (AllReceipted c.info ((c.stored sha mgr).recovered sha mgr reads) →
      Settled sha c.info (finalFilePath mgr c.fileId)
        ((c.stored sha mgr).recovered sha mgr reads)) ↔ c.Recoverable sha mgr := by
  have hsame : (c.stored sha mgr).world.row = (c.world sha mgr).row := rfl
  cases hrow : (c.world sha mgr).row.status with
  | finalizing =>
    have hcandidate : isCandidate (c.world sha mgr).row = true := by simp [isCandidate, hrow]
    rw [StoredUpload.recovered, hsame, if_pos hcandidate]
    refine ⟨fun _ _ => ?_, fun _ _ => ?_⟩
    · rw [hrow]
      exact ⟨by simp, fun h => nomatch h⟩
    · exact c.settled_of_finalizing hrow hfresh hreads (hcalm hcandidate)
  | cancelled => exact absurd hrow (c.not_cancelled sha mgr)
  | failed =>
    have hterminal := (c.inv sha mgr).failed_terminal hrow
    rw [StoredUpload.recovered, hsame, if_neg (by simp [isCandidate, hrow, hterminal])]
    refine ⟨fun _ _ => ?_, fun _ _ => Or.inr hrow⟩
    rw [hrow]
    exact ⟨by simp, fun h => nomatch h⟩
  | uploading =>
    rw [StoredUpload.recovered, hsame, if_neg (by simp [isCandidate, hrow])]
    refine ⟨fun h hall => ?_, fun h hall => absurd hrow (h hall).1⟩
    rcases h hall with ⟨hcompleted, _⟩ | hfailed
    · exact absurd (hrow.symm.trans hcompleted) (by simp)
    · exact absurd (hrow.symm.trans hfailed) (by simp)
  | completed =>
    rw [StoredUpload.recovered, hsame, if_neg (by simp [isCandidate, hrow])]
    refine ⟨fun h hall => ?_, fun h hall => Or.inl ⟨hrow, (h hall).2 hrow⟩⟩
    rcases h hall with ⟨_, hstored⟩ | hfailed
    · exact ⟨by simp [hrow], fun _ => hstored⟩
    · exact absurd (hrow.symm.trans hfailed) (by simp)

end Crashes

/-- **Recovery.** After the scan every upload with all its receipts is completed with its file or
failed, exactly when the crashes left them all recoverable. -/
theorem recovery_settles_iff (sha : Sha256) (mgr : SyncManager) (reads : ℕ) (crashes : List Crash)
    (hfresh : ∀ c ∈ crashes,
      (c.world sha mgr).row.finalizeOwnerEpoch ≠ some mgr.processEpoch)
    (hreads : ∀ c ∈ crashes, c.info.fileSize < reads)
    (hcalm : ∀ c ∈ crashes, isCandidate (c.world sha mgr).row → c.Undisturbed sha mgr reads) :
    let recovered := (recoverIncompleteUploads sha mgr reads
      (crashes.map (Crash.stored sha mgr))).2
    (∀ p ∈ crashes.zip recovered, AllReceipted p.1.info p.2 →
        Settled sha p.1.info (finalFilePath mgr p.1.fileId) p.2) ↔
      ∀ c ∈ crashes, c.Recoverable sha mgr := by
  intro recovered
  have hzip : crashes.zip recovered = crashes.map fun c =>
      (c, (c.stored sha mgr).recovered sha mgr reads) := by
    show crashes.zip ((crashes.map _).map _) = _
    rw [List.map_map]
    have h := List.zip_map' (f := id) (l := crashes)
      (g := StoredUpload.recovered sha mgr reads ∘ Crash.stored sha mgr)
    rw [List.map_id] at h
    exact h
  rw [hzip, List.forall_mem_map]
  exact forall₂_congr fun c hc => c.settled_iff (hfresh c hc) (hreads c hc) (hcalm c hc)

def nextManager : SyncManager := { sampleManager with processEpoch := 2 }

def crashAfter (n : ℕ) : Crash where
  epoch := 1
  config := sampleManager.runtimeConfig
  fileId := 7
  info := oneByte
  calls := [sendA 1]
  moves := steps 0 n
  envs := fun _ => ([], { block := 1 })

instance (c : Crash) (sha : Sha256) (mgr : SyncManager) (reads : ℕ) :
    Decidable (c.Undisturbed sha mgr reads) :=
  inferInstanceAs (Decidable (Prog.Undisturbed semantics.withTicks 0 (AloneOk mgr.processEpoch)
    (verifyAndFinalizeUpload sha mgr c.fileId reads).run c.envs (c.world sha mgr).crashed))

set_option maxRecDepth 20000 in
/-- The crash comes while the stored file is being verified. -/
theorem recovery_settles_verifying :
    let recovered := (recoverIncompleteUploads sampleSha nextManager 2
      ([crashAfter 16].map (Crash.stored sampleSha nextManager))).2
    ∀ p ∈ [crashAfter 16].zip recovered, AllReceipted p.1.info p.2 →
      Settled sampleSha p.1.info (finalFilePath nextManager p.1.fileId) p.2 := by
  refine (recovery_settles_iff sampleSha nextManager 2 [crashAfter 16] ?_ ?_ ?_).mpr ?_
  · decide
  · decide
  · decide
  · intro c hc _
    cases List.mem_singleton.mp hc
    have hrow : ((crashAfter 16).world sampleSha nextManager).row.status = .finalizing := by
      decide
    rw [hrow]
    exact ⟨by simp, fun h => nomatch h⟩

set_option maxRecDepth 20000 in
/-- The crash comes when the only chunk was receipted, before the lease is acquired: recovery does not
look at the upload. -/
theorem recovery_misses_receipted :
    let recovered := recoverIncompleteUploads sampleSha nextManager 2
      ([crashAfter 5].map (Crash.stored sampleSha nextManager))
    recovered.1.candidates = 0 ∧
      ∀ w ∈ recovered.2, AllReceipted oneByte w ∧ w.row.status = .uploading := by
  decide

end MichiServer.Upload
