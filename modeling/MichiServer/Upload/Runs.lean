import MichiServer.Upload.CallOutlines

/-!
# Runs of an upload

What holds in every run of calls on one announced upload, whatever the processes, the schedule, the
storage errors, the calls that are given up and the turns of the heartbeats.

The row is fenced by the token it stores, without any promise. Two further results need one each, and
the runs that break it are shown beside them: a completed upload has its file as long as no chunk is
written under the finalizer, and the receipts agree with the staged file as long as no two different
chunks are stored at one place.
-/

namespace MichiServer.Upload

open MichiServer.Files MichiServer.Interleave

abbrev UploadRun := System UploadAct.Resp (Except SyncError UploadOutcome) UploadWorld

/-! ## The start -/

section Start

variable (sha : Sha256) (mgr : SyncManager) (info : UploadInfo) (P : Promises)

theorem UploadInv.announced (serverPath : String) :
    UploadInv sha info serverPath P (.announced mgr info) where
  row_info := rfl
  cached_info epoch m hm := by
    grind [UploadWorld.announced]
  no_token _ := rfl
  failed_terminal h := nomatch h
  synced _ hf := nomatch hf
  synced_once := Nat.zero_le 1
  files_exist p x hx := by cases p <;> cases hx
  sizes _ hc := nomatch hc
  receipts_fit _ hr := nomatch hr
  promoted_receipted h := absurd rfl h
  completed_stored _ h := nomatch h
  receipts_stored _ _ hr := nomatch hr

theorem wellOutlined_start (fileId : Uuid) (calls : List UploadCall) :
    WellOutlined (uploadDiscipline sha info (finalFilePath mgr fileId) P) semantics
      (start sha mgr fileId info calls) := by
  refine ⟨UploadInv.announced sha mgr info P _, fun i p hp => ?_⟩
  have hget := Option.join_eq_some_iff.mp hp
  simp only [start, List.getElem?_map] at hget
  obtain ⟨call, _, hcall⟩ := Option.map_eq_some_iff.mp hget
  cases hcall
  exact Setting.outlined_program (c := ⟨sha, info, finalFilePath mgr fileId, P⟩) rfl

theorem wellOutlined_run {fileId : Uuid} {calls : List UploadCall}
    {moves : List (Move StepEnv HeartbeatTick)}
    (hmoves : (start sha mgr fileId info calls).Obeys semantics (AllowedMove sha P) moves) :
    WellOutlined (uploadDiscipline sha info (finalFilePath mgr fileId) P) semantics
      ((start sha mgr fileId info calls).run semantics moves) :=
  (upload_sound sha info _ P).run (wellOutlined_start sha mgr info P fileId calls) hmoves

end Start

/-! ## Fencing -/

namespace UploadUpdate

def token : UploadUpdate → Token
  | acquire t _ _ _ | takeOverEpoch t _ _ _ | takeOverLease t _ _ _ _ _ | renew t _ _
  | markFailed t _ _ _ _ | markCompleted t _ => t

def epoch : UploadUpdate → Epoch
  | acquire _ e _ _ | takeOverEpoch _ e _ _ | takeOverLease _ e _ _ _ _ | renew _ e _
  | markFailed _ e _ _ _ | markCompleted _ e => e

theorem apply_of_finalizing (u : UploadUpdate) {row : UploadRow} (hrow : row.status = .finalizing)
    (hleft : (u.apply row).status ≠ .finalizing) :
    row.finalizeToken = some u.token ∧ row.finalizeOwnerEpoch = some u.epoch ∧
      ((u.apply row).status = .completed ∨ (u.apply row).status = .failed) := by
  unfold apply at hleft ⊢
  split at hleft
  next happlies =>
    rw [if_pos happlies]
    cases u with
    | markFailed t e _ _ _ =>
      obtain ⟨_, htoken, hepoch⟩ := of_decide_eq_true happlies
      exact ⟨htoken, hepoch, Or.inr rfl⟩
    | markCompleted t e =>
      obtain ⟨_, htoken, hepoch⟩ := of_decide_eq_true happlies
      exact ⟨htoken, hepoch, Or.inl rfl⟩
    | acquire => exact absurd rfl hleft
    | takeOverEpoch | takeOverLease | renew => exact absurd hrow hleft
  · exact absurd hrow hleft

theorem token_drawn (u : UploadUpdate) {sha : Sha256} {info : UploadInfo} {serverPath : String}
    {P : Promises} {i : TaskId} {w : UploadWorld}
    (hpre : UpdatePre sha info serverPath P i w u) : w.uuids[u.token]? = some i := by
  cases u with
  | acquire | takeOverEpoch | takeOverLease => exact hpre
  | markFailed | markCompleted => exact hpre.1
  | renew => exact hpre.elim

theorem apply_of_terminal (u : UploadUpdate) {row : UploadRow}
    (hrow : row.status = .completed ∨ row.status = .cancelled ∨
      row.status = .failed ∧ row.failureClass = some .terminal) : u.apply row = row := by
  refine if_neg fun happlies => ?_
  have hnot : row.status ≠ .finalizing := by
    rcases hrow with h | h | ⟨h, _⟩ <;> simp [h]
  cases u with
  | acquire =>
    rcases of_decide_eq_true happlies with h | ⟨h, hclass⟩
    · rcases hrow with h' | h' | ⟨h', _⟩ <;> simp [h'] at h
    · grind
  | takeOverEpoch | takeOverLease | renew | markFailed | markCompleted =>
    exact hnot (of_decide_eq_true happlies).1

end UploadUpdate

/-- Only an update changes the row. -/
theorem row_exec (i : TaskId) (a : UploadAct) (env : StepEnv) (w : UploadWorld) :
    (exec i a env w).2.row = w.row ∨
      ∃ u, a = .updateUpload u ∧ (exec i a env w).2.row = u.apply w.row := by
  cases a with
  | updateUpload u =>
    grind [exec]
  | insertChunk r =>
    left
    simp only [exec, UploadWorld.insertChunk]
    split_ifs <;> rfl
  | insertSyncedFile f =>
    left
    simp only [exec, UploadWorld.insertSyncedFile]
    split_ifs <;> rfl
  | openPart =>
    left
    obtain ⟨_, _, heq⟩ := w.openPart_eq
    simp only [exec, heq]
    split <;> rfl
  | write | rename =>
    left
    simp only [exec]
    split <;> rfl
  | joinHeartbeat token =>
    left
    simp only [exec]
    split <;> rfl
  | uploads | selectUpload | selectChunkIndices | selectChunk | selectSyncedFile
  | metadata | openFile | read | newUuid | clock | spawnHeartbeat => exact Or.inl rfl

theorem row_renew (t : HeartbeatTick) (w : UploadWorld) :
    (renewFinalizationLease t w).row = w.row ∨
      ∃ u : UploadUpdate, (renewFinalizationLease t w).row = u.apply w.row ∧
        (u.apply w.row).status = w.row.status := by
  unfold renewFinalizationLease
  cases w.heartbeats t.token with
  | none => exact Or.inl rfl
  | some h =>
    dsimp only
    split
    · exact Or.inl rfl
    split
    · exact Or.inl rfl
    split
    next happlies =>
      refine Or.inr ⟨_, (if_pos happlies).symm, ?_⟩
      rw [UploadUpdate.apply, if_pos happlies]
      rfl
    · exact Or.inl rfl

/-- The move takes the row out of `finalizing` only as the update of a task that drew the token the
row stores. -/
def LeftByOwner (s : UploadRun) (m : Move StepEnv HeartbeatTick) : Prop :=
  s.world.row.status = .finalizing → (s.step semantics m).world.row.status ≠ .finalizing →
    ∃ i env u, m = .act i env ∧ s.next i = some (.updateUpload u) ∧
      s.world.uuids[u.token]? = some i ∧ s.world.row.finalizeToken = some u.token ∧
      s.world.row.finalizeOwnerEpoch = some u.epoch ∧
      ((s.step semantics m).world.row.status = .completed ∨
        (s.step semantics m).world.row.status = .failed)

/-- The move leaves a row that is completed, failed or cancelled as it is. -/
def KeepsTerminal (s : UploadRun) (m : Move StepEnv HeartbeatTick) : Prop :=
  s.world.row.status = .completed ∨ s.world.row.status = .failed ∨
      s.world.row.status = .cancelled →
    (s.step semantics m).world.row = s.world.row

section Fenced

variable {sha : Sha256} {info : UploadInfo} {serverPath : String} {P : Promises} {s : UploadRun}

/-- Outlined tasks leave a finalization to its owner. -/
theorem leftByOwner_of_outlined
    (h : WellOutlined (uploadDiscipline sha info serverPath P) semantics s)
    (m : Move StepEnv HeartbeatTick) : LeftByOwner s m := by
  intro hrow hleft
  cases m with
  | drop i => exact absurd hrow hleft
  | tick t =>
    have hstatus : (renewFinalizationLease t s.world).row.status = s.world.row.status := by
      grind [row_renew]
    exact absurd (hstatus.trans hrow) hleft
  | act i env =>
    cases hnext : s.next i with
    | none =>
      grind [System.step_act_of_none]
    | some a =>
      rw [System.world_step_act hnext] at hleft
      rcases row_exec i a env s.world with hsame | ⟨u, rfl, hupdate⟩
      · exact absurd ((congrArg _ hsame).trans hrow) hleft
      have hleft' : (u.apply s.world.row).status ≠ .finalizing := by rwa [← hupdate]
      obtain ⟨htoken, hepoch, hend⟩ := u.apply_of_finalizing hrow hleft'
      refine ⟨i, env, u, rfl, hnext, ?_, htoken, hepoch, ?_⟩
      · exact u.token_drawn (h.pre hnext)
      · rw [System.world_step_act hnext]
        show (exec i _ env s.world).2.row.status = _ ∨ (exec i _ env s.world).2.row.status = _
        rwa [hupdate]

/-- They leave what has ended as it is. -/
theorem keepsTerminal_of_outlined
    (h : WellOutlined (uploadDiscipline sha info serverPath P) semantics s)
    (m : Move StepEnv HeartbeatTick) : KeepsTerminal s m := by
  intro hrow
  have hterminal : s.world.row.status = .completed ∨ s.world.row.status = .cancelled ∨
      s.world.row.status = .failed ∧ s.world.row.failureClass = some .terminal := by
    rcases hrow with hcompleted | hfailed | hcancelled
    · exact Or.inl hcompleted
    · exact Or.inr (Or.inr ⟨hfailed, h.1.failed_terminal hfailed⟩)
    · exact Or.inr (Or.inl hcancelled)
  cases m with
  | drop i => rfl
  | tick t =>
    show (renewFinalizationLease t s.world).row = _
    rcases row_renew t s.world with hsame | ⟨u, hupdate, _⟩
    · exact hsame
    · rw [hupdate, u.apply_of_terminal hterminal]
  | act i env =>
    cases hnext : s.next i with
    | none => rw [System.step_act_of_none hnext]
    | some a =>
      rw [System.world_step_act hnext]
      show (exec i a env s.world).2.row = _
      rcases row_exec i a env s.world with hsame | ⟨u, _, hupdate⟩
      · exact hsame
      · rw [hupdate, u.apply_of_terminal hterminal]

end Fenced

/-- **Fenced finalization.** In every state any run reaches, and for every move from it: only a worker
that drew the stored token takes the row out of `finalizing`, a terminal row stays as it is, and no
second row of `synced_files` is there. -/
theorem fenced_finalization (sha : Sha256) (mgr : SyncManager) (fileId : Uuid) (info : UploadInfo)
    (calls : List UploadCall) (moves : List (Move StepEnv HeartbeatTick)) :
    let s := (start sha mgr fileId info calls).run semantics moves
    (∀ m, LeftByOwner s m ∧ KeepsTerminal s m) ∧ s.world.syncedFiles.length ≤ 1 := by
  intro s
  have hnothing : (start sha mgr fileId info calls).Obeys semantics
      (AllowedMove sha ⟨False, False⟩) moves :=
    System.obeys_of_forall (fun _ _ => ⟨False.elim, False.elim⟩) _ _
  have hout := wellOutlined_run sha mgr info ⟨False, False⟩ hnothing
  exact ⟨fun m => ⟨leftByOwner_of_outlined hout m, keepsTerminal_of_outlined hout m⟩, hout.1.synced_once⟩

/-! ## Small uploads -/

def hashA : String := "559aead08264d5795d3909718cdd05abd49572e84fe55590eef31a88a08fdffd"

def hashB : String := "df7e70e5021544f4834bbee64a9e3789febc4be81470df629cad6ddb03320a5c"

def sampleSha : Sha256 where
  hex data := if data = [65] then hashA else hashB
  hex_size data := by split <;> decide
  hex_lower data := by split <;> decide

def sampleManager : SyncManager where
  uploadDir := "/uploads"
  runtimeConfig := { chunkSize := 1 }
  processEpoch := 1

def oneByte : UploadInfo where
  filename := "a"
  originalPath := "a"
  fileSize := 1
  expectedHash := hashA
  uploadedBy := "device"
  totalChunks := 1
  chunkSize := 1

def twoBytes : UploadInfo where
  filename := "aa"
  originalPath := "aa"
  fileSize := 2
  expectedHash := "58bb119c35513a451d24dc20ef0e9031ec85b35bfc919d263e7e5d9868909cb5"
  uploadedBy := "device"
  totalChunks := 2
  chunkSize := 1

def sendA (totalChunks : ℕ) : UploadCall :=
  .uploadChunk 1 sampleManager.runtimeConfig 5 ⟨7, 0, totalChunks, [65], hashA⟩

def sendB (totalChunks : ℕ) : UploadCall :=
  .uploadChunk 1 sampleManager.runtimeConfig 5 ⟨7, 0, totalChunks, [66], hashB⟩

def steps (i : TaskId) (n : ℕ) : List (Move StepEnv HeartbeatTick) :=
  List.replicate n (.act i { block := 1 })

/-! ## A completed upload has its file -/

/-- **Completed and stored.** In a run whose moves keep the first promise, whenever the row is
completed, the final file has the announced size and hash, and a row of `synced_files` is there for
it. -/
theorem completed_has_file (sha : Sha256) (mgr : SyncManager) (fileId : Uuid) (info : UploadInfo)
    (calls : List UploadCall) (moves : List (Move StepEnv HeartbeatTick))
    (hquiet : (start sha mgr fileId info calls).Obeys semantics QuietMove moves) :
    let w := ((start sha mgr fileId info calls).run semantics moves).world
    w.row.status = .completed → FileStored sha info (finalFilePath mgr fileId) w := by
  intro w hcompleted
  have hallowed : (start sha mgr fileId info calls).Obeys semantics
      (AllowedMove sha ⟨True, False⟩) moves :=
    hquiet.mono fun _ _ hm => ⟨fun _ => hm, False.elim⟩
  exact (wellOutlined_run sha mgr info _ hallowed).1.completed_stored trivial hcompleted

set_option maxRecDepth 20000 in
/-- The byte `A`, sent once. -/
theorem completed_has_file_one_byte :
    FileStored sampleSha oneByte (finalFilePath sampleManager 7)
      ((start sampleSha sampleManager 7 oneByte [sendA 1]).run semantics (steps 0 40)).world :=
  completed_has_file sampleSha sampleManager 7 oneByte [sendA 1] (steps 0 40)
    (by decide) (by decide)

set_option maxRecDepth 20000 in
/-- The byte `B` is sent and its staging file opened; the byte `A` is sent and completes the upload;
then the first call writes. -/
theorem late_writer_corrupts :
    let w := ((start sampleSha sampleManager 7 oneByte [sendB 1, sendA 1]).run semantics
      (steps 0 3 ++ steps 1 40 ++ steps 0 1)).world
    w.row.status = .completed ∧
      ¬ FileStored sampleSha oneByte (finalFilePath sampleManager 7) w := by
  intro w
  have hfinal : w.final = some 0 := by decide
  have hcontent : w.content 0 = [66] := by decide
  refine ⟨by decide, fun ⟨⟨x, hx, _, hhash⟩, _⟩ => ?_⟩
  cases hfinal.symm.trans hx
  rw [hcontent] at hhash
  exact absurd hhash (by decide)

/-! ## Receipts agree with the staged file -/

/-- **Receipts agree.** In a run whose moves keep the second promise, the bytes stored at the place of
every receipt have its hash, in every state, calls in progress or not. -/
theorem receipts_agree (sha : Sha256) (mgr : SyncManager) (fileId : Uuid) (info : UploadInfo)
    (calls : List UploadCall) (moves : List (Move StepEnv HeartbeatTick))
    (hagreed : (start sha mgr fileId info calls).Obeys semantics (AgreedMove sha) moves) :
    let w := ((start sha mgr fileId info calls).run semantics moves).world
    ∀ r ∈ w.receipts, ChunkStored sha info r w := by
  intro w
  have hallowed : (start sha mgr fileId info calls).Obeys semantics
      (AllowedMove sha ⟨False, True⟩) moves :=
    hagreed.mono fun _ _ hm => ⟨False.elim, fun _ => hm⟩
  exact (wellOutlined_run sha mgr info _ hallowed).1.receipts_stored trivial

set_option maxRecDepth 20000 in
/-- The byte `A`, sent as chunk 0 and, once that is recorded, the byte `B`. -/
theorem receipts_agree_two_bytes :
    let w := ((start sampleSha sampleManager 7 twoBytes [sendA 2, sendB 2]).run semantics
      (steps 0 8 ++ steps 1 8)).world
    ∀ r ∈ w.receipts, ChunkStored sampleSha twoBytes r w :=
  receipts_agree sampleSha sampleManager 7 twoBytes [sendA 2, sendB 2]
    (steps 0 8 ++ steps 1 8) (by decide)

set_option maxRecDepth 20000 in
/-- Two calls for chunk 0 look for its receipt; `B` is written and recorded, then `A` is written and
its receipt ignored. Both calls are done. -/
theorem racing_writers_disagree :
    let s := (start sampleSha sampleManager 7 twoBytes [sendA 2, sendB 2]).run semantics
      (steps 0 2 ++ steps 1 8 ++ steps 0 6)
    (∀ i < s.tasks.length, s.next i = none) ∧
      ∃ r ∈ s.world.receipts, ¬ ChunkStored sampleSha twoBytes r s.world := by
  intro s
  have hstaged : s.world.staged = some 0 := by decide
  have hcontent : s.world.content 0 = [65] := by decide
  refine ⟨by decide, ⟨0, hashB, 1⟩, by decide, fun ⟨x, hx, _, hhash⟩ => ?_⟩
  cases hstaged.symm.trans hx
  rw [hcontent] at hhash
  exact absurd hhash (by decide)

end MichiServer.Upload
