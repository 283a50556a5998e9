import MichiServer.Upload.Finalize
import MichiServer.Interleave.Outline

/-!
# Receiving chunks

`init_upload` and `upload_chunk`. A chunk is checked against its own hash
and against the session, written to the staging file at the place its index gives, and receipted; the
call that finds every chunk received finalizes the upload.
-/

namespace MichiServer.Upload

open MichiServer.Interleave

/-! ## A new upload -/

/-- The shared state after `init_upload` by this process stored the announcement. -/
def UploadWorld.announced (mgr : SyncManager) (info : UploadInfo) : UploadWorld where
  row := { toUploadInfo := info }
  uploads := fun epoch => if epoch = mgr.processEpoch then some { toUploadInfo := info } else none

/-! ## A chunk -/

section Calls

variable (sha : Sha256) (mgr : SyncManager)

def checkChunk (chunk : UploadChunk) : Except SyncError Unit :=
  if chunk.data.isEmpty then .error (.invalidChunkParameter "chunk data cannot be empty")
  else if chunk.totalChunks = 0 then
    .error (.invalidChunkParameter "total_chunks must be greater than 0")
  else if ¬ isValidSha256Hex chunk.chunkHash then
    .error (.invalidChunkParameter
      "chunk_hash must be a 64-character hexadecimal SHA-256 string")
  else if sha.hex chunk.data ≠ chunk.chunkHash then
    .error (.hashMismatch chunk.chunkHash (sha.hex chunk.data))
  else .ok ()

def checkAgainstSession (chunk : UploadChunk) (m : UploadMeta) : Except SyncError Unit :=
  if m.status = .completed then .error (.uploadAlreadyCompleted chunk.fileId)
  else if m.status = .cancelled then .error (.uploadCancelled chunk.fileId)
  else if chunk.totalChunks ≠ m.totalChunks then
    .error (.chunkConflict chunk.chunkIndex
      ("request total_chunks " ++ toString chunk.totalChunks ++ " != session total_chunks " ++
        toString m.totalChunks))
  else if chunk.chunkIndex ≥ m.totalChunks then
    .error (.invalidChunkParameter
      ("chunk_index " ++ toString chunk.chunkIndex ++ " >= total_chunks " ++
        toString m.totalChunks))
  else if chunk.data.length ≠ m.expectedSize chunk.chunkIndex then
    .error (.invalidChunkParameter
      ("invalid chunk size on index " ++ toString chunk.chunkIndex ++ ": expected " ++
        toString (m.expectedSize chunk.chunkIndex) ++ " bytes, got " ++
        toString chunk.data.length ++ " bytes"))
  else .ok ()

def UploadMeta.progress (m : UploadMeta) (fileId : Uuid) : UploadProgress where
  fileId := fileId
  uploadedChunks := m.receivedChunks.length
  totalChunks := max m.totalChunks 1
  status := m.status
  completed := m.isCompleted
  error := m.lastError

/-- A chunk that has a receipt already: the same chunk is answered with the progress, and finalizes
the upload when nothing else is missing; another one is a conflict. -/
def answerDuplicate (reads : ℕ) (chunk : UploadChunk) (existing : ChunkReceipt) :
    SyncM UploadProgress :=
  if existing.chunkHash = chunk.chunkHash ∧ existing.size = chunk.data.length then do
    let currentMeta ← getOrLoadSession mgr
    if currentMeta.status = .completed then
      pure { currentMeta.progress chunk.fileId with error := none }
    else if currentMeta.allReceived then do
      let finalizeRes ←
        TryProg.attempt (verifyAndFinalizeUpload sha mgr chunk.fileId reads)
      let refreshed ← getOrLoadSession mgr
      match finalizeRes with
      | .error e =>
        if refreshed.isCompleted then pure (refreshed.progress chunk.fileId) else throw e
      | .ok () => pure (refreshed.progress chunk.fileId)
    else pure { currentMeta.progress chunk.fileId with completed := false }
  else
    throw (.chunkConflict chunk.chunkIndex
      ("chunk " ++ toString chunk.chunkIndex ++
        " already exists with different hash or size (existing hash: " ++ existing.chunkHash ++
        ", request hash: " ++ chunk.chunkHash ++ ")"))

def finalizeIfReceived (reads : ℕ) (fileId : Uuid) (currentMeta : UploadMeta) : SyncM Unit :=
  if currentMeta.allReceived then verifyAndFinalizeUpload sha mgr fileId reads else pure ()

/-- A chunk that has no receipt: it is written and receipted, and finalizes the upload when it was
the last one missing. The progress counts what was received when the chunk was. -/
def storeChunk (reads : ℕ) (chunk : UploadChunk) (m : UploadMeta) : SyncM UploadProgress :=
  if m.chunkOffset chunk.chunkIndex ≥ 2 ^ 64 then
    throw (.invalidChunkParameter "arithmetic overflow calculating chunk offset")
  else do
    let file ← openPart
    writeChunk file (m.chunkOffset chunk.chunkIndex) chunk.data
    insertChunk {
      chunkIndex := chunk.chunkIndex
      chunkHash := chunk.chunkHash
      size := chunk.data.length }
    updateCached mgr fun m => { m with
      receivedChunks := m.receivedChunks.insert chunk.chunkIndex }
    let current ← updateUploads mgr id
    match current with
    | none => throw .panicked
    | some currentMeta => do
      finalizeIfReceived sha mgr reads chunk.fileId currentMeta
      let refreshed ← TryProg.attempt (getOrLoadSession mgr)
      let metaRefreshed := refreshed.toOption.getD m
      pure { metaRefreshed.progress chunk.fileId with
        uploadedChunks := currentMeta.receivedChunks.length
        totalChunks := max currentMeta.totalChunks 1 }

def uploadChunk (reads : ℕ) (chunk : UploadChunk) : SyncM UploadProgress :=
  match checkChunk sha chunk with
  | .error e => throw e
  | .ok () => do
    let m ← getOrLoadSession mgr
    match checkAgainstSession chunk m with
    | .error e => throw e
    | .ok () => do
      let existingChunk ← selectChunk chunk.chunkIndex
      match existingChunk with
      | some existing => answerDuplicate sha mgr reads chunk existing
      | none => storeChunk sha mgr reads chunk m

end Calls

/-! ## The calls of a run -/

inductive UploadCall where
  | uploadChunk (epoch : Epoch) (config : SyncRuntimeConfig) (reads : ℕ) (chunk : UploadChunk)
  | verifyAndFinalizeUpload (epoch : Epoch) (config : SyncRuntimeConfig) (reads : ℕ)

inductive UploadOutcome where
  | progress (p : UploadProgress)
  | finalized

def UploadCall.program (sha : Sha256) (uploadDir : String) (fileId : Uuid) :
    UploadCall → Prog UploadAct.Resp (Except SyncError UploadOutcome)
  | .uploadChunk epoch config reads chunk =>
    (UploadOutcome.progress <$> Upload.uploadChunk sha
      { uploadDir := uploadDir, runtimeConfig := config, processEpoch := epoch } reads
      { chunk with fileId := fileId }).run
  | .verifyAndFinalizeUpload epoch config reads =>
    ((fun _ => UploadOutcome.finalized) <$> Upload.verifyAndFinalizeUpload sha
      { uploadDir := uploadDir, runtimeConfig := config, processEpoch := epoch } fileId
      reads).run

def start (sha : Sha256) (mgr : SyncManager) (fileId : Uuid) (info : UploadInfo)
    (calls : List UploadCall) :
    System UploadAct.Resp (Except SyncError UploadOutcome) UploadWorld where
  tasks := calls.map fun c => some (c.program sha mgr.uploadDir fileId)
  world := .announced mgr info

/-!
## What the calls of an upload may count on

The discipline under which the calls of one upload are outlined. `UploadInv` is what holds of the
shared state between any two steps, `UploadPre` what a call has established when it does a step, and
`Calm` what a call knows of the steps of everything else: nothing is taken back that was recorded, and
no one else stores a token the call has drawn.

Two further promises are not kept by the code alone. They are taken from the run, and switched on one by
one: under `quiet` no chunk write changes a file that is being finalized or is final, and nobody
promotes a file after the lease was lost; under `agreed` no two chunks of one index and different
content are stored at a time. What depends on a promise is stated under it, so that the same outlines
serve runs that make none, one or the other.
-/

open MichiServer.Files

structure Promises where
  quiet : Prop
  agreed : Prop

/-! ## The promises, step by step -/

/-- A chunk write changes neither of the files while the upload is being finalized, nor the final file
once it is completed; a promotion is made by the worker whose token is in the row. -/
def QuietStep (i : TaskId) (a : UploadAct) (env : StepEnv) (w : UploadWorld) : Prop :=
  match a with
  | .write x _ _ =>
    (w.row.status = .finalizing ∧ (w.part = some x ∨ w.final = some x) ∨
      w.row.status = .completed ∧ w.final = some x) →
    (exec i a env w).2.content x = w.content x
  | .rename => env.fails = false → w.part ≠ none →
    (w.row.finalizeToken.any fun t => w.uuids[t]? = some i) = true
  | _ => True

/-- A chunk is written when no receipt with another hash is recorded for its place; a second staging
file is not promoted over a promoted one. -/
def AgreedStep (sha : Sha256) (a : UploadAct) (env : StepEnv) (w : UploadWorld) : Prop :=
  match a with
  | .write _ offset data => ∀ r ∈ w.receipts,
    w.row.chunkOffset r.chunkIndex = offset → r.chunkHash = sha.hex data
  | .rename => env.fails = false → w.part ≠ none → w.final = none
  | _ => True

/-! ## Facts about the shared state -/

section Facts

variable (sha : Sha256) (info : UploadInfo) (serverPath : String)

/-- The staged file: the final one when it is there, else the staging file. -/
def UploadWorld.staged (w : UploadWorld) : Option Inode := w.final <|> w.part

def AllReceipted (w : UploadWorld) : Prop :=
  ∀ index < info.totalChunks, ∃ r ∈ w.receipts, r.chunkIndex = index

instance (w : UploadWorld) : Decidable (AllReceipted info w) :=
  inferInstanceAs (Decidable (∀ index < info.totalChunks, ∃ r ∈ w.receipts, r.chunkIndex = index))

/-- The bytes of the staged file at the place of a receipt are those it was given for. -/
def ChunkStored (r : ChunkReceipt) (w : UploadWorld) : Prop :=
  ∃ x, w.staged = some x ∧ info.chunkOffset r.chunkIndex + r.size ≤ (w.content x).length ∧
    sha.hex (slice (w.content x) (info.chunkOffset r.chunkIndex) r.size) = r.chunkHash

/-- The chunk is stored, or its place has been receipted with the same hash already. -/
def ChunkKept (r : ChunkReceipt) (w : UploadWorld) : Prop :=
  ChunkStored sha info r w ∨
    ∃ r' ∈ w.receipts, r'.chunkIndex = r.chunkIndex ∧ r'.chunkHash = r.chunkHash

def Verified (content : List UInt8) : Prop :=
  content.length = info.fileSize ∧ sha.hex content = info.expectedHash

def FileStored (w : UploadWorld) : Prop :=
  (∃ x, w.final = some x ∧ Verified sha info (w.content x)) ∧
    ∃ f ∈ w.syncedFiles, f.fileHash = info.expectedHash ∧ f.serverPath = serverPath

/-! ## The invariant -/

structure UploadInv (P : Promises) (w : UploadWorld) : Prop where
  row_info : w.row.toUploadInfo = info
  cached_info : ∀ epoch m, w.uploads epoch = some m → m.toUploadInfo = info
  no_token : w.row.status ≠ .finalizing → w.row.finalizeToken = none
  failed_terminal : w.row.status = .failed → w.row.failureClass = some .terminal
  synced : ∀ f ∈ w.syncedFiles,
    f.fileHash = info.expectedHash ∧ f.serverPath = serverPath
  synced_once : w.syncedFiles.length ≤ 1
  files_exist : ∀ p x, w.fileAt p = some x → x < w.inodes.length
  sizes : ∀ content ∈ w.inodes, content.length ≤ info.fileSize
  receipts_fit : ∀ r ∈ w.receipts,
    r.chunkIndex < info.totalChunks ∧ r.size = info.expectedSize r.chunkIndex
  promoted_receipted : w.final ≠ none → AllReceipted info w
  completed_stored : P.quiet → w.row.status = .completed → FileStored sha info serverPath w
  receipts_stored : P.agreed → ∀ r ∈ w.receipts, ChunkStored sha info r w

/-! ## What a call has established -/

/-- An update of the row is made with a token the call has drawn, fails an upload for good, and
completes it only when its file is stored. -/
def UpdatePre (P : Promises) (i : TaskId) (w : UploadWorld) : UploadUpdate → Prop
  | .acquire t _ _ _ | .takeOverEpoch t _ _ _ | .takeOverLease t _ _ _ _ _ =>
    w.uuids[t]? = some i
  | .markFailed t _ failureClass _ _ => w.uuids[t]? = some i ∧ failureClass = .terminal
  | .markCompleted t _ => w.uuids[t]? = some i ∧
    (P.quiet → w.row.finalizeToken = some t → FileStored sha info serverPath w)
  | .renew _ _ _ => False

def UploadPre (P : Promises) (i : TaskId) (a : UploadAct) (w : UploadWorld) : Prop :=
  match a with
  | .uploads _ f => ∀ m, (∀ m₀ ∈ m, UploadRow.toUploadInfo (UploadMeta.toUploadRow m₀) = info) →
    ∀ m₁ ∈ f m, UploadRow.toUploadInfo (UploadMeta.toUploadRow m₁) = info
  | .insertChunk r => r.chunkIndex < info.totalChunks ∧
    r.size = info.expectedSize r.chunkIndex ∧ (P.agreed → ChunkKept sha info r w)
  | .updateUpload u => UpdatePre sha info serverPath P i w u
  | .insertSyncedFile f => f.fileHash = info.expectedHash ∧ f.serverPath = serverPath
  | .write x offset data => ∃ index < info.totalChunks, offset = info.chunkOffset index ∧
    data.length = info.expectedSize index ∧
    (P.agreed → w.staged = some x ∨ AllReceipted info w)
  | .rename => AllReceipted info w
  | _ => True

/-! ## What a call may count on -/

structure Calm (P : Promises) (i : TaskId) (w w' : UploadWorld) : Prop where
  uuids : ∀ (t : Token) j, w.uuids[t]? = some j → w'.uuids[t]? = some j
  receipts : ∀ r ∈ w.receipts, r ∈ w'.receipts
  synced : ∀ f ∈ w.syncedFiles, f ∈ w'.syncedFiles
  token : ∀ (t : Token), w.uuids[t]? = some i → w'.row.finalizeToken = some t →
    w.row.finalizeToken = some t
  quiet : P.quiet → ∀ (t : Token), w.uuids[t]? = some i → w'.row.finalizeToken = some t →
    ∀ p x, w.fileAt p = some x → w'.fileAt p = some x ∧ w'.content x = w.content x
  agreed : P.agreed → ∀ x, w.staged = some x → w'.staged = some x

/-- While a call is about to record a chunk, the chunk stays where it put it. -/
def UploadRely (P : Promises) (i : TaskId) (a : UploadAct) (w w' : UploadWorld) : Prop :=
  Calm P i w w' ∧
    ∀ r, a = .insertChunk r → P.agreed → ChunkKept sha info r w → ChunkKept sha info r w'

end Facts

namespace Calm

variable {P : Promises} {i : TaskId} {w w' w'' : UploadWorld}

theorem refl (P : Promises) (i : TaskId) (w : UploadWorld) : Calm P i w w :=
  ⟨fun _ _ h => h, fun _ h => h, fun _ h => h, fun _ _ h => h,
    fun _ _ _ _ _ _ h => ⟨h, rfl⟩, fun _ _ h => h⟩

theorem trans (h : Calm P i w w') (h' : Calm P i w' w'') : Calm P i w w'' where
  uuids t j ht := h'.uuids t j (h.uuids t j ht)
  receipts r hr := h'.receipts r (h.receipts r hr)
  synced f hf := h'.synced f (h.synced f hf)
  token t ht hrow := h.token t ht (h'.token t (h.uuids t i ht) hrow)
  quiet hq t ht hrow p x hx := by
    have ht' := h.uuids t i ht
    obtain ⟨hx', hc⟩ := h.quiet hq t ht (h'.token t ht' hrow) p x hx
    obtain ⟨hx'', hc'⟩ := h'.quiet hq t ht' hrow p x hx'
    exact ⟨hx'', hc'.trans hc⟩
  agreed ha x hx := h'.agreed ha x (h.agreed ha x hx)

end Calm

def uploadDiscipline (sha : Sha256) (info : UploadInfo) (serverPath : String) (P : Promises) :
    Discipline UploadAct StepEnv UploadWorld where
  Inv := UploadInv sha info serverPath P
  Pre := UploadPre sha info serverPath P
  Ok i a env w := (P.quiet → QuietStep i a env w) ∧ (P.agreed → AgreedStep sha a env w)
  Rely := UploadRely sha info P
  rely_refl i _ w := ⟨.refl P i w, fun _ _ _ h => h⟩
  rely_trans _ _ _ _ _ h h' :=
    ⟨h.1.trans h'.1, fun r hr ha hk => h'.2 r hr ha (h.2 r hr ha hk)⟩

end MichiServer.Upload
