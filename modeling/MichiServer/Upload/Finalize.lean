import MichiServer.Upload.Storage

/-!
# Finalizing an upload

`verify_and_finalize_upload` and what it calls, as programs over the shared state. A worker acquires
the lease of the upload (or takes it over from a worker that is gone), checks receipts, size and hash
of the stored file, promotes it, registers it and marks the upload completed. A heartbeat renews the
lease meanwhile.

Wherever the source leaves with `?`, the program ends with the error and the heartbeat is left to
itself; the errors that the source catches stop the heartbeat first. `reads` bounds the reads of a
file: a reader that would need more of them ends with an input error, which a reader may always do.
-/

namespace MichiServer.Upload

open MichiServer.Interleave

abbrev SyncM (α : Type) := TryProg UploadAct.Resp SyncError α

def db {α : Type} (p : Prog UploadAct.Resp (Option α)) : SyncM α := TryProg.orElse .databaseError p

def io {α : Type} (p : Prog UploadAct.Resp (Option α)) : SyncM α := TryProg.orElse .ioError p

def sure {α : Type} (p : Prog UploadAct.Resp α) : SyncM α := TryProg.lift p

/-! ## The steps, as calls -/

section Steps

open UploadAct

def updateUploads (mgr : SyncManager) (f : Option UploadMeta → Option UploadMeta) :
    SyncM (Option UploadMeta) := sure (.perform (uploads mgr.processEpoch f))

def selectUpload : SyncM UploadRow := db (.perform UploadAct.selectUpload)

def selectChunkIndices : SyncM (List ℕ) := db (.perform UploadAct.selectChunkIndices)

def selectChunk (index : ℕ) : SyncM (Option ChunkReceipt) :=
  db (.perform (UploadAct.selectChunk index))

def insertChunk (r : ChunkReceipt) : SyncM Unit := db (.perform (UploadAct.insertChunk r))

def updateUpload (u : UploadUpdate) : SyncM Bool := db (.perform (UploadAct.updateUpload u))

def insertSyncedFile (f : SyncedFile) : SyncM Unit :=
  db (.perform (UploadAct.insertSyncedFile f))

def selectSyncedFile (fileHash serverPath : String) : SyncM Uuid :=
  db (.perform (UploadAct.selectSyncedFile fileHash serverPath))

def openPart : SyncM Inode := io (.perform UploadAct.openPart)

def writeChunk (x : Inode) (offset : ℕ) (data : List UInt8) : SyncM Unit :=
  io (.perform (UploadAct.write x offset data))

def metadataLen (p : UploadPath) : SyncM ℕ := io (.perform (metadata p))

/-- Whether a name is there, as `tokio::fs::metadata(path).await.is_ok()`. -/
def existsOnDisk (p : UploadPath) : SyncM Bool :=
  sure (.perform (metadata p) >>= fun len : Option ℕ => .ret len.isSome)

def openFile (p : UploadPath) : SyncM Inode := io (.perform (UploadAct.openFile p))

def readBlock (x : Inode) (pos len : ℕ) : SyncM (List UInt8) := io (.perform (read x pos len))

def renamePart : SyncM Unit := io (.perform rename)

def drawUuid : SyncM ℕ := sure (.perform newUuid)

def utcNow : SyncM DateTime := sure (.perform clock)

def spawnFinalizationHeartbeat (token : Token) (h : Heartbeat) : SyncM Unit :=
  sure (.perform (spawnHeartbeat token h))

def stopHeartbeat (token : Token) : SyncM (Except SyncError Unit) :=
  sure (.perform (joinHeartbeat token))

end Steps

section Calls

variable (sha : Sha256) (mgr : SyncManager) (fileId : Uuid)

def finalFilePath : String := mgr.uploadDir ++ "/" ++ toString fileId

def partFilePath : String := mgr.uploadDir ++ "/" ++ toString fileId ++ ".part"

/-! ## Sessions -/

def updateCached (f : UploadMeta → UploadMeta) : SyncM Unit := do
  let _ ← updateUploads mgr (Option.map f)
  pure ()

def loadSessionFromDbInternal : SyncM UploadMeta := do
  let row ← selectUpload
  let indices ← selectChunkIndices
  pure { toUploadRow := row, receivedChunks := indices }

def reloadSessionFromDb : SyncM UploadMeta := do
  let loaded ← loadSessionFromDbInternal
  let _ ← updateUploads mgr fun _ => some loaded
  pure loaded

def getOrLoadSession : SyncM UploadMeta := do
  let cached ← updateUploads mgr id
  match cached with
  | some m => pure m
  | none => do
    let loaded ← loadSessionFromDbInternal
    let existing ← updateUploads mgr fun m => some (m.getD loaded)
    pure (existing.getD loaded)

/-! ## Fencing -/

def assertFinalizationOwner (token : Token) : SyncM Unit := do
  let row ← selectUpload
  if row.status ≠ .finalizing ∨ row.finalizeToken ≠ some token ∨
      row.finalizeOwnerEpoch ≠ some mgr.processEpoch then
    throw (.finalizationOwnershipLost fileId)
  else
    match row.finalizeLeaseUntil with
    | none => pure ()
    | some leaseUntil => do
      let now ← utcNow
      if now ≥ leaseUntil then throw (.finalizationLeaseExpired fileId) else pure ()

def markUploadFailedAsOwner (token : Token) (failureClass : UploadFailureClass)
    (failureCode reason : String) : SyncM Unit := do
  let changed ← updateUpload
    (.markFailed token mgr.processEpoch failureClass failureCode reason)
  if changed then
    updateCached mgr fun m => { m with
      status := .failed
      failureClass := some failureClass
      failureCode := some failureCode
      lastError := some reason
      finalizeToken := none
      finalizeOwnerEpoch := none
      finalizeLeaseUntil := none }
  else do
    let _ ← TryProg.attempt (reloadSessionFromDb mgr)
    throw (.finalizationOwnershipLost fileId)

def markUploadCompleted (token : Token) : SyncM Unit := do
  let changed ← updateUpload (.markCompleted token mgr.processEpoch)
  if changed then
    updateCached mgr fun m => { m with
      status := .completed
      finalizeToken := none
      finalizeOwnerEpoch := none
      finalizeStartedAt := none
      finalizeLeaseUntil := none
      failureClass := none
      failureCode := none
      lastError := none }
  else do
    let _ ← TryProg.attempt (reloadSessionFromDb mgr)
    throw (.finalizationOwnershipLost fileId)

def orStopHeartbeat {α : Type} (token : Token) (x : SyncM α) : SyncM α := do
  let result ← TryProg.attempt x
  match result with
  | .ok a => pure a
  | .error e => do
    let _ ← stopHeartbeat token
    throw e

/-- The heartbeat is stopped, the upload is marked failed for good, whether that succeeds or not, and
the call ends with the error. -/
def failFinalization {α : Type} (token : Token) (code : UploadFailureCode) (reason : String)
    (e : SyncError) : SyncM α := do
  let _ ← stopHeartbeat token
  let _ ← TryProg.attempt
    (markUploadFailedAsOwner mgr fileId token .terminal code.asDbStr reason)
  throw e

/-! ## The stored file -/

/-- The loop of `calculate_file_hash`: the blocks read so far are in `hashed`. -/
def hashLoop (x : Inode) : ℕ → List UInt8 → SyncM String
  | 0, _ => throw .ioError
  | reads + 1, hashed => do
    let block ← readBlock x hashed.length (min mgr.runtimeConfig.chunkSize 1048576)
    if block.isEmpty then pure (sha.hex hashed) else hashLoop x reads (hashed ++ block)

def calculateFileHash (reads : ℕ) (p : UploadPath) : SyncM String := do
  let x ← openFile p
  hashLoop sha mgr x reads []

def registerUploadedFile (info : UploadInfo) : SyncM Uuid := do
  let id ← drawUuid
  let now ← utcNow
  let serverPath := finalFilePath mgr fileId
  insertSyncedFile {
    id := id
    filename := info.filename
    originalPath := info.originalPath
    serverPath := serverPath
    fileHash := info.expectedHash
    fileSize := info.fileSize
    uploadedAt := now
    uploadedBy := info.uploadedBy
    checksumVerified := true }
  selectSyncedFile info.expectedHash serverPath

/-- The rename of a verified staging file; a final file is where it belongs. -/
def promote (token : Token) (target : UploadPath) : SyncM Unit :=
  if target = .part then orStopHeartbeat token renamePart else pure ()

/-- The end of a finalization whose file was verified: promote, register, complete. -/
def promoteAndComplete (info : UploadInfo) (token : Token) (target : UploadPath) : SyncM Unit := do
  orStopHeartbeat token (assertFinalizationOwner mgr fileId token)
  promote token target
  orStopHeartbeat token (assertFinalizationOwner mgr fileId token)
  let _ ← orStopHeartbeat token (registerUploadedFile mgr fileId info)
  let heartbeatRes ← stopHeartbeat token
  match heartbeatRes with
  | .error (.finalizationOwnershipLost id) => throw (.finalizationOwnershipLost id)
  | _ => markUploadCompleted mgr fileId token

def verifyFile (reads : ℕ) (info : UploadInfo) (token : Token) (target : UploadPath) :
    SyncM Unit := do
  let actualSize ← metadataLen target
  if actualSize ≠ info.fileSize then
    failFinalization mgr fileId token .sizeMismatch
      ("file size mismatch: expected " ++ toString info.fileSize ++ ", got " ++
        toString actualSize)
      (.terminalUploadFailure fileId .sizeMismatch)
  else do
    let computedHash ← orStopHeartbeat token (calculateFileHash sha mgr reads target)
    if computedHash ≠ info.expectedHash then
      failFinalization mgr fileId token .hashMismatch
        ("hash mismatch: expected " ++ info.expectedHash ++ ", got " ++ computedHash)
        (.hashMismatch info.expectedHash computedHash)
    else promoteAndComplete mgr fileId info token target

/-- What follows once the lease is held: the receipts, the file's name, then the file. -/
def finalizeAsOwner (reads : ℕ) (info : UploadInfo) (token : Token) (leaseUntil : DateTime) :
    SyncM Unit := do
  updateCached mgr fun m => { m with
    status := .finalizing
    finalizeToken := some token
    finalizeOwnerEpoch := some mgr.processEpoch
    finalizeLeaseUntil := some leaseUntil }
  spawnFinalizationHeartbeat token {
    fileId := fileId
    epoch := mgr.processEpoch
    leaseDuration := mgr.runtimeConfig.finalizeLeaseDuration }
  let dbChunks ← selectChunkIndices
  match (List.range info.totalChunks).find? fun i => !dbChunks.contains i with
  | some expectedIdx =>
    failFinalization mgr fileId token .missingChunk
      ("cannot finalize: missing chunk index " ++ toString expectedIdx ++
        " in persistent storage")
      (.terminalUploadFailure fileId .missingChunk)
  | none => do
    let staged ← existsOnDisk .part
    if staged then verifyFile sha mgr fileId reads info token .part
    else do
      let promoted ← existsOnDisk .final
      if promoted then verifyFile sha mgr fileId reads info token .final
      else
        let errMsg := "neither staging file \"" ++ partFilePath mgr fileId ++
          "\" nor final file \"" ++ finalFilePath mgr fileId ++ "\" exists on disk"
        failFinalization mgr fileId token .artifactMissing errMsg (.fileNotFound errMsg)

/-! ## The lease -/

/-- A lease found in the row is stale: its worker belongs to another process, or it has expired. -/
def isStale (row : UploadRow) (now : DateTime) : Bool :=
  if row.finalizeOwnerEpoch ≠ some mgr.processEpoch then true
  else
    match row.finalizeLeaseUntil with
    | some leaseUntil => now ≥ leaseUntil
    | none =>
      match row.finalizeStartedAt with
      | some started => (now - started).toNat ≥ mgr.runtimeConfig.finalizeLeaseDuration
      | none => true

/-- The poll of a lease that is held: whether the upload completes within so many looks. -/
def pollCompleted : ℕ → SyncM Bool
  | 0 => pure false
  | n + 1 => do
    let row ← selectUpload
    if row.status = .completed then pure true else pollCompleted n

def noteCompleted : SyncM Unit := updateCached mgr fun m => { m with status := .completed }

def takeOver (row : UploadRow) : SyncM Token := do
  let takeoverToken ← drawUuid
  let now ← utcNow
  let leaseUntil := now + mgr.runtimeConfig.finalizeLeaseDuration
  let taken ← updateUpload
    (if row.finalizeOwnerEpoch ≠ some mgr.processEpoch then
      .takeOverEpoch takeoverToken mgr.processEpoch now leaseUntil
    else
      .takeOverLease takeoverToken mgr.processEpoch now leaseUntil row.finalizeToken
        row.finalizeLeaseUntil)
  if taken then pure takeoverToken else throw (.finalizationOwnershipLost fileId)

/-- What follows when the initial acquisition changed no row: the lease taken over, or none when the
upload turns out to be completed. -/
def contend : SyncM (Option Token) := do
  let row ← selectUpload
  match row.status with
  | .completed => do
    noteCompleted mgr
    pure none
  | .finalizing => do
    let now ← utcNow
    if isStale mgr row now then some <$> takeOver mgr fileId row
    else do
      let completed ← pollCompleted 20
      if completed then do
        noteCompleted mgr
        pure none
      else
        throw (.finalizationLeaseActive fileId row.finalizeOwnerEpoch row.finalizeLeaseUntil)
  | .failed =>
    if row.failureClass = some .terminal then
      throw (.terminalUploadFailure fileId .invalidPersistedState)
    else throw (.uploadFailed "cannot finalize upload in status failed")
  | .uploading => throw (.uploadFailed "cannot finalize upload in status uploading")
  | .cancelled => throw (.uploadFailed "cannot finalize upload in status cancelled")

def acquireAndFinalize (reads : ℕ) (info : UploadInfo) : SyncM Unit := do
  let token ← drawUuid
  let now ← utcNow
  let leaseUntil := now + mgr.runtimeConfig.finalizeLeaseDuration
  let acquired ← updateUpload (.acquire token mgr.processEpoch now leaseUntil)
  if acquired then finalizeAsOwner sha mgr fileId reads info token leaseUntil
  else do
    let ownerToken ← contend mgr fileId
    match ownerToken with
    | some token => finalizeAsOwner sha mgr fileId reads info token leaseUntil
    | none => pure ()

def verifyAndFinalizeUpload (reads : ℕ) : SyncM Unit := do
  let m ← getOrLoadSession mgr
  match m.status with
  | .completed => do
    let stored ← existsOnDisk .final
    if stored then pure () else acquireAndFinalize sha mgr fileId reads m.toUploadInfo
  | .cancelled => throw (.uploadCancelled fileId)
  | _ => acquireAndFinalize sha mgr fileId reads m.toUploadInfo

end Calls

end MichiServer.Upload
