import MichiServer.Interleave.System
import MichiServer.Upload.Chunks

/-!
# What the calls of an upload share

One upload: its row, its chunk receipts, its rows of `synced_files`, its two files, the copy of the
row in each process, and the heartbeats that renew its lease. `UploadAct` lists the single steps the
calls are made of, a database statement, an operation on a file or a critical section of the cache
each, and `exec` is what a step does.

A name in the upload directory stands for a file, and an open file is the file, not the name: a
handle that was opened as `<id>.part` still writes that file after it was renamed. Files are kept by
number in `inodes`, and the two names point to them.

Uuids are drawn fresh, so they are numbered in the order of drawing, and `uuids` keeps who drew each.
Storage errors are drawn with the steps, and a step that fails does nothing.
-/

namespace MichiServer.Upload

open MichiServer.Files MichiServer.Interleave

abbrev Inode := ℕ

/-- The two names of the upload directory an upload uses: `<id>.part` and `<id>`. -/
inductive UploadPath where
  | part | final
deriving DecidableEq

/-- What a step draws from outside: whether the storage fails, the clock in milliseconds, and how many
bytes a read returns. -/
structure StepEnv where
  fails : Bool := false
  now : DateTime := 0
  block : ℕ := 0

/-! ## Updates of the row -/

inductive UploadUpdate where
  | acquire (token : Token) (epoch : Epoch) (now leaseUntil : DateTime)
  | takeOverEpoch (token : Token) (epoch : Epoch) (now leaseUntil : DateTime)
  | takeOverLease (token : Token) (epoch : Epoch) (now leaseUntil : DateTime)
      (existingToken : Option Token) (existingLease : Option DateTime)
  | renew (token : Token) (epoch : Epoch) (leaseUntil : DateTime)
  | markFailed (token : Token) (epoch : Epoch) (failureClass : UploadFailureClass)
      (failureCode reason : String)
  | markCompleted (token : Token) (epoch : Epoch)

namespace UploadUpdate

def applies (row : UploadRow) : UploadUpdate → Bool
  | acquire _ _ _ _ =>
    row.status = .uploading ∨
      row.status = .failed ∧ (row.failureClass = none ∨ row.failureClass = some .recoverable)
  | takeOverEpoch _ epoch _ _ =>
    row.status = .finalizing ∧ row.finalizeOwnerEpoch ≠ some epoch
  | takeOverLease _ _ _ _ existingToken existingLease =>
    row.status = .finalizing ∧ row.finalizeToken = existingToken ∧
      row.finalizeLeaseUntil = existingLease
  | renew token epoch _ | markFailed token epoch _ _ _ | markCompleted token epoch =>
    row.status = .finalizing ∧ row.finalizeToken = some token ∧
      row.finalizeOwnerEpoch = some epoch

def set (row : UploadRow) : UploadUpdate → UploadRow
  | acquire token epoch now leaseUntil =>
    { row with
      status := .finalizing
      finalizeToken := some token
      finalizeOwnerEpoch := some epoch
      finalizeStartedAt := some now
      finalizeLeaseUntil := some leaseUntil
      finalizeAttempts := row.finalizeAttempts + 1
      lastError := none }
  | takeOverEpoch token epoch now leaseUntil | takeOverLease token epoch now leaseUntil _ _ =>
    { row with
      finalizeToken := some token
      finalizeOwnerEpoch := some epoch
      finalizeStartedAt := some now
      finalizeLeaseUntil := some leaseUntil
      finalizeAttempts := row.finalizeAttempts + 1 }
  | renew _ _ leaseUntil => { row with finalizeLeaseUntil := some leaseUntil }
  | markFailed _ _ failureClass failureCode reason =>
    { row with
      status := .failed
      failureClass := some failureClass
      failureCode := some failureCode
      lastError := some reason
      finalizeToken := none
      finalizeOwnerEpoch := none
      finalizeLeaseUntil := none }
  | markCompleted _ _ =>
    { row with
      status := .completed
      finalizeToken := none
      finalizeOwnerEpoch := none
      finalizeStartedAt := none
      finalizeLeaseUntil := none
      failureClass := none
      failureCode := none
      lastError := none }

def apply (u : UploadUpdate) (row : UploadRow) : UploadRow :=
  if u.applies row then u.set row else row

end UploadUpdate

/-! ## The shared state -/

/-- The task of `spawn_finalization_heartbeat`, running until it has an outcome. -/
structure Heartbeat where
  fileId : Uuid
  epoch : Epoch
  leaseDuration : ℕ
  outcome : Option (Except SyncError Unit) := none

/-- The outcome of a heartbeat that is cancelled and waited for: a running one ends well. -/
def Heartbeat.joined (h : Heartbeat) : Except SyncError Unit := h.outcome.getD (.ok ())

structure UploadWorld where
  row : UploadRow
  receipts : List ChunkReceipt := []
  syncedFiles : List SyncedFile := []
  part : Option Inode := none
  final : Option Inode := none
  inodes : List (List UInt8) := []
  uploads : Epoch → Option UploadMeta := fun _ => none
  heartbeats : Token → Option Heartbeat := fun _ => none
  uuids : List TaskId := []

namespace UploadWorld

def fileAt (w : UploadWorld) : UploadPath → Option Inode
  | .part => w.part
  | .final => w.final

def content (w : UploadWorld) (x : Inode) : List UInt8 := w.inodes[x]?.getD []

def receipt (w : UploadWorld) (index : ℕ) : Option ChunkReceipt :=
  w.receipts.find? fun r => r.chunkIndex = index

def insertChunk (w : UploadWorld) (r : ChunkReceipt) : UploadWorld :=
  if (w.receipt r.chunkIndex).isSome then w else { w with receipts := w.receipts ++ [r] }

/-- `INSERT INTO synced_files … ON CONFLICT(file_hash, server_path) DO NOTHING`. -/
def insertSyncedFile (w : UploadWorld) (f : SyncedFile) : UploadWorld :=
  if w.syncedFiles.any fun g => g.fileHash = f.fileHash ∧ g.serverPath = f.serverPath then w
  else { w with syncedFiles := w.syncedFiles ++ [f] }

/-- Opening `<id>.part` for writing, creating it when it is not there. -/
def openPart (w : UploadWorld) : Inode × UploadWorld :=
  match w.part with
  | some x => (x, w)
  | none =>
    (w.inodes.length, { w with part := some w.inodes.length, inodes := w.inodes ++ [[]] })

/-- The content of a file after a positioned write, which fills a gap with zeros. -/
def write (w : UploadWorld) (x : Inode) (offset : ℕ) (data : List UInt8) : UploadWorld :=
  { w with inodes := w.inodes.modify x fun content => patch 0 content offset data }

def rename (w : UploadWorld) : UploadWorld := { w with final := w.part, part := none }

def setUploads (w : UploadWorld) (epoch : Epoch) (entry : Option UploadMeta) : UploadWorld :=
  { w with uploads := fun e => if e = epoch then entry else w.uploads e }

def setHeartbeat (w : UploadWorld) (token : Token) (h : Heartbeat) : UploadWorld :=
  { w with heartbeats := fun t => if t = token then some h else w.heartbeats t }

end UploadWorld

/-! ## The steps of the calls -/

inductive UploadAct where
  | uploads (epoch : Epoch) (f : Option UploadMeta → Option UploadMeta)
  | selectUpload
  | selectChunkIndices
  | selectChunk (index : ℕ)
  | insertChunk (r : ChunkReceipt)
  | updateUpload (u : UploadUpdate)
  | insertSyncedFile (f : SyncedFile)
  | selectSyncedFile (fileHash serverPath : String)
  | openPart
  | write (x : Inode) (offset : ℕ) (data : List UInt8)
  | metadata (p : UploadPath)
  | openFile (p : UploadPath)
  | read (x : Inode) (pos len : ℕ)
  | rename
  | newUuid
  | clock
  | spawnHeartbeat (token : Token) (h : Heartbeat)
  | joinHeartbeat (token : Token)

def UploadAct.Resp : UploadAct → Type
  | uploads _ _ => Option UploadMeta
  | selectUpload => Option UploadRow
  | selectChunkIndices => Option (List ℕ)
  | selectChunk _ => Option (Option ChunkReceipt)
  | insertChunk _ => Option Unit
  | updateUpload _ => Option Bool
  | insertSyncedFile _ => Option Unit
  | selectSyncedFile _ _ => Option Uuid
  | openPart => Option Inode
  | write _ _ _ => Option Unit
  | metadata _ => Option ℕ
  | openFile _ => Option Inode
  | read _ _ _ => Option (List UInt8)
  | rename => Option Unit
  | newUuid => ℕ
  | clock => DateTime
  | spawnHeartbeat _ _ => Unit
  | joinHeartbeat _ => Except SyncError Unit

/-- What a step does to the shared state, for the task that does it. An `updateUpload` is answered
with whether it changed the row, a `rename` fails when there is no staging file, and the cache is
answered with the entry it had. -/
def exec (task : TaskId) : (a : UploadAct) → StepEnv → UploadWorld → a.Resp × UploadWorld
  | .uploads epoch f, _, w => (w.uploads epoch, w.setUploads epoch (f (w.uploads epoch)))
  | .selectUpload, env, w => (if env.fails then none else some w.row, w)
  | .selectChunkIndices, env, w =>
    (if env.fails then none else some (w.receipts.map ChunkReceipt.chunkIndex), w)
  | .selectChunk index, env, w => (if env.fails then none else some (w.receipt index), w)
  | .insertChunk r, env, w => if env.fails then (none, w) else (some (), w.insertChunk r)
  | .updateUpload u, env, w =>
    if env.fails then (none, w)
    else (some (u.applies w.row), { w with row := u.apply w.row })
  | .insertSyncedFile f, env, w =>
    if env.fails then (none, w) else (some (), w.insertSyncedFile f)
  | .selectSyncedFile fileHash serverPath, env, w =>
    (if env.fails then none
      else (w.syncedFiles.find? fun g =>
        g.fileHash = fileHash ∧ g.serverPath = serverPath).map SyncedFile.id, w)
  | .openPart, env, w => if env.fails then (none, w) else (some w.openPart.1, w.openPart.2)
  | .write x offset data, env, w =>
    if env.fails then (none, w) else (some (), w.write x offset data)
  | .metadata p, env, w =>
    (if env.fails then none else (w.fileAt p).map fun x => (w.content x).length, w)
  | .openFile p, env, w => (if env.fails then none else w.fileAt p, w)
  | .read x pos len, env, w =>
    (if env.fails then none else some (slice (w.content x) pos (max 1 (min env.block len))), w)
  | .rename, env, w =>
    if env.fails ∨ w.part = none then (none, w) else (some (), w.rename)
  | .newUuid, _, w => (w.uuids.length, { w with uuids := w.uuids ++ [task] })
  | .clock, env, w => (env.now, w)
  | .spawnHeartbeat token h, _, w => ((), w.setHeartbeat token h)
  | .joinHeartbeat token, _, w =>
    match w.heartbeats token with
    | none => (.ok (), w)
    | some h => (h.joined, w.setHeartbeat token { h with outcome := some h.joined })

/-! ## The heartbeats -/

structure HeartbeatTick where
  token : Token
  env : StepEnv

/-- `renew_finalization_lease`, called by the heartbeat of a token while it runs. An error ends the
heartbeat. -/
def renewFinalizationLease (t : HeartbeatTick) (w : UploadWorld) : UploadWorld :=
  match w.heartbeats t.token with
  | none => w
  | some h =>
    if h.outcome.isSome then w
    else if t.env.fails then
      w.setHeartbeat t.token { h with outcome := some (.error .databaseError) }
    else
      let leaseUntil := t.env.now + h.leaseDuration
      let u := UploadUpdate.renew t.token h.epoch leaseUntil
      if u.applies w.row then
        { w with row := u.set w.row }.setUploads h.epoch
          ((w.uploads h.epoch).map fun m : UploadMeta =>
            { m with finalizeLeaseUntil := some leaseUntil })
      else
        w.setHeartbeat t.token { h with
          outcome := some (.error (.finalizationOwnershipLost h.fileId)) }

/-- The steps of the calls, and the turns of the heartbeats, over the state of one upload. -/
def semantics : Semantics UploadAct UploadAct.Resp StepEnv HeartbeatTick UploadWorld where
  exec := exec
  tick := renewFinalizationLease

end MichiServer.Upload
