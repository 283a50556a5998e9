import Mathlib
import MichiServer.Basic
import MichiServer.Files.Patch

/-!
# The data of an upload

The types of `michi-sync` that a chunked upload is made of: what the client announces, the row that is
kept of it, the copy of the row that each process caches, and the errors of the calls. The columns an
upload is announced with never change afterwards. They are a structure of their own, `UploadInfo`,
which the row and the cached copy extend, and which carries what `init_upload` checked: the sizes are
positive, and the number of chunks is the one that the file needs.

The digest is a parameter. All that is used of it is that its text is 64 lowercase hexadecimal digits.
-/

namespace MichiServer.Upload

abbrev Epoch := ℕ

abbrev Token := ℕ

/-! ## Digests -/

def isLowerHexdigit (c : Char) : Bool := ('0' ≤ c && c ≤ '9') || ('a' ≤ c && c ≤ 'f')

def isAsciiHexdigit (c : Char) : Bool := isLowerHexdigit c || ('A' ≤ c && c ≤ 'F')

def isValidSha256Hex (h : String) : Bool :=
  h.utf8ByteSize == 64 && h.toList.all isAsciiHexdigit

/-- A digest, as the text `format!("\x7b:x\x7d", hasher.finalize())` gives. -/
structure Sha256 where
  hex : List UInt8 → String
  hex_size : ∀ data, (hex data).utf8ByteSize = 64
  hex_lower : ∀ data, (hex data).toList.all isLowerHexdigit = true

theorem Sha256.hex_valid (sha : Sha256) (data : List UInt8) :
    isValidSha256Hex (sha.hex data) = true := by
  have hlower := List.all_eq_true.mp (sha.hex_lower data)
  simp only [isValidSha256Hex, sha.hex_size, beq_self_eq_true, Bool.true_and, List.all_eq_true]
  intro c hc
  rw [isAsciiHexdigit, hlower c hc, Bool.true_or]

/-! ## Statuses and failures -/

inductive UploadStatus where
  | uploading | finalizing | completed | failed | cancelled
deriving DecidableEq

inductive UploadFailureClass where
  | recoverable | terminal
deriving DecidableEq

inductive UploadFailureCode where
  | hashMismatch | sizeMismatch | missingChunk | artifactMissing | invalidPersistedState

def UploadFailureCode.asDbStr : UploadFailureCode → String
  | .hashMismatch => "hash_mismatch"
  | .sizeMismatch => "size_mismatch"
  | .missingChunk => "missing_chunk"
  | .artifactMissing => "artifact_missing"
  | .invalidPersistedState => "invalid_persisted_state"

/-- `SyncError`, the errors the upload calls end with. `Panicked` is the panic of an `unwrap`. -/
inductive SyncError where
  | fileNotFound (text : String)
  | finalizationOwnershipLost (fileId : Uuid)
  | finalizationLeaseExpired (fileId : Uuid)
  | finalizationLeaseActive (fileId : Uuid) (owner_epoch : Option Epoch)
      (leaseUntil : Option DateTime)
  | terminalUploadFailure (fileId : Uuid) (code : UploadFailureCode)
  | chunkConflict (index : ℕ) (message : String)
  | invalidChunkParameter (text : String)
  | uploadAlreadyCompleted (fileId : Uuid)
  | uploadCancelled (fileId : Uuid)
  | hashMismatch (expected actual : String)
  | uploadFailed (text : String)
  | databaseError
  | ioError
  | panicked

/-! ## What is announced, and what is kept -/

structure UploadInit where
  filename : String
  originalPath : String
  fileSize : ℤ
  expectedHash : String
  uploadedBy : String

def divCeil (a b : ℕ) : ℕ := if a % b = 0 then a / b else a / b + 1

/-- The columns of `sync_uploads` that `init_upload` writes and nothing changes. -/
structure UploadInfo where
  filename : String
  originalPath : String
  fileSize : ℕ
  expectedHash : String
  uploadedBy : String
  totalChunks : ℕ
  chunkSize : ℕ
  file_size_pos : 0 < fileSize := by decide
  chunk_size_pos : 0 < chunkSize := by decide
  total_chunks_eq : totalChunks = divCeil fileSize chunkSize := by decide

structure UploadRow extends UploadInfo where
  status : UploadStatus := .uploading
  finalizeToken : Option Token := none
  finalizeOwnerEpoch : Option Epoch := none
  finalizeStartedAt : Option DateTime := none
  finalizeAttempts : ℕ := 0
  finalizeLeaseUntil : Option DateTime := none
  failureClass : Option UploadFailureClass := none
  failureCode : Option String := none
  lastError : Option String := none

structure UploadMeta extends UploadRow where
  receivedChunks : List ℕ := []

def UploadMeta.isCompleted (m : UploadMeta) : Bool := m.status = .completed

/-- Every chunk is among those received, as the completeness checks of `upload_chunk` count. -/
def UploadMeta.allReceived (m : UploadMeta) : Bool :=
  m.totalChunks > 0 && (List.range m.totalChunks).all fun i => m.receivedChunks.contains i

structure ChunkReceipt where
  chunkIndex : ℕ
  chunkHash : String
  size : ℕ
deriving DecidableEq

structure SyncedFile where
  id : Uuid
  filename : String
  originalPath : String
  serverPath : String
  fileHash : String
  fileSize : ℕ
  uploadedAt : DateTime
  uploadedBy : String
  checksumVerified : Bool

structure UploadChunk where
  fileId : Uuid
  chunkIndex : ℕ
  totalChunks : ℕ
  data : List UInt8
  chunkHash : String

/-- `UploadProgress`, without the percentage that is computed from the two counts. -/
structure UploadProgress where
  fileId : Uuid
  uploadedChunks : ℕ
  totalChunks : ℕ
  status : UploadStatus
  completed : Bool
  error : Option String

/-- `SyncRuntimeConfig`, with the lease duration in milliseconds. With a chunk size of zero
`init_upload` would panic in `div_ceil` before it stores anything. -/
structure SyncRuntimeConfig where
  chunkSize : ℕ := 1048576
  finalizeLeaseDuration : ℕ := 30000
  chunk_size_pos : 0 < chunkSize := by decide

structure SyncManager where
  uploadDir : String
  runtimeConfig : SyncRuntimeConfig := {}
  processEpoch : Epoch

/-! ## The size of a chunk -/

def UploadInfo.expectedSize (info : UploadInfo) (chunkIndex : ℕ) : ℕ :=
  if chunkIndex = info.totalChunks - 1 then
    if info.fileSize % info.chunkSize = 0 then info.chunkSize
    else info.fileSize % info.chunkSize
  else info.chunkSize

/-- What `init_upload` makes of an announcement: `file_size` as a `usize`, and the number of chunks as
a `u32`. -/
def UploadInit.info (mgr : SyncManager) (init : UploadInit) : Except SyncError UploadInfo :=
  if hsize : init.fileSize ≤ 0 then
    .error (.invalidChunkParameter "file_size must be positive and greater than 0")
  else if ¬ isValidSha256Hex init.expectedHash then
    .error (.invalidChunkParameter
      "expected_hash must be a 64-character hexadecimal SHA-256 string")
  else if init.fileSize.toNat ≥ 2 ^ 64 then
    .error (.invalidChunkParameter "file_size exceeds memory address space")
  else if divCeil init.fileSize.toNat mgr.runtimeConfig.chunkSize ≥ 2 ^ 32 then
    .error (.invalidChunkParameter "upload requires more chunks than protocol can represent")
  else
    .ok {
      filename := init.filename
      originalPath := init.originalPath
      fileSize := init.fileSize.toNat
      expectedHash := init.expectedHash
      uploadedBy := init.uploadedBy
      totalChunks := divCeil init.fileSize.toNat mgr.runtimeConfig.chunkSize
      chunkSize := mgr.runtimeConfig.chunkSize
      file_size_pos := by omega
      chunk_size_pos := mgr.runtimeConfig.chunk_size_pos
      total_chunks_eq := rfl }

/-!
## The ranges of the chunks

A chunk `i` of an upload covers `expected_size i` bytes from `i * chunk_size` on. The ranges of the
chunks partition the file: they lie in it, every byte of it is in the range of the chunk its position
divides to, and in no other.
-/

open MichiServer.Files

namespace UploadInfo

variable (info : UploadInfo)

def chunkOffset (i : ℕ) : ℕ := i * info.chunkSize

def Covers (i p : ℕ) : Prop :=
  info.chunkOffset i ≤ p ∧ p < info.chunkOffset i + info.expectedSize i

instance (i p : ℕ) : Decidable (info.Covers i p) := inferInstanceAs (Decidable (_ ∧ _))

/-- The last chunk ends where the file does. -/
theorem last_chunk :
    0 < info.totalChunks ∧ (info.totalChunks - 1) * info.chunkSize < info.fileSize ∧
      info.fileSize ≤ (info.totalChunks - 1) * info.chunkSize + info.chunkSize ∧
      (info.totalChunks - 1) * info.chunkSize + info.expectedSize (info.totalChunks - 1)
        = info.fileSize := by
  have hpos := info.file_size_pos
  have hc := info.chunk_size_pos
  have hdiv := Nat.div_add_mod info.fileSize info.chunkSize
  have hmod := Nat.mod_lt info.fileSize hc
  rw [expectedSize, if_pos rfl, info.total_chunks_eq, divCeil]
  rw [Nat.mul_comm] at hdiv
  split
  next hzero =>
    rw [hzero] at hdiv
    have hq : 0 < info.fileSize / info.chunkSize := by
      grind
    have hsub : (info.fileSize / info.chunkSize - 1) * info.chunkSize + info.chunkSize
        = info.fileSize / info.chunkSize * info.chunkSize := by
      rw [Nat.sub_mul, Nat.one_mul]
      have hle : 1 * info.chunkSize ≤ info.fileSize / info.chunkSize * info.chunkSize :=
        Nat.mul_le_mul_right _ hq
      omega
    omega
  grind

theorem expectedSize_of_lt {i : ℕ} (hi : i < info.totalChunks - 1) :
    info.expectedSize i = info.chunkSize := by
  rw [expectedSize, if_neg (by omega)]

theorem expectedSize_le (i : ℕ) : info.expectedSize i ≤ info.chunkSize := by
  have hmod := Nat.mod_lt info.fileSize info.chunk_size_pos
  unfold expectedSize
  split_ifs <;> omega

theorem expectedSize_pos (i : ℕ) : 0 < info.expectedSize i := by
  have hc := info.chunk_size_pos
  unfold expectedSize
  split_ifs <;> omega

theorem chunk_end_le_of_lt {i j : ℕ} (h : i < j) :
    info.chunkOffset i + info.expectedSize i ≤ info.chunkOffset j := by
  have hsize := info.expectedSize_le i
  have hmul : (i + 1) * info.chunkSize ≤ j * info.chunkSize := Nat.mul_le_mul_right _ h
  rw [Nat.add_mul, Nat.one_mul] at hmul
  unfold chunkOffset
  omega

theorem chunks_disjoint {i j : ℕ} (h : i ≠ j) :
    info.chunkOffset i + info.expectedSize i ≤ info.chunkOffset j ∨
      info.chunkOffset j + info.expectedSize j ≤ info.chunkOffset i := by
  rcases Nat.lt_or_gt_of_ne h with hlt | hgt
  · exact Or.inl (info.chunk_end_le_of_lt hlt)
  · exact Or.inr (info.chunk_end_le_of_lt hgt)

theorem chunk_end_le {i : ℕ} (hi : i < info.totalChunks) :
    info.chunkOffset i + info.expectedSize i ≤ info.fileSize := by
  obtain ⟨hpos, hlast, _, hend⟩ := info.last_chunk
  rcases Nat.lt_or_ge i (info.totalChunks - 1) with hlt | hge
  · have hle := info.chunk_end_le_of_lt hlt
    unfold chunkOffset at hle ⊢
    omega
  · obtain rfl : i = info.totalChunks - 1 := by omega
    exact Nat.le_of_eq hend

/-- Each byte is in the chunk of its quotient. -/
theorem exists_covering_chunk {p : ℕ} (hp : p < info.fileSize) :
    p / info.chunkSize < info.totalChunks ∧ info.Covers (p / info.chunkSize) p := by
  obtain ⟨hpos, hlast, hfull, hend⟩ := info.last_chunk
  have hc := info.chunk_size_pos
  have hlow : p / info.chunkSize * info.chunkSize ≤ p := Nat.div_mul_le_self p _
  have hhigh : p < p / info.chunkSize * info.chunkSize + info.chunkSize := by
    have h := Nat.lt_div_mul_add hc (a := p)
    omega
  have hle : p / info.chunkSize ≤ info.totalChunks - 1 := by
    by_contra hgt
    have hmul : (info.totalChunks - 1 + 1) * info.chunkSize ≤ p / info.chunkSize * info.chunkSize :=
      Nat.mul_le_mul_right _ (by omega)
    rw [Nat.add_mul, Nat.one_mul] at hmul
    omega
  refine ⟨by omega, hlow, ?_⟩
  unfold chunkOffset
  rcases Nat.lt_or_ge (p / info.chunkSize) (info.totalChunks - 1) with hlt | hge
  · rw [info.expectedSize_of_lt hlt]
    exact hhigh
  · grind

/-- **The chunks partition the file.** A position is in the file exactly when it is in the range of
one of the chunks, and then it is in the range of no other. -/
theorem chunks_partition (p : ℕ) :
    (p < info.fileSize ↔ ∃ i < info.totalChunks, info.Covers i p) ∧
      ∀ i j, info.Covers i p → info.Covers j p → i = j := by
  refine ⟨⟨fun hp => ?_, fun ⟨i, hi, _, hlt⟩ => ?_⟩, fun i j ⟨hi, hi'⟩ ⟨hj, hj'⟩ => ?_⟩
  · obtain ⟨hi, hcovers⟩ := info.exists_covering_chunk hp
    exact ⟨_, hi, hcovers⟩
  · have hle := info.chunk_end_le hi
    omega
  · by_contra hne
    rcases info.chunks_disjoint hne with h | h <;> omega

theorem eq_of_chunks {α : Type} {content content' : List α}
    (hlen : content.length = info.fileSize) (hlen' : content'.length = info.fileSize)
    (hchunks : ∀ i < info.totalChunks,
      slice content (info.chunkOffset i) (info.expectedSize i) =
        slice content' (info.chunkOffset i) (info.expectedSize i)) : content = content' := by
  apply List.ext_getElem?
  intro p
  rcases Nat.lt_or_ge p info.fileSize with hp | hp
  · obtain ⟨hi, hlow, hhigh⟩ := info.exists_covering_chunk hp
    have h := congrArg (fun l => l[p - info.chunkOffset (p / info.chunkSize)]?)
      (hchunks _ hi)
    simp only [slice_getElem?] at h
    grind
  · grind

end UploadInfo

end MichiServer.Upload
